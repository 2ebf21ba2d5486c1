import RiscvMachine.Catalogue
import RiscvMachine.Hart.Dump
import RiscvMachine.Hart.Step
import RiscvMachine.Simulation.Config
import RiscvMachine.Simulation.Verdict
/-!
Simulations: a hart with the standard instruction set, one region of memory, an optional image,
and a pair of mailboxes through which a test program reports its verdict.
-/

namespace RiscvMachine

inductive SimulationError where
  | unreadableImage (path reason : String)
  | imageOutOfRange (address : Word) (length : Nat)
  | memory (error : MemoryError)
  deriving DecidableEq

def SimulationError.message : SimulationError → String
  | unreadableImage path reason => "failed to read image " ++ quoted path ++ ": " ++ reason
  | imageOutOfRange address length =>
      "image of " ++ toString length ++ " bytes at " ++ hex address.toNat ++ " does not fit in memory"
  | memory error => error.message

structure Simulation where
  hart : Hart
  config : SimulationConfig
  /-- The number of instructions executed since the start or the last reset. -/
  executed : Nat

namespace Simulation

/-- The first and the last address of `count` bytes are in memory. -/
def fits (memory : MemoryMap) (address : Word) (count : Nat) : Bool :=
  count = 0 || (address.toNat + count < wordCount && memory.contains address &&
    memory.contains (address + BitVec.ofNat 64 (count - 1)))

def loadImage (simulation : Simulation) (address : Word) (bytes : List Byte) :
    Except SimulationError Simulation :=
  if fits simulation.hart.memory address bytes.length then do
    let memory ← (simulation.hart.memory.writeBytes address bytes).mapError .memory
    return { simulation with hart := { simulation.hart with memory := memory } }
  else .error (.imageOutOfRange address bytes.length)

def loadConfiguredImage (simulation : Simulation) : Except SimulationError Simulation :=
  match simulation.config.image with
  | none => .ok simulation
  | some image =>
      match image.content with
      | .error reason => .error (.unreadableImage image.path reason)
      | .ok bytes => simulation.loadImage simulation.config.loadAddress bytes

/-- Writes a 32-bit word to a mailbox; a mailbox outside memory stays as it is. -/
def post (simulation : Simulation) (address : Word) (value : BitVec 32) : Simulation :=
  match simulation.hart.memory.store address (value.setWidth 64) .word with
  | .error _ => simulation
  | .ok memory => { simulation with hart := { simulation.hart with memory := memory } }

/-- Clears one mailbox, or reports that it cannot be written. -/
def clearMailbox (simulation : Simulation) (address : Word) : Simulation :=
  match simulation.hart.memory.store address 0 .word with
  | .error error =>
      { simulation with hart := simulation.hart.record (.mailboxUnavailable error) }
  | .ok memory => { simulation with hart := { simulation.hart with memory := memory } }

def clearMailboxes (simulation : Simulation) : Simulation :=
  simulation.config.mailboxes.foldl clearMailbox simulation

/-- A new simulation: memory, hart, image, and empty mailboxes. -/
def start (config : SimulationConfig) : Except SimulationError Simulation := do
  let memory := MemoryMap.withRegion config.memoryBase config.memorySize
  let hart := Hart.initial .standard memory (.identity .empty) config.xlen config.entry
  let simulation ← loadConfiguredImage ⟨hart, config, 0⟩
  return simulation.clearMailboxes

def run (simulation : Simulation) (count : Nat) : StepOutcome × Simulation :=
  let (outcome, hart) := simulation.hart.step count
  (outcome, { simulation with hart := hart, executed := simulation.executed + outcome.executed })

/-- Executes at most as many instructions as the configuration admits. -/
def runToLimit (simulation : Simulation) : StepOutcome × Simulation :=
  simulation.run simulation.config.stepLimit

/-- The report in the mailbox, if it is not zero; taking it clears it and acknowledges it. -/
def takeReport (simulation : Simulation) : Option (BitVec 32) × Simulation :=
  match simulation.config.toHost with
  | none => (none, simulation)
  | some mailbox =>
      match simulation.hart.memory.load mailbox .word with
      | .error _ => (none, simulation)
      | .ok value =>
          let report := value.setWidth 32
          if report = 0 then (none, simulation)
          else
            let simulation := simulation.post mailbox 0
            match simulation.config.fromHost with
            | none => (some report, simulation)
            | some acknowledgement => (some report, simulation.post acknowledgement report)

/-- The number of instructions between two looks into the mailbox. -/
def pollInterval : Nat := 1000

/-- Runs batches until there is a report, the hart stops, or nothing remains. A batch that does
not stop executes one instruction at least, so the fuel is never used up before the budget. -/
def runBatches : (fuel remaining : Nat) → Simulation → Verdict × Nat × Simulation
  | 0, remaining, simulation => (.timeout, remaining, simulation)
  | fuel + 1, remaining, simulation =>
      if remaining = 0 then (.timeout, 0, simulation)
      else
        let (outcome, simulation) := simulation.run (min remaining pollInterval)
        let remaining := remaining - outcome.executed
        match simulation.takeReport with
        | (some report, simulation) => (.ofReport report, remaining, simulation)
        | (none, simulation) =>
            match outcome.stop with
            | none => runBatches fuel remaining simulation
            | some reason =>
                let event := Event.stoppedEarly reason simulation.hart.pc
                (.timeout, remaining, { simulation with hart := simulation.hart.record event })

/-- Runs a test program for at most `count` instructions, or as many as the configuration admits
if `count` is zero; the result has the verdict and the number of executed instructions. -/
def runTest (simulation : Simulation) (count : Nat) : (Verdict × Nat) × Simulation :=
  let budget := if count = 0 then simulation.config.stepLimit else count
  let before := simulation.executed
  match simulation.config.toHost with
  | none =>
      let (_, simulation) := simulation.run budget
      let simulation := { simulation with hart := simulation.hart.record (.mailboxUnset budget) }
      ((.timeout, simulation.executed - before), simulation)
  | some _ =>
      let (verdict, remaining, simulation) := runBatches budget budget simulation.clearMailboxes
      let executed := simulation.executed - before
      if verdict = .timeout ∧ remaining = 0 then
        ((.timeout, executed),
          { simulation with hart := simulation.hart.record (.verdictMissing executed) })
      else ((verdict, executed), simulation)

/-- Starts over: a hard reset of the hart, and the image loaded again. Other memory stays. If the
image cannot be loaded the hart is reset all the same. -/
def reset (simulation : Simulation) : Except SimulationError Unit × Simulation :=
  let simulation :=
    { simulation with hart := simulation.hart.reset true simulation.config.entry, executed := 0 }
  match simulation.loadConfiguredImage with
  | .error error => (.error error, simulation)
  | .ok simulation => (.ok (), simulation.clearMailboxes)

def dump (simulation : Simulation) : String :=
  "=== SimEnv Status ===\nInstructions executed: " ++ toString simulation.executed ++ "\n" ++
    simulation.hart.dump

end Simulation

end RiscvMachine
