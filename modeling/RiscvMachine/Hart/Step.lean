import RiscvMachine.Hart.Execute
/-!
Running a hart: fetch, decode and execute, one instruction after the other, until a number of
instructions is executed or the hart stops.
-/

namespace RiscvMachine

/-- The number of executed instructions, trapping ones included, and why the run ended early. -/
structure StepOutcome where
  executed : Nat
  stop : Option StopReason
  deriving DecidableEq

namespace Hart

def recordInstruction (hart : Hart) (raw : Encoding) : Hart :=
  match hart.journal with
  | none => hart
  | some _ =>
      match hart.disassemble raw with
      | none => hart
      | some application => hart.record (.executing hart.pc application)

inductive Completion where
  | retired
  /-- With a trap, after which the program counter is replaced if a call is no trap boundary. -/
  | trapped (exception : Exception) (resume : Option Word)
  deriving DecidableEq

/-- An illegal instruction comes with its encoding, any other cause with a value of its own. -/
def trapValue (exception : Exception) (raw : Encoding) : Word :=
  if exception.cause = .illegalInstruction then raw.setWidth 64 else exception.value

/-- Carries out what the instruction at the program counter calls for, short of a trap. -/
def perform (hart : Hart) (raw : Encoding) : Completion × Hart :=
  let pc := hart.pc
  let next := hart.xlen.address (pc + BitVec.ofNat 64 (EncodedLength.of raw).bytes)
  match hart.instructions.dispatch hart.xlen raw pc with
  | .illegal =>
      (.trapped ⟨.illegalInstruction, raw.setWidth 64⟩ none, hart.record (.illegalEncoding pc raw))
  | .nop => (.retired, { hart with pc := next })
  | .execute binding operands =>
      match binding.operation.execute operands hart with
      | (.error exception, hart) =>
          (.trapped ⟨exception.cause, trapValue exception raw⟩ none, { hart with pc := pc })
      | (.ok .call, hart) =>
          let resume := if binding.pcUpdate.advances .call then some next else none
          (.trapped ⟨.callFrom hart.privilege, 0⟩ resume, hart)
      | (.ok flow, hart) =>
          (.retired, if binding.pcUpdate.advances flow then { hart with pc := next } else hart)

/-- Fetches and carries out one instruction, short of a trap. -/
def attempt (hart : Hart) : Completion × Hart :=
  match hart.fetch hart.pc with
  | (.error cause, hart) => (.trapped ⟨cause, hart.pc⟩ none, hart)
  | (.ok raw, hart) => (hart.recordInstruction raw).perform raw

/-- Executes one instruction, and takes the trap in which it may end. -/
def executeNext (hart : Hart) : Hart :=
  match hart.attempt with
  | (.retired, hart) => hart
  | (.trapped exception resume, hart) =>
      let hart := hart.enterTrap exception.cause exception.value
      { hart with pc := resume.getD hart.pc }

/-- Whether the hart stops at a breakpoint before its next instruction. -/
def checkBreakpoint (hart : Hart) : Bool × Hart :=
  match hart.debugger with
  | none => (false, hart)
  | some debugger =>
      let (stops, debugger) := debugger.check hart.pc
      (stops, { hart with debugger := some debugger })

/-- Executes one instruction, unless the hart waits or stops at a breakpoint. -/
def advance (hart : Hart) : Option StopReason × Hart :=
  if hart.waiting then (some .waitForInterrupt, hart)
  else
    match hart.checkBreakpoint with
    | (true, hart) => (some (.breakpoint hart.pc), hart.record (.breakpointHit hart.pc))
    | (false, hart) =>
        let hart := hart.executeNext
        (none, { hart with cycles := hart.cycles + 1 })

/-- Continues a run that has executed some instructions already. -/
def stepFrom (executed : Nat) : (count : Nat) → Hart → StepOutcome × Hart
  | 0, hart => (⟨executed, none⟩, hart)
  | count + 1, hart =>
      match hart.advance with
      | (some reason, hart) => (⟨executed, some reason⟩, hart)
      | (none, hart) => stepFrom (executed + 1) count hart

def step (hart : Hart) (count : Nat) : StepOutcome × Hart :=
  stepFrom 0 count hart

end Hart

end RiscvMachine
