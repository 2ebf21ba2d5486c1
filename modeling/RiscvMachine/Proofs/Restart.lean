import RiscvMachine.Proofs.Equipment
import RiscvMachine.Proofs.Startup
/-!
Starting over. After a reset a simulation is a new one of the width that was last set, apart from the
memory outside the image and the mailboxes: it holds what was left there.
-/

namespace RiscvMachine

theorem Region.readBytes_self (region : Region) :
    region.readBytes region.base region.size = .ok (region.bytesFrom 0 region.size) := by
  have hlocate : region.locateBytes region.base region.size = .ok 0 := by
    simp [locateBytes, offset?]
  rw [readBytes, hlocate]
  rfl

namespace MemoryMap.IsRegion

variable {first second : MemoryMap} {base : Word} {size : Nat}
  (hfirst : first.IsRegion base size) (hsecond : second.IsRegion base size)
include hfirst hsecond

theorem sameBytes (hbytes : ∀ address, second.byte? address = first.byte? address) :
    first.SameBytes second := by
  obtain ⟨written, rfl⟩ := hfirst
  obtain ⟨written', rfl⟩ := hsecond
  refine .cons ⟨rfl, rfl, fun address hcontains => ?_⟩ .nil
  have hcontains' : (Region.mk base size written').contains address = true := hcontains
  have hbyte := hbytes address
  simp only [byte?_eq_map, find?, List.find?_cons, hcontains, hcontains', Option.map_some,
    Option.some.injEq] at hbyte
  exact hbyte

/-- All bytes agree if they do where the region is read as a whole. -/
theorem byte?_eq_of_readBytes (hread : second.readBytes base size = first.readBytes base size)
    (address : Word) : second.byte? address = first.byte? address := by
  obtain ⟨written, rfl⟩ := hfirst
  obtain ⟨written', rfl⟩ := hsecond
  have hsame (place : Word) : (Region.mk base size written').contains place =
      (Region.mk base size written).contains place := rfl
  simp only [byte?_eq_map, find?, List.find?_cons, List.find?_nil, hsame]
  cases hcontains : (Region.mk base size written).contains address with
  | false => rfl
  | true =>
      have hinside : base.toNat ≤ address.toNat ∧ address.toNat < base.toNat + size :=
        Region.contains_iff.mp hcontains
      have hbase : (Region.mk base size written).contains base = true :=
        Region.contains_iff.mpr ⟨Nat.le_refl _, (by omega : base.toNat < base.toNat + size)⟩
      simp only [readBytes, find?, List.find?_cons, hsame, hbase] at hread
      rw [Region.readBytes_self ⟨base, size, written'⟩,
        Region.readBytes_self ⟨base, size, written⟩, Except.ok.injEq] at hread
      have hbyte := congrArg (fun bytes => bytes[address.toNat - base.toNat]?) hread
      have hdistance : address.toNat - base.toNat < size := by omega
      simp only [Region.getElem?_bytesFrom hdistance, Nat.zero_add] at hbyte
      exact hbyte

end MemoryMap.IsRegion

namespace Hart

/-- No breakpoints and no record of events, and virtual addresses that are physical ones. -/
def plainEquipment (instructions : InstructionSet) (xlen : Xlen) : Equipment where
  instructions := instructions
  xlen := xlen
  translation := .identity .empty
  debugger := none
  recording := false

variable {hart : Hart} {instructions : InstructionSet}

theorem journal_eq_none (hequipment : hart.equipment = plainEquipment instructions hart.xlen) :
    hart.journal = none := by
  have hrecording : hart.journal.isSome = false := congrArg Equipment.recording hequipment
  rwa [Option.isSome_eq_false_iff, Option.isNone_iff_eq_none] at hrecording

/-- A hard reset leaves memory and the width, and makes all else new. -/
theorem reset_eq_initial (hequipment : hart.equipment = plainEquipment instructions hart.xlen)
    (entry : Word) : hart.reset true entry =
      .initial instructions hart.memory (.identity .empty) hart.xlen entry := by
  have hinstructions : hart.instructions = instructions := congrArg Equipment.instructions hequipment
  have htranslation : hart.translation.invalidate = .identity .empty :=
    congrArg Equipment.translation hequipment
  have hdebugger : hart.debugger = none := congrArg Equipment.debugger hequipment
  have hjournal := journal_eq_none hequipment
  rw [reset, record_of_none hjournal]
  simp only [if_true, invalidate, htranslation, hinstructions, hdebugger, hjournal, initial]

theorem xlen_setXlen (hart : Hart) (xlen : Xlen) : (hart.setXlen xlen).xlen = xlen := by
  rw [setXlen]
  split
  · assumption
  · rfl

theorem equipment_setXlen (hequipment : hart.equipment = plainEquipment instructions hart.xlen)
    (xlen : Xlen) :
    (hart.setXlen xlen).equipment = plainEquipment instructions (hart.setXlen xlen).xlen ∧
      (hart.setXlen xlen).memory = hart.memory := by
  rw [setXlen]
  split
  · exact ⟨hequipment, rfl⟩
  · have hrecorded := (hart.equipment_record (.widthSwitched hart.xlen xlen)).trans hequipment
    refine ⟨?_, rfl⟩
    exact congrArg (fun equipment : Equipment => { equipment with xlen := xlen }) hrecorded

end Hart

namespace Simulation

variable {config : SimulationConfig} {simulation before between after started : Simulation}

/-! ### What runs leave -/

/-- All that changes is the state of the hart, and memory by stores. -/
structure Kept (before after : Simulation) : Prop where
  config_eq : after.config = before.config
  equipment_eq : after.hart.equipment = before.hart.equipment
  stored : before.hart.memory.Stored after.hart.memory

namespace Kept

theorem refl (simulation : Simulation) : Kept simulation simulation :=
  ⟨rfl, rfl, .refl⟩

theorem trans (hfirst : Kept before between) (hsecond : Kept between after) : Kept before after :=
  ⟨hsecond.config_eq.trans hfirst.config_eq, hsecond.equipment_eq.trans hfirst.equipment_eq,
    hfirst.stored.trans hsecond.stored⟩

theorem debugger (hkept : Kept before after) (hdebugger : before.hart.debugger = none) :
    after.hart.debugger = none :=
  (congrArg Equipment.debugger hkept.equipment_eq).trans hdebugger

theorem record (simulation : Simulation) (event : Event) :
    Kept simulation { simulation with hart := simulation.hart.record event } :=
  ⟨rfl, simulation.hart.equipment_record event, .refl⟩

theorem store {address value : Word} {size : AccessSize} {memory : MemoryMap}
    (hstore : simulation.hart.memory.store address value size = .ok memory) :
    Kept simulation (simulation.withMemory memory) :=
  ⟨rfl, rfl, .single ⟨address, value, size, hstore⟩⟩

theorem run (hdebugger : simulation.hart.debugger = none) (count : Nat) :
    Kept simulation (simulation.run count).2 :=
  ⟨rfl, Hart.equipment_step hdebugger count, Hart.stored_step simulation.hart count⟩

theorem post (simulation : Simulation) (address : Word) (value : BitVec 32) :
    Kept simulation (simulation.post address value) := by
  rw [Simulation.post]
  split
  · exact refl simulation
  · rename_i memory hstore
    exact store hstore

theorem clearMailbox (simulation : Simulation) (mailbox : Word) :
    Kept simulation (simulation.clearMailbox mailbox) := by
  rw [Simulation.clearMailbox]
  split
  · exact record simulation _
  · rename_i memory hstore
    exact store hstore

theorem clearMailboxes (simulation : Simulation) : Kept simulation simulation.clearMailboxes := by
  rw [Simulation.clearMailboxes]
  generalize simulation.config.mailboxes = mailboxes
  induction mailboxes generalizing simulation with
  | nil => exact refl simulation
  | cons mailbox rest ih => exact (clearMailbox simulation mailbox).trans (ih _)

theorem takeReport (simulation : Simulation) : Kept simulation simulation.takeReport.2 := by
  rw [Simulation.takeReport]
  split
  · exact refl simulation
  · split
    · exact refl simulation
    · dsimp only
      split
      · exact refl simulation
      · split
        · exact post simulation _ 0
        · exact (post simulation _ 0).trans (post _ _ _)

theorem runBatches (hdebugger : simulation.hart.debugger = none) (fuel remaining : Nat) :
    Kept simulation (runBatches fuel remaining simulation).2.2 := by
  induction fuel generalizing simulation remaining with
  | zero => exact refl simulation
  | succ fuel ih =>
      rw [Simulation.runBatches]
      split
      · exact refl simulation
      · have hrun := run hdebugger (min remaining pollInterval)
        have htake := hrun.trans (takeReport _)
        dsimp only
        split <;> rename_i hreport <;> rw [hreport] at htake
        · exact htake
        · split
          · exact htake.trans (ih (htake.debugger hdebugger) _)
          · exact htake.trans (record _ _)

theorem runTest (hdebugger : simulation.hart.debugger = none) (count : Nat) :
    Kept simulation (simulation.runTest count).2 := by
  cases hmailbox : simulation.config.toHost with
  | none =>
      simp only [Simulation.runTest, hmailbox]
      exact (run hdebugger _).trans (record _ _)
  | some mailbox =>
      have hcleared := clearMailboxes simulation
      have hended := hcleared.trans (runBatches (hcleared.debugger hdebugger)
        (simulation.testBudget count) (simulation.testBudget count))
      simp only [Simulation.runTest, hmailbox]
      rw [← testBudget]
      split
      · exact hended.trans (record _ _)
      · exact hended

end Kept

/-! ### Histories -/

/-- What may be asked of a simulation between its start and a reset. -/
inductive Use where
  | run (count : Nat)
  | runToLimit
  | runTest (count : Nat)
  | setXlen (xlen : Xlen)

def use (simulation : Simulation) : Use → Simulation
  | .run count => (simulation.run count).2
  | .runToLimit => simulation.runToLimit.2
  | .runTest count => (simulation.runTest count).2
  | .setXlen xlen => { simulation with hart := simulation.hart.setXlen xlen }

def useAll (simulation : Simulation) (uses : List Use) : Simulation :=
  uses.foldl use simulation

/-- What a simulation has of its configuration, whatever has been done with it. -/
structure Descends (config : SimulationConfig) (simulation : Simulation) : Prop where
  config_eq : simulation.config = config
  equipment_eq : simulation.hart.equipment = Hart.plainEquipment .standard simulation.hart.xlen
  isRegion : simulation.hart.memory.IsRegion config.memoryBase config.memorySize

namespace Descends

theorem kept (hbefore : Descends config before) (hkept : Kept before after) :
    Descends config after where
  config_eq := hkept.config_eq.trans hbefore.config_eq
  equipment_eq := by
    have hxlen : after.hart.xlen = before.hart.xlen := congrArg Equipment.xlen hkept.equipment_eq
    rw [hkept.equipment_eq, hbefore.equipment_eq, hxlen]
  isRegion := hbefore.isRegion.stored hkept.stored

theorem use (hdescends : Descends config simulation) (action : Use) :
    Descends config (simulation.use action) := by
  have hdebugger : simulation.hart.debugger = none :=
    congrArg Equipment.debugger hdescends.equipment_eq
  cases action with
  | run count => exact hdescends.kept (.run hdebugger count)
  | runToLimit => exact hdescends.kept (.run hdebugger _)
  | runTest count => exact hdescends.kept (.runTest hdebugger count)
  | setXlen xlen =>
      obtain ⟨hequipment, hmemory⟩ := Hart.equipment_setXlen hdescends.equipment_eq xlen
      exact ⟨hdescends.config_eq, hequipment, hmemory ▸ hdescends.isRegion⟩

theorem useAll (hdescends : Descends config simulation) (uses : List Use) :
    Descends config (simulation.useAll uses) := by
  induction uses generalizing simulation with
  | nil => exact hdescends
  | cons action rest ih => exact ih (hdescends.use action)

end Descends

/-! ### Starts and resets -/

/-- A new simulation on this memory, before the image and the mailboxes. -/
def blank (instructions : InstructionSet) (config : SimulationConfig) (xlen : Xlen)
    (memory : MemoryMap) : Simulation where
  hart := .initial instructions memory (.identity .empty) xlen config.entry
  config := config
  executed := 0

section Blank

variable (instructions : InstructionSet) (config : SimulationConfig) (xlen : Xlen)
  (memory other first second : MemoryMap)

theorem equipment_blank :
    ((blank instructions config xlen memory).withMemory first).hart.equipment =
      Hart.plainEquipment instructions xlen :=
  rfl

theorem blank_withMemory_eq : (blank instructions config xlen memory).withMemory second =
    ⟨((blank instructions { config with xlen := xlen } xlen other).withMemory first).hart.withMemory
      second, config, 0⟩ :=
  rfl

end Blank

theorem start_eq (config : SimulationConfig) : start config =
    (blank .standard config config.xlen
      (.withRegion config.memoryBase config.memorySize)).loadConfiguredImage >>= fun loaded =>
        .ok loaded.clearMailboxes :=
  rfl

/-- If one start succeeds, so does one of any width on any memory in the same place. -/
theorem exists_loadConfiguredImage (hstart : start config = .ok started) (xlen : Xlen)
    {memory : MemoryMap} (hregion : memory.IsRegion config.memoryBase config.memorySize) :
    ∃ loaded, (blank .standard config xlen memory).loadConfiguredImage = .ok loaded := by
  rw [start_eq] at hstart
  obtain ⟨loaded, hload, -⟩ := exists_ok_of_bind hstart
  exact exists_loadConfiguredImage_of_isRegion hload (MemoryMap.isRegion_withRegion _ _) hregion rfl
    rfl

theorem exists_start (hstart : start config = .ok started) (xlen : Xlen) :
    let zeroed := MemoryMap.withRegion config.memoryBase config.memorySize
    ∃ memory, start { config with xlen := xlen } =
        .ok ((blank .standard { config with xlen := xlen } xlen zeroed).withMemory memory) ∧
      config.Prepares zeroed memory := by
  intro zeroed
  have hregion := MemoryMap.isRegion_withRegion config.memoryBase config.memorySize
  obtain ⟨loaded, hload⟩ : ∃ loaded,
      (blank .standard { config with xlen := xlen } xlen zeroed).loadConfiguredImage = .ok loaded := by
    obtain ⟨loaded, hload⟩ := exists_loadConfiguredImage hstart xlen hregion
    exact exists_loadConfiguredImage_of_isRegion hload hregion hregion rfl rfl
  obtain ⟨memory, hcleared, hprepares⟩ := prepares_of_loadConfiguredImage hregion rfl hload
  refine ⟨memory, ?_, ⟨hprepares.isRegion, hprepares.byte?_eq⟩⟩
  rw [start_eq, hload, ← hcleared]
  rfl

theorem Descends.of_start (hstart : start config = .ok started) : Descends config started := by
  obtain ⟨memory, hmemory, hprepares⟩ := exists_start hstart config.xlen
  rw [show start { config with xlen := config.xlen } = .ok started from hstart] at hmemory
  cases hmemory
  exact ⟨rfl, equipment_blank _ _ _ _ _, hprepares.isRegion⟩

theorem Descends.exists_reset (hdescends : Descends config simulation)
    (hstart : start config = .ok started) :
    ∃ memory, simulation.reset = (.ok (), (blank .standard config simulation.hart.xlen
        simulation.hart.memory).withMemory memory) ∧
      config.Prepares simulation.hart.memory memory := by
  obtain ⟨loaded, hload⟩ :=
    exists_loadConfiguredImage hstart simulation.hart.xlen hdescends.isRegion
  obtain ⟨memory, hcleared, hprepares⟩ :=
    prepares_of_loadConfiguredImage hdescends.isRegion rfl hload
  refine ⟨memory, ?_, hprepares⟩
  have hblank : { simulation with
        hart := simulation.hart.reset true simulation.config.entry, executed := 0 } =
      blank .standard config simulation.hart.xlen simulation.hart.memory := by
    rw [Hart.reset_eq_initial hdescends.equipment_eq, hdescends.config_eq, blank]
  rw [reset, hblank, ← hcleared]
  simp only [hload]

theorem run_of_sameBytes {first second : Simulation} (hsame : first.hart.SameBytes second.hart)
    (count : Nat) : (second.run count).1 = (first.run count).1 ∧
      (first.run count).2.hart.SameBytes (second.run count).2.hart :=
  Hart.indistinguishable_sameBytes.step hsame count

/-- After whatever history a reset succeeds and leaves a new simulation of the last width, apart from
the memory outside the image and the mailboxes. It runs as a new one does whose memory holds the
same there. -/
theorem reset_restarts (hstart : start config = .ok started) (uses : List Use) :
    let used := started.useAll uses
    ∃ again fresh, used.reset = (.ok (), again) ∧
      start { config with xlen := used.hart.xlen } = .ok fresh ∧
      again = ⟨fresh.hart.withMemory again.hart.memory, config, 0⟩ ∧
      config.Prepares (.withRegion config.memoryBase config.memorySize) fresh.hart.memory ∧
      config.Prepares used.hart.memory again.hart.memory ∧
      ∀ memory, config.Prepares used.hart.memory memory → ∀ count,
        (again.run count).1 = ((fresh.withMemory memory).run count).1 ∧
          ((fresh.withMemory memory).run count).2.hart.SameBytes (again.run count).2.hart := by
  intro used
  have hdescends : Descends config used := (Descends.of_start hstart).useAll uses
  obtain ⟨left, hreset, hleft⟩ := hdescends.exists_reset hstart
  obtain ⟨new, hfresh, hnew⟩ := exists_start hstart used.hart.xlen
  rw [blank_withMemory_eq .standard config used.hart.xlen used.hart.memory
    (.withRegion config.memoryBase config.memorySize) new left] at hreset
  refine ⟨_, _, hreset, hfresh, rfl, hnew, hleft, fun memory hmemory count => ?_⟩
  have hsame : memory.SameBytes left := hmemory.isRegion.sameBytes hleft.isRegion fun address =>
    (hleft.byte?_eq address).trans (hmemory.byte?_eq address).symm
  exact run_of_sameBytes (Hart.sameBytes_withMemory hsame _) count

/-- Memory of this size with a program at its start. -/
def imaged (base : Word) (size : Nat) (program : List Word) : SimulationConfig :=
  let bytes := program.flatMap fun instruction => bytesOf 4 instruction.toNat
  (SimulationConfig.default.withMemory base size).withImage ⟨"program", .ok bytes⟩ base

def launched (config : SimulationConfig) : Simulation :=
  (start config).toOption.getD
    (blank .standard config config.xlen (.withRegion config.memoryBase config.memorySize))

theorem start_eq_launched (hstart : (start config).isOk = true) :
    start config = .ok (launched config) := by
  rw [launched]
  cases hresult : start config with
  | error error =>
      rw [hresult] at hstart
      cases hstart
  | ok started => rfl

/-- `sw x0, 0(x0)` clears itself, and is there again after a reset. -/
theorem reset_restarts_clearedImage :
    let config := imaged 0 8 [0x00002023]
    ∃ started again fresh, start config = .ok started ∧
      (started.useAll [.run 1, .setXlen .x32]).reset = (.ok (), again) ∧
      start { config with xlen := .x32 } = .ok fresh ∧
      ∀ count, (again.run count).1 = (fresh.run count).1 := by
  intro config
  have hstart : start config = .ok (launched config) := start_eq_launched (by decide +kernel)
  have hxlen : ((launched config).useAll [.run 1, .setXlen .x32]).hart.xlen = .x32 :=
    Hart.xlen_setXlen _ _
  have hcleared : ((launched config).useAll [.run 1, .setXlen .x32]).hart.memory.readBytes 0 8 =
      (MemoryMap.withRegion 0 8).readBytes 0 8 := by
    decide +kernel
  have hdescends := (Descends.of_start hstart).useAll [.run 1, .setXlen .x32]
  have hbytes := (MemoryMap.isRegion_withRegion 0 8).byte?_eq_of_readBytes hdescends.isRegion hcleared
  obtain ⟨again, fresh, hreset, hfresh, -, hnew, -, hrun⟩ :=
    reset_restarts hstart [.run 1, .setXlen .x32]
  rw [hxlen] at hfresh
  -- the run has left zeros only, so a start makes of them what it makes of a new memory
  have hprepares : config.Prepares
      ((launched config).useAll [.run 1, .setXlen .x32]).hart.memory fresh.hart.memory :=
    ⟨hnew.isRegion, fun address => by rw [hbytes]; exact hnew.byte?_eq address⟩
  exact ⟨_, again, fresh, hstart, hreset, hfresh, fun count => (hrun _ hprepares count).1⟩

/-- A program that counts its runs goes on counting, and a width that was set stays. -/
theorem reset_keepsCount_and_width :
    let counting := imaged 0 0x20 [0x01002083, 0x00108093, 0x00102823]
    let upper := imaged 0x100000000 0x20 []
    (start counting = .ok (launched counting) ∧
      ((launched counting).useAll [.run 3]).reset.1 = .ok () ∧
      ((launched counting).run 3).2.hart.readRegister 1 = 1 ∧
      (((launched counting).useAll [.run 3]).reset.2.run 3).2.hart.readRegister 1 = 2) ∧
    (start upper = .ok (launched upper) ∧
      ((launched upper).useAll [.setXlen .x32]).reset.1 = .ok () ∧
      ((launched upper).run 0).2.hart.pc = 0x100000000 ∧
      (((launched upper).useAll [.setXlen .x32]).reset.2.run 0).2.hart.pc = 0) := by
  intro counting upper
  exact ⟨⟨start_eq_launched (by decide +kernel), by decide +kernel⟩,
    start_eq_launched (by decide +kernel), by decide +kernel⟩

end Simulation

end RiscvMachine
