import RiscvMachine.Proofs.Containment
import RiscvMachine.Proofs.Runs
import RiscvMachine.Proofs.Width
/-!
The form of the state that every operation keeps, whatever the instruction set: registers and
program counter fit the register width, the status has writable bits alone, and the identification
registers are zero.
-/

namespace RiscvMachine

namespace RegisterFile

/-- The registers other than x0 are in the form of the width. -/
def Normal (xlen : Xlen) (file : RegisterFile 32) : Prop :=
  ∀ index, 0 < index → index < 32 → xlen.normalize (file.read index) = file.read index

theorem normal_zero (xlen : Xlen) : Normal xlen (.zero 32) := by
  intro index _ _
  rw [zero_read, Xlen.normalize_zero]

theorem Normal.write {xlen : Xlen} {file : RegisterFile 32} (hnormal : Normal xlen file)
    (index : Nat) (value : Word) : Normal xlen (file.write index (xlen.normalize value)) := by
  intro other hpos hlt
  rw [read_write]
  split
  · exact xlen.normalize_normalize value
  · exact hnormal other hpos hlt

/-- A pass over some registers leaves those in form that it has visited or that were before. -/
theorem normalize_read_foldl (xlen : Xlen) {indices : List Nat} {file : RegisterFile 32}
    {other : Nat} (hpos : 0 < other)
    (hnormal : other ∈ indices ∨ xlen.normalize (file.read other) = file.read other) :
    let visited := indices.foldl
      (fun file index => file.write index (xlen.normalize (file.read index))) file
    xlen.normalize (visited.read other) = visited.read other := by
  induction indices generalizing file with
  | nil => simpa using hnormal
  | cons index rest ih =>
      apply ih
      rw [read_write]
      split
      · exact .inr (xlen.normalize_normalize _)
      · rename_i hother
        rcases hnormal with hmem | hform
        · have hne : other ≠ index := by
            rintro rfl
            exact hother ⟨Nat.ne_of_gt hpos, Nat.ne_of_gt hpos, rfl⟩
          exact .inl (List.mem_of_ne_of_mem hne hmem)
        · exact .inr hform

end RegisterFile

namespace CsrBank

/-- What holds of the stored registers after every write. -/
structure Canonical (bank : CsrBank) : Prop where
  status : bank.read Csr.machineStatus &&& ~~~MachineStatus.writableMask = 0
  identification : ∀ address, Csr.role address = .identification → bank.read address = 0

variable {bank : CsrBank}

theorem read_reset (address : CsrAddress) : reset.read address = 0 := by
  have hfold : ∀ (registers : List (CsrAddress × String)) (bank : CsrBank),
      bank.read address = 0 →
        read ⟨registers.foldl (fun table register => table.insert register.1 0) bank.table⟩
          address = 0 := by
    intro registers
    induction registers with
    | nil => exact fun _ hzero => hzero
    | cons register rest ih =>
        intro bank hzero
        refine ih (bank.write register.1 0) ?_
        rw [read_write]
        split
        · rfl
        · exact hzero
  exact hfold Csr.registered ⟨∅⟩ Std.TreeMap.getD_emptyc

theorem canonical_reset : reset.Canonical where
  status := by
    rw [read_reset]
    exact BitVec.zero_and
  identification := fun address _ => read_reset address

/-- A register that is neither the status nor an identification may hold anything. -/
theorem Canonical.write (hcanonical : bank.Canonical) {address : CsrAddress}
    (hstatus : Csr.role address ≠ .machineStatus)
    (hidentification : Csr.role address ≠ .identification) (value : Word) :
    (bank.write address value).Canonical where
  status := by
    have hne : address ≠ Csr.machineStatus := by
      rintro rfl
      exact hstatus rfl
    rw [read_write, if_neg hne]
    exact hcanonical.status
  identification := by
    intro other hrole
    have hne : address ≠ other := by
      rintro rfl
      exact hidentification hrole
    rw [read_write, if_neg hne]
    exact hcanonical.identification other hrole

theorem Canonical.writeStatus (hcanonical : bank.Canonical) {status : Word}
    (hstatus : status &&& ~~~MachineStatus.writableMask = 0) :
    (bank.write Csr.machineStatus status).Canonical where
  status := by rwa [read_write, if_pos rfl]
  identification := by
    intro other hrole
    have hne : Csr.machineStatus ≠ other := by
      rintro rfl
      cases hrole
    rw [read_write, if_neg hne]
    exact hcanonical.identification other hrole

end CsrBank

namespace MachineStatus

/-- A status that differs from a writable one in writable bits alone is writable as well. -/
theorem and_not_writableMask_eq_zero {mask before after : Word}
    (hmask : ~~~mask &&& ~~~writableMask = ~~~writableMask)
    (hagree : after &&& ~~~mask = before &&& ~~~mask) (hbefore : before &&& ~~~writableMask = 0) :
    after &&& ~~~writableMask = 0 :=
  calc
    after &&& ~~~writableMask = after &&& ~~~mask &&& ~~~writableMask := by
      rw [BitVec.and_assoc, hmask]
    _ = before &&& ~~~mask &&& ~~~writableMask := by rw [hagree]
    _ = before &&& ~~~writableMask := by rw [BitVec.and_assoc, hmask]
    _ = 0 := hbefore

theorem replace_and_not_writableMask {mask old value : Word}
    (hmask : ~~~mask &&& ~~~writableMask = ~~~writableMask)
    (hold : old &&& ~~~writableMask = 0) : replace mask old value &&& ~~~writableMask = 0 :=
  and_not_writableMask_eq_zero hmask replace_and_not hold

end MachineStatus

namespace Hart

structure Canonical (hart : Hart) : Prop where
  registers : hart.registers.Normal hart.xlen
  pc : hart.xlen.address hart.pc = hart.pc
  controls : hart.controls.Canonical

variable {hart after : Hart}

theorem canonical_initial (instructions : InstructionSet) (memory : MemoryMap)
    (translation : Translation) (xlen : Xlen) (entry : Word) :
    (initial instructions memory translation xlen entry).Canonical where
  registers := RegisterFile.normal_zero xlen
  pc := xlen.address_address entry
  controls := CsrBank.canonical_reset

theorem Canonical.of_undisturbed (hready : Undisturbed hart after) (hcanonical : hart.Canonical) :
    after.Canonical := by
  obtain ⟨translation, journal, rfl⟩ := hready
  exact { hcanonical with }

theorem Canonical.of_retranslated (hframe : Retranslated hart after) (hcanonical : hart.Canonical) :
    after.Canonical := by
  obtain ⟨translation, rfl⟩ := hframe
  exact { hcanonical with }

theorem Canonical.writeRegister (hcanonical : hart.Canonical) (index : Nat) (value : Word) :
    (hart.writeRegister index value).Canonical :=
  { hcanonical with registers := hcanonical.registers.write index value }

theorem Canonical.setPc (hcanonical : hart.Canonical) (pc : Word) : (hart.setPc pc).Canonical :=
  { hcanonical with pc := hart.xlen.address_address pc }

theorem Canonical.updateStatus (hcanonical : hart.Canonical) {mask : Word}
    (hmask : ~~~mask &&& ~~~MachineStatus.writableMask = ~~~MachineStatus.writableMask)
    (value : Word) : (hart.updateStatus mask value).Canonical :=
  { hcanonical with
    controls := hcanonical.controls.writeStatus
      (MachineStatus.replace_and_not_writableMask hmask hcanonical.controls.status) }

theorem Canonical.setCsr (hcanonical : hart.Canonical) (address : CsrAddress) (value : Word) :
    (hart.setCsr address value).Canonical := by
  unfold Hart.setCsr
  split
  · exact hcanonical.updateStatus (by decide) value
  · exact hcanonical.updateStatus (by decide) value
  · exact hcanonical
  · exact hcanonical
  · exact hcanonical
  · exact { hcanonical with }
  · rename_i hrole
    have hwritten : (hart.controls.write address value).Canonical :=
      hcanonical.controls.write (by simp [hrole]) (by simp [hrole]) value
    exact { hcanonical with controls := hwritten }
  · rename_i hrole
    have hwritten : (hart.controls.write address value).Canonical :=
      hcanonical.controls.write (by simp [hrole]) (by simp [hrole]) value
    exact { hcanonical with controls := hwritten }

theorem Canonical.setXlen (hcanonical : hart.Canonical) (xlen : Xlen) :
    (hart.setXlen xlen).Canonical := by
  rw [Hart.setXlen]
  split
  · exact hcanonical
  · refine ⟨?_, xlen.address_address hart.pc, hcanonical.controls⟩
    intro index hpos hlt
    refine RegisterFile.normalize_read_foldl xlen hpos (.inl ?_)
    rw [List.mem_range'_1]
    omega

theorem Canonical.reset (hcanonical : hart.Canonical) (hard : Bool) (pc : Word) :
    (hart.reset hard pc).Canonical := by
  rw [Hart.reset]
  cases hard with
  | false => exact { hcanonical with pc := hart.xlen.address_address pc }
  | true =>
      exact ⟨RegisterFile.normal_zero hart.xlen, hart.xlen.address_address pc,
        CsrBank.canonical_reset⟩

/-- A trap writes no status bits but those of its mode, which are writable ones. -/
theorem Canonical.of_takes {target : TrapTarget} {exception : Exception}
    (htarget : target ∈ [TrapTarget.supervisor, .machine])
    (htakes : target.Takes exception hart after) (hcanonical : hart.Canonical) :
    after.Canonical where
  registers := by
    rw [htakes.registers, htakes.xlen]
    exact hcanonical.registers
  pc := by rw [htakes.xlen, htakes.pc, Xlen.address_address]
  controls := by
    simp only [List.mem_cons, List.not_mem_nil, or_false] at htarget
    constructor
    · refine MachineStatus.and_not_writableMask_eq_zero ?_ htakes.status.others
        hcanonical.controls.status
      rcases htarget with rfl | rfl <;> decide
    · intro address hrole
      refine (htakes.others address fun hmem => ?_).1.trans
        (hcanonical.controls.identification address hrole)
      simp only [List.mem_cons, List.not_mem_nil, or_false] at hmem
      rcases htarget with rfl | rfl <;> rcases hmem with rfl | rfl | rfl | rfl <;> cases hrole

theorem Canonical.enterTrap (hcanonical : hart.Canonical) (cause : TrapCause) (value : Word) :
    (hart.enterTrap cause value).Canonical := by
  refine hcanonical.of_takes ?_ (takes_enterTrap hart ⟨cause, value⟩)
  rw [trapTarget]
  split <;> simp

/-! ### Execution -/

theorem canonical_of_effect {operands : Operands} {operation : Operation} {flow : Flow}
    (hcanonical : hart.Canonical) (heffect : Effect hart operands operation flow after) :
    after.Canonical := by
  have retranslated (translation : Translation) :
      ({ hart with translation := translation } : Hart).Canonical := { hcanonical with }
  cases heffect with
  | compute hcompute value => exact hcanonical.writeRegister _ value
  | load translation value => exact (retranslated translation).writeRegister _ value
  | store translation memory => exact { hcanonical with }
  | branch hholds => exact hcanonical.setPc _
  | stay hholds => exact hcanonical
  | jump => exact (hcanonical.writeRegister _ _).setPc _
  | jumpRegister => exact (hcanonical.writeRegister _ _).setPc _
  | call => exact hcanonical
  | readCsr haccess hread old => exact hcanonical.writeRegister _ old
  | writeCsr haccess hwrite value old => exact (hcanonical.setCsr _ value).writeRegister _ old
  | machineReturn hmachine =>
      have hstatus : (hart.updateStatus MachineStatus.writableMask
          (machineReturnStatus (hart.csr Csr.machineStatus))).Canonical :=
        hcanonical.updateStatus (by decide) _
      exact { hstatus with pc := hart.xlen.address_address _ }
  | supervisorReturn hallowed =>
      have hstatus : (hart.updateStatus MachineStatus.writableMask
          (supervisorReturnStatus (hart.csr Csr.machineStatus))).Canonical :=
        hcanonical.updateStatus (by decide) _
      exact { hstatus with pc := hart.xlen.address_address _ }
  | wait => exact { hcanonical with }
  | fence => exact { hcanonical with }

theorem effect_xlen {operands : Operands} {operation : Operation} {flow : Flow}
    (heffect : Effect hart operands operation flow after) : after.xlen = hart.xlen := by
  cases heffect
  case writeCsr haccess hwrite value old =>
    rw [writeRegister, setCsr]
    split <;> rfl
  all_goals rfl

/-- After a trap, execution goes on at an address of the width as well. -/
theorem canonical_perform {raw : Encoding} {completion : Completion}
    (hcanonical : hart.Canonical) (hperform : hart.perform raw = (completion, after)) :
    after.Canonical ∧ ∀ exception pc, completion = .trapped exception (some pc) →
      after.xlen.address pc = pc := by
  rw [perform] at hperform
  split at hperform
  · cases hperform
    exact ⟨{ hcanonical with }, fun _ _ hcompletion => by cases hcompletion⟩
  · cases hperform
    exact ⟨{ hcanonical with pc := hart.xlen.address_address _ },
      fun _ _ hcompletion => by cases hcompletion⟩
  · rename_i binding operands hdispatch
    split at hperform
    · rename_i hexecute
      cases hperform
      obtain ⟨⟨translation, rfl⟩, -⟩ := execute_eq_error hexecute
      exact ⟨{ hcanonical with }, fun _ _ hcompletion => by cases hcompletion⟩
    · rename_i hexecute
      cases hperform
      obtain ⟨-, rfl⟩ := effect_call (execute_eq_ok hexecute)
      refine ⟨hcanonical, fun exception pc hcompletion => ?_⟩
      injection hcompletion with _ hresume
      split at hresume <;> cases hresume
      exact Xlen.address_address _ _
    · rename_i flow ended _ hexecute
      cases hperform
      have heffect := execute_eq_ok hexecute
      have hended := canonical_of_effect hcanonical heffect
      refine ⟨?_, fun _ _ hcompletion => by cases hcompletion⟩
      split
      · refine { hended with pc := ?_ }
        rw [effect_xlen heffect]
        exact hart.xlen.address_address _
      · exact hended

theorem canonical_attempt {completion : Completion} (hcanonical : hart.Canonical)
    (hattempt : hart.attempt = (completion, after)) :
    after.Canonical ∧ ∀ exception pc, completion = .trapped exception (some pc) →
      after.xlen.address pc = pc := by
  rw [attempt] at hattempt
  split at hattempt
  · rename_i hfetch
    cases hattempt
    exact ⟨hcanonical.of_retranslated (fetch_spec hfetch).1,
      fun _ _ hcompletion => by cases hcompletion⟩
  · rename_i raw fetched hfetch
    have hready := (hcanonical.of_retranslated (fetch_spec hfetch).1).of_undisturbed
      (undisturbed_recordInstruction fetched raw)
    exact canonical_perform hready hattempt

theorem Canonical.executeNext (hcanonical : hart.Canonical) : hart.executeNext.Canonical := by
  rw [Hart.executeNext]
  split
  · rename_i hattempt
    exact (canonical_attempt hcanonical hattempt).1
  · rename_i exception resume ended hattempt
    obtain ⟨hended, hresume⟩ := canonical_attempt hcanonical hattempt
    have hentered := hended.enterTrap exception.cause exception.value
    cases resume with
    | none => exact hentered
    | some pc =>
        refine { hentered with pc := ?_ }
        rw [(takes_enterTrap ended exception).xlen]
        exact hresume exception pc rfl

theorem canonical_checkBreakpoint {stops : Bool} (hcanonical : hart.Canonical)
    (hcheck : hart.checkBreakpoint = (stops, after)) : after.Canonical := by
  rw [checkBreakpoint] at hcheck
  split at hcheck <;> cases hcheck
  · exact hcanonical
  · exact { hcanonical with }

theorem canonical_advance {stop : Option StopReason} (hcanonical : hart.Canonical)
    (hadvance : hart.advance = (stop, after)) : after.Canonical := by
  rw [advance] at hadvance
  split at hadvance
  · cases hadvance
    exact hcanonical
  · split at hadvance <;> cases hadvance <;> rename_i hcheck
    · exact { canonical_checkBreakpoint hcanonical hcheck with }
    · exact { (canonical_checkBreakpoint hcanonical hcheck).executeNext with }

theorem canonical_step (count : Nat) (hcanonical : hart.Canonical) :
    (hart.step count).2.Canonical :=
  step_induction Canonical (fun _ hcanonical => canonical_advance hcanonical rfl) hcanonical count

/-! ### The environment of a hart -/

/-- What the environment can do to a hart. -/
inductive Action where
  | step (count : Nat)
  | setXlen (xlen : Xlen)
  | writeRegister (index : Nat) (value : Word)
  | setPc (pc : Word)
  | setPrivilege (privilege : Privilege)
  | setCsr (address : CsrAddress) (value : Word)
  /-- With a check of privilege; a write that is refused does nothing. -/
  | writeCsr (address : CsrAddress) (value : Word)
  | load (address : Word) (size : AccessSize)
  | store (address value : Word) (size : AccessSize)
  | enterTrap (cause : TrapCause) (value : Word)
  | reset (hard : Bool) (pc : Word)
  | wake
  | invalidate
  | mapPage (virtual physical : Word)
  | unmapPage (virtual : Word)
  | editMemory (edit : MemoryMap → MemoryMap)
  | enableDebugger
  | disableDebugger
  | editDebugger (edit : Debugger → Debugger)
  | startJournal

def act (hart : Hart) : Action → Hart
  | .step count => (hart.step count).2
  | .setXlen xlen => hart.setXlen xlen
  | .writeRegister index value => hart.writeRegister index value
  | .setPc pc => hart.setPc pc
  | .setPrivilege privilege => hart.setPrivilege privilege
  | .setCsr address value => hart.setCsr address value
  | .writeCsr address value =>
      match hart.writeCsr address value with
      | .ok after => after
      | .error _ => hart
  | .load address size => (hart.load address size).2
  | .store address value size => (hart.store address value size).2
  | .enterTrap cause value => hart.enterTrap cause value
  | .reset hard pc => hart.reset hard pc
  | .wake => hart.wake
  | .invalidate => hart.invalidate
  | .mapPage virtual physical => hart.mapPage virtual physical
  | .unmapPage virtual => hart.unmapPage virtual
  | .editMemory edit => { hart with memory := edit hart.memory }
  | .enableDebugger => hart.enableDebugger
  | .disableDebugger => hart.disableDebugger
  | .editDebugger edit => { hart with debugger := hart.debugger.map edit }
  | .startJournal => hart.startJournal

def run (hart : Hart) (actions : List Action) : Hart :=
  actions.foldl act hart

/-- What each of some actions keeps, all of them keep. -/
theorem run_induction (property : Hart → Prop) {actions : List Action}
    (hact : ∀ action ∈ actions, ∀ hart, property hart → property (hart.act action))
    (hproperty : property hart) : property (hart.run actions) := by
  induction actions generalizing hart with
  | nil => exact hproperty
  | cons action rest ih =>
      obtain ⟨hfirst, hrest⟩ := List.forall_mem_cons.mp hact
      exact ih hrest (hfirst hart hproperty)

theorem Canonical.act (hcanonical : hart.Canonical) (action : Action) :
    (hart.act action).Canonical := by
  cases action with
  | step count => exact canonical_step count hcanonical
  | setXlen xlen => exact hcanonical.setXlen xlen
  | writeRegister index value => exact hcanonical.writeRegister index value
  | setPc pc => exact hcanonical.setPc pc
  | setPrivilege privilege => exact { hcanonical with }
  | setCsr address value => exact hcanonical.setCsr address value
  | writeCsr address value =>
      rw [Hart.act]
      split
      · rename_i written hwrite
        rw [(writeCsr_eq_ok hwrite).2]
        exact hcanonical.setCsr address value
      · exact hcanonical
  | load address size => exact hcanonical.of_retranslated (hart.retranslated_load address size)
  | store address value size =>
      obtain ⟨translation, memory, hframe⟩ := hart.store_frame address value size
      rw [Hart.act, hframe]
      exact { hcanonical with }
  | enterTrap cause value => exact hcanonical.enterTrap cause value
  | reset hard pc => exact hcanonical.reset hard pc
  | wake => exact { hcanonical with }
  | invalidate => exact { hcanonical with }
  | mapPage virtual physical => exact { hcanonical with }
  | unmapPage virtual => exact { hcanonical with }
  | editMemory edit => exact { hcanonical with }
  | enableDebugger => exact { hcanonical with }
  | disableDebugger => exact { hcanonical with }
  | editDebugger edit => exact { hcanonical with }
  | startJournal => exact { hcanonical with }

theorem Canonical.run (hcanonical : hart.Canonical) (actions : List Action) :
    (hart.run actions).Canonical :=
  run_induction Canonical (fun action _ _ hcanonical => hcanonical.act action) hcanonical

theorem Canonical.readRegister_eq (hcanonical : hart.Canonical) (hxlen : hart.xlen = .x32)
    {index : Nat} (hpos : 0 < index) (hlt : index < 32) :
    hart.readRegister index = signExtendLow (hart.readRegister index) := by
  have hnormal := hcanonical.registers index hpos hlt
  rw [hxlen] at hnormal
  exact hnormal.symm

theorem toNat_zeroExtendLow_lt (value : Word) : (zeroExtendLow value).toNat < 2 ^ 32 := by
  rw [zeroExtendLow, BitVec.toNat_setWidth]
  exact Nat.lt_of_le_of_lt (Nat.mod_le _ _) (value.setWidth 32).isLt

theorem Canonical.toNat_pc_lt (hcanonical : hart.Canonical) (hxlen : hart.xlen = .x32) :
    hart.pc.toNat < 2 ^ 32 := by
  have hpc := hcanonical.pc
  rw [hxlen] at hpc
  rw [← hpc]
  exact toNat_zeroExtendLow_lt hart.pc

theorem Canonical.csr_identification (hcanonical : hart.Canonical) {address : CsrAddress}
    (hrole : Csr.role address = .identification) : hart.csr address = 0 := by
  rw [csr, hrole]
  dsimp only
  rw [hcanonical.controls.identification address hrole, Xlen.address_zero]

/-- What the environment of a hart can rely on, whatever it and the program have done so far. -/
theorem run_initial_invariant (instructions : InstructionSet) (memory : MemoryMap)
    (translation : Translation) (xlen : Xlen) (entry : Word) (actions : List Action) :
    let hart := (initial instructions memory translation xlen entry).run actions
    hart.readRegister 0 = 0 ∧
    (hart.xlen = .x32 →
      (∀ index ∈ List.range' 1 31,
        hart.readRegister index = signExtendLow (hart.readRegister index)) ∧
      hart.pc.toNat < 2 ^ 32) ∧
    hart.controls.read Csr.machineStatus &&& ~~~MachineStatus.writableMask = 0 ∧
    ∀ address ∈ [Csr.vendorId, Csr.architectureId, Csr.implementationId, Csr.hartId],
      hart.controls.read address = 0 ∧ hart.csr address = 0 := by
  intro hart
  have hcanonical : hart.Canonical :=
    (canonical_initial instructions memory translation xlen entry).run actions
  refine ⟨rfl, fun hxlen => ⟨fun index hmem => ?_, hcanonical.toNat_pc_lt hxlen⟩,
    hcanonical.controls.status, fun address hmem => ?_⟩
  · rw [List.mem_range'_1] at hmem
    exact hcanonical.readRegister_eq hxlen (by omega) (by omega)
  · have hrole : Csr.role address = .identification := by
      simp only [List.mem_cons, List.not_mem_nil, or_false] at hmem
      rcases hmem with rfl | rfl | rfl | rfl <;> rfl
    exact ⟨hcanonical.controls.identification address hrole,
      hcanonical.csr_identification hrole⟩

end Hart

end RiscvMachine
