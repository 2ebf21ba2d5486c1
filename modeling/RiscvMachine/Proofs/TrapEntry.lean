import RiscvMachine.Proofs.Status
import RiscvMachine.Proofs.Step
/-!
Taking a trap. Supervisor and machine mode have control registers and status fields of their own for
it; what a trap saves and where it leads is the same for both up to that choice.
-/

namespace RiscvMachine

/-- A stored register is the same in both banks, or missing from both. -/
def CsrBank.Keeps (before after : CsrBank) (address : CsrAddress) : Prop :=
  after.read address = before.read address ∧ after.contains address = before.contains address

/-- The control registers and the status fields of a mode that takes traps. -/
structure TrapTarget where
  privilege : Privilege
  exceptionPc : CsrAddress
  cause : CsrAddress
  value : CsrAddress
  vector : CsrAddress
  enable : Word
  previousEnable : Word
  previousPrivilege : Word
  /-- The code of the mode that the status holds as the previous one. -/
  previous : Word → Word
  addresses_nodup : [exceptionPc, cause, value, Csr.machineStatus, vector].Nodup := by decide

namespace TrapTarget

def supervisor : TrapTarget where
  privilege := .supervisor
  exceptionPc := Csr.supervisorExceptionPc
  cause := Csr.supervisorCause
  value := Csr.supervisorTrapValue
  vector := Csr.supervisorVector
  enable := MachineStatus.supervisorEnable
  previousEnable := MachineStatus.supervisorPreviousEnable
  previousPrivilege := MachineStatus.supervisorPreviousPrivilege
  previous := MachineStatus.supervisorPrevious

def machine : TrapTarget where
  privilege := .machine
  exceptionPc := Csr.machineExceptionPc
  cause := Csr.machineCause
  value := Csr.machineTrapValue
  vector := Csr.machineVector
  enable := MachineStatus.machineEnable
  previousEnable := MachineStatus.machinePreviousEnable
  previousPrivilege := MachineStatus.machinePreviousPrivilege
  previous := MachineStatus.machinePrevious

def statusMask (target : TrapTarget) : Word :=
  target.enable ||| target.previousEnable ||| target.previousPrivilege

structure EntersStatus (target : TrapTarget) (privilege : Privilege) (before after : Word) :
    Prop where
  enable : MachineStatus.has after target.enable = false
  previousEnable :
    MachineStatus.has after target.previousEnable = MachineStatus.has before target.enable
  previous : target.previous after = BitVec.ofNat 64 privilege.code
  others : after &&& ~~~target.statusMask = before &&& ~~~target.statusMask

/-- The registers that a trap writes, one after the other. -/
def save (target : TrapTarget) (bank : CsrBank) (pc code value status : Word) : CsrBank :=
  (((bank.write target.exceptionPc pc).write target.cause code).write target.value value).write
    Csr.machineStatus status

theorem read_save (target : TrapTarget) (bank : CsrBank) (pc code value status : Word) :
    let saved := target.save bank pc code value status
    saved.read target.exceptionPc = pc ∧ saved.read target.cause = code ∧
      saved.read target.value = value ∧ saved.read Csr.machineStatus = status := by
  have hnodup := target.addresses_nodup
  simp only [List.nodup_cons, List.mem_cons, List.not_mem_nil, or_false, not_or] at hnodup
  obtain ⟨⟨hcause, hvalue, hstatus, -⟩, ⟨hcauseValue, hcauseStatus, -⟩, ⟨hvalueStatus, -⟩, -⟩ :=
    hnodup
  simp only [save, CsrBank.read_write, if_true, if_neg (Ne.symm hcause), if_neg (Ne.symm hvalue),
    if_neg (Ne.symm hstatus), if_neg (Ne.symm hcauseValue), if_neg (Ne.symm hcauseStatus),
    if_neg (Ne.symm hvalueStatus), and_self]

/-- The four saved registers are all that a trap touches. -/
theorem save_of_not_mem {target : TrapTarget} {address : CsrAddress}
    (hother : address ∉ [target.exceptionPc, target.cause, target.value, Csr.machineStatus])
    (bank : CsrBank) (pc code value status : Word) :
    bank.Keeps (target.save bank pc code value status) address := by
  simp only [List.mem_cons, List.not_mem_nil, or_false, not_or] at hother
  obtain ⟨hpc, hcause, hvalue, hstatus⟩ := hother
  constructor
  · simp only [save, CsrBank.read_write, if_neg (Ne.symm hpc), if_neg (Ne.symm hcause),
      if_neg (Ne.symm hvalue), if_neg (Ne.symm hstatus)]
  · simp only [save, CsrBank.contains_write, beq_eq_false_iff_ne.mpr (Ne.symm hpc),
      beq_eq_false_iff_ne.mpr (Ne.symm hcause), beq_eq_false_iff_ne.mpr (Ne.symm hvalue),
      beq_eq_false_iff_ne.mpr (Ne.symm hstatus), Bool.false_or]

theorem read_save_vector (target : TrapTarget) (bank : CsrBank) (pc code value status : Word) :
    (target.save bank pc code value status).read target.vector = bank.read target.vector := by
  refine (save_of_not_mem ?_ bank pc code value status).1
  have hnodup := target.addresses_nodup
  simp only [List.nodup_cons, List.mem_cons, List.not_mem_nil, or_false, not_or] at hnodup ⊢
  obtain ⟨⟨-, -, -, hpc⟩, ⟨-, -, hcause⟩, ⟨-, hvalue⟩, hstatus, -⟩ := hnodup
  exact ⟨Ne.symm hpc, Ne.symm hcause, Ne.symm hvalue, Ne.symm hstatus⟩

/-- The trap saves where and why it was taken and goes on at its vector; all else stays. -/
structure Takes (target : TrapTarget) (exception : Exception) (before after : Hart) : Prop where
  registers : after.registers = before.registers
  memory : after.memory = before.memory
  xlen : after.xlen = before.xlen
  waiting : after.waiting = before.waiting
  cycles : after.cycles = before.cycles
  privilege : after.privilege = target.privilege
  exceptionPc : after.controls.read target.exceptionPc = before.pc
  cause : after.controls.read target.cause = BitVec.ofNat 64 exception.cause.code
  value : after.controls.read target.value = exception.value
  status : target.EntersStatus before.privilege (before.controls.read Csr.machineStatus)
    (after.controls.read Csr.machineStatus)
  others : ∀ address,
    address ∉ [target.exceptionPc, target.cause, target.value, Csr.machineStatus] →
      before.controls.Keeps after.controls address
  pc : after.pc = before.xlen.address (before.controls.read target.vector &&& ~~~3)

end TrapTarget

namespace MachineStatus

/-- The bits outside the previous mode decide all but what that mode is. -/
theorem entersStatus_of_getLsbD {target : TrapTarget} {privilege : Privilege}
    {before after : Word} (enable previousEnable : Nat) (henableLt : enable < 64)
    (hpreviousLt : previousEnable < 64) (hne : previousEnable ≠ enable)
    (henable : target.enable = flag enable)
    (hprevious : target.previousEnable = flag previousEnable)
    (henableMask : target.previousPrivilege.getLsbD enable = false)
    (hpreviousMask : target.previousPrivilege.getLsbD previousEnable = false)
    (hcode : target.previous after = BitVec.ofNat 64 privilege.code)
    (hbit : ∀ bit, target.previousPrivilege.getLsbD bit = false → after.getLsbD bit =
      if bit = enable then false
      else if bit = previousEnable then before.getLsbD enable else before.getLsbD bit) :
    target.EntersStatus privilege before after where
  enable := by rw [henable, has_flag henableLt, hbit enable henableMask, if_pos rfl]
  previousEnable := by
    rw [henable, hprevious, has_flag henableLt, has_flag hpreviousLt,
      hbit previousEnable hpreviousMask, if_neg hne, if_pos rfl]
  previous := hcode
  others := by
    apply and_not_eq_of_getLsbD
    intro bit hmask
    rw [TrapTarget.statusMask, henable, hprevious, BitVec.getLsbD_or, BitVec.getLsbD_or,
      getLsbD_flag henableLt, getLsbD_flag hpreviousLt] at hmask
    simp only [Bool.or_eq_false_iff, decide_eq_false_iff_not] at hmask
    rw [hbit bit hmask.2, if_neg hmask.1.1, if_neg hmask.1.2]

theorem entersStatus_supervisor (status : Word) {privilege : Privilege}
    (hprivilege : privilege ≠ .machine) :
    TrapTarget.supervisor.EntersStatus privilege status
      (withSupervisorPrevious (copyFlag status supervisorEnable supervisorPreviousEnable &&&
        ~~~supervisorEnable) (if privilege = .user then 0 else 1)) := by
  refine entersStatus_of_getLsbD 1 5 (by decide) (by decide) (by decide) rfl rfl rfl rfl ?_ ?_
  · change supervisorPrevious (withSupervisorPrevious _ _) = _
    rw [supervisorPrevious_withSupervisorPrevious]
    cases privilege with
    | user => rfl
    | supervisor => rfl
    | machine => exact absurd rfl hprivilege
  · intro bit hmask
    have hother : bit ≠ 8 := by
      rintro rfl
      cases hmask
    rw [getLsbD_withSupervisorPrevious, if_neg hother, supervisorEnable, supervisorPreviousEnable,
      getLsbD_and_not_flag (by decide), getLsbD_copyFlag (by decide) (by decide)]

theorem entersStatus_machine (status : Word) (privilege : Privilege) :
    TrapTarget.machine.EntersStatus privilege status
      (withMachinePrevious (copyFlag status machineEnable machinePreviousEnable &&&
        ~~~machineEnable) (BitVec.ofNat 64 privilege.code)) := by
  refine entersStatus_of_getLsbD 3 7 (by decide) (by decide) (by decide) rfl rfl rfl rfl ?_ ?_
  · change machinePrevious (withMachinePrevious _ _) = _
    rw [machinePrevious_withMachinePrevious]
    cases privilege <;> rfl
  · intro bit hmask
    have hlow : bit ≠ 11 := by
      rintro rfl
      cases hmask
    have hhigh : bit ≠ 12 := by
      rintro rfl
      cases hmask
    rw [getLsbD_withMachinePrevious, if_neg hlow, if_neg hhigh, machineEnable,
      machinePreviousEnable, getLsbD_and_not_flag (by decide),
      getLsbD_copyFlag (by decide) (by decide)]

end MachineStatus

namespace Hart

/-- The mode that takes a trap: supervisor mode what machine mode leaves to it. -/
def trapTarget (hart : Hart) (cause : TrapCause) : TrapTarget :=
  if hart.privilege ≠ .machine ∧
      (hart.controls.read Csr.machineDelegation).getLsbD cause.code = true then
    .supervisor
  else .machine

variable {hart : Hart}

theorem takes_of_save {target : TrapTarget} {exception : Exception} {status : Word}
    {journal : Option (Array Event)}
    (hstatus : target.EntersStatus hart.privilege (hart.controls.read Csr.machineStatus) status) :
    let saved := target.save hart.controls hart.pc (BitVec.ofNat 64 exception.cause.code)
      exception.value status
    target.Takes exception hart { hart with
      controls := saved
      privilege := target.privilege
      pc := hart.xlen.address (TrapVector.target (saved.read target.vector))
      journal := journal } := by
  obtain ⟨hpc, hcause, hvalue, hsaved⟩ := target.read_save hart.controls hart.pc
    (BitVec.ofNat 64 exception.cause.code) exception.value status
  exact {
    registers := rfl
    memory := rfl
    xlen := rfl
    waiting := rfl
    cycles := rfl
    privilege := rfl
    exceptionPc := hpc
    cause := hcause
    value := hvalue
    status := by rwa [hsaved]
    others := fun address hother => TrapTarget.save_of_not_mem hother _ _ _ _ _
    pc := by rw [TrapTarget.read_save_vector]; rfl }

/-- A trap is taken by the mode that the delegation register selects. -/
theorem takes_enterTrap (hart : Hart) (exception : Exception) :
    (hart.trapTarget exception.cause).Takes exception hart
      (hart.enterTrap exception.cause exception.value) := by
  by_cases hdelegates : hart.delegates exception.cause = true
  · have htarget := hdelegates
    rw [delegates, Bool.and_eq_true, bne_iff_ne] at htarget
    rw [trapTarget, if_pos htarget]
    simp only [enterTrap, if_pos hdelegates]
    exact takes_of_save (MachineStatus.entersStatus_supervisor _ htarget.1)
  · have htarget := hdelegates
    rw [delegates, Bool.and_eq_true, bne_iff_ne] at htarget
    rw [trapTarget, if_neg htarget]
    simp only [enterTrap, if_neg hdelegates]
    exact takes_of_save (MachineStatus.entersStatus_machine _ _)

end Hart

end RiscvMachine
