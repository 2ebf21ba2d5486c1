import RiscvMachine.Proofs.Containment
/-!
Returns from traps. A return undoes what the trap did to program counter, mode and interrupt enable
flag; what it cannot restore is the room that the trap has used, as the previous enable flag, the
previous mode and the saved registers.
-/

namespace RiscvMachine

namespace TrapTarget

/-- The status bits that a trap and the return from it write. -/
def returnMask (target : TrapTarget) : Word :=
  target.statusMask ||| MachineStatus.modifyPrivilege

/-- The bits that are the same after every return to a mode: what the trap has used is free again,
and below machine mode no access is made with the rights of another mode. -/
structure ReturnsStatus (target : TrapTarget) (mode : Privilege) (before after : Word) : Prop where
  previousEnable : MachineStatus.has after target.previousEnable = true
  previous : target.previous after = BitVec.ofNat 64 Privilege.user.code
  modify : MachineStatus.has after MachineStatus.modifyPrivilege =
    (decide (mode = .machine) && MachineStatus.has before MachineStatus.modifyPrivilege)
  others : after &&& ~~~target.returnMask = before &&& ~~~target.returnMask

/-- The status before and after a return alone. -/
structure LeavesStatus (target : TrapTarget) (mode : Privilege) (before after : Word) : Prop
    extends target.ReturnsStatus mode before after where
  enable : MachineStatus.has after target.enable = MachineStatus.has before target.previousEnable

/-- The status before a trap in a mode, and after the return from it. -/
structure RestoresStatus (target : TrapTarget) (mode : Privilege) (before after : Word) : Prop
    extends target.ReturnsStatus mode before after where
  enable : MachineStatus.has after target.enable = MachineStatus.has before target.enable

/-- A return finds the flags where the trap has put them. -/
theorem EntersStatus.restores {target : TrapTarget} {mode : Privilege} {before saved after : Word}
    (hmodify : target.statusMask.getLsbD 17 = false)
    (henters : target.EntersStatus mode before saved)
    (hleaves : target.LeavesStatus mode saved after) :
    target.RestoresStatus mode before after where
  enable := hleaves.enable.trans henters.previousEnable
  previousEnable := hleaves.previousEnable
  previous := hleaves.previous
  modify := by
    rw [hleaves.modify, MachineStatus.modifyPrivilege, MachineStatus.has_flag (by decide),
      MachineStatus.has_flag (by decide),
      MachineStatus.getLsbD_of_and_not_eq henters.others hmodify]
  others := by
    rw [hleaves.others]
    apply MachineStatus.and_not_eq_of_getLsbD
    intro bit hmask
    rw [returnMask, BitVec.getLsbD_or, Bool.or_eq_false_iff] at hmask
    exact MachineStatus.getLsbD_of_and_not_eq henters.others hmask.1

/-- The hart is the first one again, but for recorded events, for the status, and for what the trap
has saved. -/
structure Restores (target : TrapTarget) (before after : Hart) : Prop where
  frame : ∃ event, after = { before.record event with controls := after.controls }
  status : target.RestoresStatus before.privilege (before.controls.read Csr.machineStatus)
    (after.controls.read Csr.machineStatus)
  others : ∀ address,
    address ∉ [target.exceptionPc, target.cause, target.value, Csr.machineStatus] →
      before.controls.Keeps after.controls address

end TrapTarget

namespace MachineStatus

/-- The bits outside the previous mode decide all but what that mode is. -/
theorem leavesStatus_of_getLsbD {target : TrapTarget} {mode : Privilege} {before after : Word}
    (enable previousEnable : Nat) (henableLt : enable < 64) (hpreviousLt : previousEnable < 64)
    (hne : enable ≠ previousEnable) (henableModify : enable ≠ 17)
    (hpreviousModify : previousEnable ≠ 17) (henable : target.enable = flag enable)
    (hprevious : target.previousEnable = flag previousEnable)
    (henableMask : target.previousPrivilege.getLsbD enable = false)
    (hpreviousMask : target.previousPrivilege.getLsbD previousEnable = false)
    (hmodifyMask : target.previousPrivilege.getLsbD 17 = false)
    (hcode : target.previous after = BitVec.ofNat 64 Privilege.user.code)
    (hbit : ∀ bit, target.previousPrivilege.getLsbD bit = false → after.getLsbD bit =
      if bit = 17 then decide (mode = .machine) && before.getLsbD 17
      else if bit = previousEnable then true
      else if bit = enable then before.getLsbD previousEnable else before.getLsbD bit) :
    target.LeavesStatus mode before after where
  enable := by
    rw [henable, hprevious, has_flag henableLt, has_flag hpreviousLt, hbit enable henableMask,
      if_neg henableModify, if_neg hne, if_pos rfl]
  previousEnable := by
    rw [hprevious, has_flag hpreviousLt, hbit previousEnable hpreviousMask, if_neg hpreviousModify,
      if_pos rfl]
  previous := hcode
  modify := by
    rw [modifyPrivilege, has_flag (by decide), has_flag (by decide), hbit 17 hmodifyMask,
      if_pos rfl]
  others := by
    apply and_not_eq_of_getLsbD
    intro bit hmask
    rw [TrapTarget.returnMask, TrapTarget.statusMask, henable, hprevious, modifyPrivilege,
      BitVec.getLsbD_or, BitVec.getLsbD_or, BitVec.getLsbD_or, getLsbD_flag henableLt,
      getLsbD_flag hpreviousLt, getLsbD_flag (by decide)] at hmask
    simp only [Bool.or_eq_false_iff, decide_eq_false_iff_not] at hmask
    obtain ⟨⟨⟨hother, hotherPrevious⟩, hmode⟩, hmodify⟩ := hmask
    rw [hbit bit hmode, if_neg hmodify, if_neg hotherPrevious, if_neg hother]

theorem machinePrevious_eq_zero {status : Word} (hlow : status.getLsbD 11 = false)
    (hhigh : status.getLsbD 12 = false) : machinePrevious status = 0 := by
  apply BitVec.eq_of_getLsbD_eq
  intro bit hbit
  rw [machinePrevious, BitVec.getLsbD_and, BitVec.getLsbD_ushiftRight]
  interval_cases bit
  · simpa using hlow
  · simpa using hhigh
  all_goals simp

theorem supervisorPrevious_eq_zero {status : Word} (hlow : status.getLsbD 8 = false) :
    supervisorPrevious status = 0 := by
  apply BitVec.eq_of_getLsbD_eq
  intro bit hbit
  rw [supervisorPrevious, BitVec.getLsbD_and, BitVec.getLsbD_ushiftRight]
  interval_cases bit
  · simpa using hlow
  all_goals simp

end MachineStatus

namespace Hart

theorem getLsbD_machineReturnStatus (status : Word) (bit : Nat) :
    (machineReturnStatus status).getLsbD bit =
      if bit = 17 then decide (machineReturnMode status = .machine) && status.getLsbD 17
      else if bit = 11 ∨ bit = 12 then false
      else if bit = 7 then true
      else if bit = 3 then status.getLsbD 7 else status.getLsbD bit := by
  have hreturned : (MachineStatus.withMachinePrevious
      (MachineStatus.copyFlag status MachineStatus.machinePreviousEnable
        MachineStatus.machineEnable ||| MachineStatus.machinePreviousEnable) 0).getLsbD bit =
      if bit = 11 ∨ bit = 12 then false
      else if bit = 7 then true
      else if bit = 3 then status.getLsbD 7 else status.getLsbD bit := by
    rw [MachineStatus.getLsbD_withMachinePrevious, MachineStatus.machinePreviousEnable,
      MachineStatus.getLsbD_or_flag (by decide), MachineStatus.machineEnable,
      MachineStatus.getLsbD_copyFlag (by decide) (by decide)]
    by_cases hlow : bit = 11
    · rw [if_pos hlow, if_pos (.inl hlow)]
      rfl
    by_cases hhigh : bit = 12
    · rw [if_neg hlow, if_pos hhigh, if_pos (.inr hhigh)]
      rfl
    · rw [if_neg hlow, if_neg hhigh, if_neg (not_or.mpr ⟨hlow, hhigh⟩)]
  rw [machineReturnStatus]
  by_cases hmode : machineReturnMode status = .machine
  · rw [if_pos hmode, hreturned, hmode]
    by_cases hmodify : bit = 17
    · subst hmodify
      rfl
    · rw [if_neg hmodify]
  · rw [if_neg hmode, MachineStatus.modifyPrivilege, MachineStatus.getLsbD_and_not_flag (by decide),
      hreturned, decide_eq_false hmode, Bool.false_and]

/-- The machine status that a return writes back. Whatever the width, the return sees all bits that it
can write. -/
theorem leavesStatus_machine (xlen : Xlen) (saved : Word) :
    TrapTarget.machine.LeavesStatus (machineReturnMode (xlen.address saved)) saved
      (MachineStatus.replace MachineStatus.writableMask saved
        (machineReturnStatus (xlen.address saved))) := by
  refine MachineStatus.leavesStatus_of_getLsbD 3 7 (by decide) (by decide) (by decide) (by decide)
    (by decide) rfl rfl rfl rfl rfl ?_ fun bit hmask => ?_
  · refine MachineStatus.machinePrevious_eq_zero ?_ ?_
    · rw [MachineStatus.getLsbD_replace, if_pos (by decide), getLsbD_machineReturnStatus]
      rfl
    · rw [MachineStatus.getLsbD_replace, if_pos (by decide), getLsbD_machineReturnStatus]
      rfl
  · have hmode : ¬(bit = 11 ∨ bit = 12) := by
      rintro (rfl | rfl) <;> cases hmask
    rw [MachineStatus.getLsbD_replace]
    split
    · rename_i hwritable
      have hlow := MachineStatus.lt_of_getLsbD_writableMask hwritable
      rw [getLsbD_machineReturnStatus, if_neg hmode, getLsbD_address hlow,
        getLsbD_address (by decide), getLsbD_address (by decide)]
    · rename_i hkept
      have hother : bit ≠ 17 ∧ bit ≠ 7 ∧ bit ≠ 3 := by
        refine ⟨?_, ?_, ?_⟩ <;> rintro rfl <;> exact absurd rfl hkept
      rw [if_neg hother.1, if_neg hother.2.1, if_neg hother.2.2]

theorem leavesStatus_supervisor (xlen : Xlen) (saved : Word) {mode : Privilege}
    (hmode : mode ≠ .machine) :
    TrapTarget.supervisor.LeavesStatus mode saved
      (MachineStatus.replace MachineStatus.writableMask saved
        (supervisorReturnStatus (xlen.address saved))) := by
  refine MachineStatus.leavesStatus_of_getLsbD 1 5 (by decide) (by decide) (by decide) (by decide)
    (by decide) rfl rfl rfl rfl rfl ?_ fun bit hmask => ?_
  · refine MachineStatus.supervisorPrevious_eq_zero ?_
    rw [MachineStatus.getLsbD_replace, if_pos (by decide), getLsbD_supervisorReturnStatus]
    rfl
  · have hprevious : bit ≠ 8 := by
      rintro rfl
      cases hmask
    rw [MachineStatus.getLsbD_replace, decide_eq_false hmode, Bool.false_and]
    split
    · rename_i hwritable
      have hlow := MachineStatus.lt_of_getLsbD_writableMask hwritable
      rw [getLsbD_supervisorReturnStatus, getLsbD_address hlow, getLsbD_address (by decide)]
      simp only [hprevious, or_false]
    · rename_i hkept
      have hother : bit ≠ 17 ∧ bit ≠ 5 ∧ bit ≠ 1 := by
        refine ⟨?_, ?_, ?_⟩ <;> rintro rfl <;> exact absurd rfl hkept
      rw [if_neg hother.1, if_neg hother.2.1, if_neg hother.2.2]

/-! ### The mode to return to -/

/-- A field in the low half of the status is the same for all widths. -/
theorem shiftRight_address_and (xlen : Xlen) (status : Word) {position : Nat} {mask : Word}
    (hmask : ∀ bit < 64, mask.getLsbD bit = true → position + bit < 32) :
    (xlen.address status >>> position) &&& mask = (status >>> position) &&& mask := by
  apply BitVec.eq_of_getLsbD_eq
  intro bit hbit
  rw [BitVec.getLsbD_and, BitVec.getLsbD_and, BitVec.getLsbD_ushiftRight, BitVec.getLsbD_ushiftRight]
  cases hset : mask.getLsbD bit with
  | true => rw [getLsbD_address (hmask bit hbit hset)]
  | false => rw [Bool.and_false, Bool.and_false]

theorem machineReturnMode_of_enters {mode : Privilege} {before saved : Word} (xlen : Xlen)
    (henters : TrapTarget.machine.EntersStatus mode before saved) :
    machineReturnMode (xlen.address saved) = mode := by
  have hprevious : MachineStatus.machinePrevious (xlen.address saved) = BitVec.ofNat 64 mode.code :=
    (shiftRight_address_and xlen saved (by decide)).trans henters.previous
  rw [machineReturnMode, hprevious]
  cases mode <;> rfl

theorem supervisorReturnMode_of_enters {mode : Privilege} {before saved : Word} (xlen : Xlen)
    (hmode : mode ≠ .machine) (henters : TrapTarget.supervisor.EntersStatus mode before saved) :
    supervisorReturnMode (xlen.address saved) = mode := by
  have hprevious :
      MachineStatus.supervisorPrevious (xlen.address saved) = BitVec.ofNat 64 mode.code :=
    (shiftRight_address_and xlen saved (by decide)).trans henters.previous
  rw [supervisorReturnMode, hprevious]
  cases mode with
  | user => rfl
  | supervisor => rfl
  | machine => exact absurd rfl hmode

/-! ### A trap and the return from it -/

variable {hart : Hart} {cause : TrapCause} {value : Word}

theorem machineReturn_of_machine (hmachine : hart.privilege = .machine) :
    hart.machineReturn = .ok (hart.returned (machineReturnStatus (hart.csr Csr.machineStatus))
      (machineReturnMode (hart.csr Csr.machineStatus)) Csr.machineExceptionPc) := by
  cases hreturn : hart.machineReturn with
  | error exception =>
      rw [machineReturn, if_neg (not_not_intro hmachine)] at hreturn
      cases hreturn
  | ok after => rw [(machineReturn_eq_ok hreturn).2]

theorem supervisorReturn_of_allowed (hallowed : hart.mayWhileClear MachineStatus.trapReturn = true) :
    hart.supervisorReturn = .ok (hart.returned (supervisorReturnStatus (hart.csr Csr.machineStatus))
      (supervisorReturnMode (hart.csr Csr.machineStatus)) Csr.supervisorExceptionPc) := by
  cases hreturn : hart.supervisorReturn with
  | error exception =>
      rw [supervisorReturn, hallowed] at hreturn
      cases hreturn
  | ok after => rw [(supervisorReturn_eq_ok hreturn).2]

/-- A trap moves to another place and mode, and changes control registers. -/
theorem enterTrap_frame (hart : Hart) (cause : TrapCause) (value : Word) :
    ∃ event controls privilege pc, hart.enterTrap cause value =
      { hart.record event with controls := controls, privilege := privilege, pc := pc } := by
  simp only [enterTrap]
  split
  · exact ⟨_, _, _, _, rfl⟩
  · exact ⟨_, _, _, _, rfl⟩

theorem address_and_not_one (hpc : hart.xlen.address hart.pc = hart.pc)
    (heven : hart.pc.toNat % 2 = 0) : hart.xlen.address (hart.pc &&& ~~~1) = hart.pc := by
  have hclear : hart.pc &&& ~~~MachineStatus.flag 0 = hart.pc := by
    apply BitVec.eq_of_getLsbD_eq
    intro bit _
    rw [MachineStatus.getLsbD_and_not_flag (by decide)]
    split
    · rename_i hzero
      rw [hzero, BitVec.getLsbD, Nat.testBit_zero, heven]
      rfl
    · rfl
  exact (congrArg hart.xlen.address hclear).trans hpc

/-- A return finds what the trap has saved, if it takes the registers of the mode that has trapped. -/
theorem restores_returned {target : TrapTarget} {trapped : Hart} {status : Word}
    (hpc : hart.xlen.address hart.pc = hart.pc) (heven : hart.pc.toNat % 2 = 0)
    (hmodify : target.statusMask.getLsbD 17 = false)
    (htrapped : hart.enterTrap cause value = trapped)
    (htakes : target.Takes ⟨cause, value⟩ hart trapped)
    (hleaves : target.LeavesStatus hart.privilege (trapped.controls.read Csr.machineStatus)
      (MachineStatus.replace MachineStatus.writableMask
        (trapped.controls.read Csr.machineStatus) status)) :
    target.Restores hart (trapped.returned status hart.privilege target.exceptionPc) where
  frame := by
    obtain ⟨event, controls, privilege, pc, hframe⟩ := enterTrap_frame hart cause value
    refine ⟨event, ?_⟩
    have hxlen := htakes.xlen
    rw [returned, htakes.exceptionPc, hxlen, address_and_not_one hpc heven]
    rw [← htrapped, hframe]
    rfl
  status := by
    rw [returned, CsrBank.read_write, if_pos rfl]
    exact htakes.status.restores hmodify hleaves
  others := by
    intro address hother
    have hne : address ≠ Csr.machineStatus := fun heq => hother (by simp [heq])
    obtain ⟨hread, hcontains⟩ := htakes.others address hother
    obtain ⟨hreadWritten, hcontainsWritten⟩ : trapped.controls.Keeps _ address :=
      CsrBank.keeps_write hne (MachineStatus.replace MachineStatus.writableMask
        (trapped.controls.read Csr.machineStatus) status)
    exact ⟨hreadWritten.trans hread, hcontainsWritten.trans hcontains⟩

theorem csr_machineStatus_of_takes {target : TrapTarget} {exception : Exception} {trapped : Hart}
    (htakes : target.Takes exception hart trapped) :
    trapped.csr Csr.machineStatus =
      hart.xlen.address (trapped.controls.read Csr.machineStatus) := by
  rw [csr, htakes.xlen]
  rfl

theorem trapTarget_of_delegates (hdelegates : hart.delegates cause = true) :
    hart.trapTarget cause = .supervisor := by
  rw [delegates, Bool.and_eq_true, bne_iff_ne] at hdelegates
  exact if_pos hdelegates

theorem trapTarget_of_not_delegates (hkept : hart.delegates cause = false) :
    hart.trapTarget cause = .machine := by
  rw [← Bool.not_eq_true, delegates, Bool.and_eq_true, bne_iff_ne] at hkept
  exact if_neg hkept

theorem machineReturn_enterTrap (hpc : hart.xlen.address hart.pc = hart.pc)
    (heven : hart.pc.toNat % 2 = 0) (hkept : hart.delegates cause = false) :
    ∃ after, (hart.enterTrap cause value).machineReturn = .ok after ∧
      TrapTarget.machine.Restores hart after := by
  have htakes : TrapTarget.machine.Takes ⟨cause, value⟩ hart (hart.enterTrap cause value) := by
    have htakes := takes_enterTrap hart ⟨cause, value⟩
    rwa [trapTarget_of_not_delegates hkept] at htakes
  have hmode := machineReturnMode_of_enters hart.xlen htakes.status
  refine ⟨_, machineReturn_of_machine htakes.privilege, ?_⟩
  rw [csr_machineStatus_of_takes htakes, hmode]
  refine restores_returned hpc heven (by decide) rfl htakes ?_
  have hleaves := leavesStatus_machine hart.xlen
    ((hart.enterTrap cause value).controls.read Csr.machineStatus)
  rwa [hmode] at hleaves

theorem supervisorReturn_enterTrap (hpc : hart.xlen.address hart.pc = hart.pc)
    (heven : hart.pc.toNat % 2 = 0) (hdelegates : hart.delegates cause = true)
    (hallowed : MachineStatus.has (hart.controls.read Csr.machineStatus)
      MachineStatus.trapReturn = false) :
    ∃ after, (hart.enterTrap cause value).supervisorReturn = .ok after ∧
      TrapTarget.supervisor.Restores hart after := by
  have htakes : TrapTarget.supervisor.Takes ⟨cause, value⟩ hart (hart.enterTrap cause value) := by
    have htakes := takes_enterTrap hart ⟨cause, value⟩
    rwa [trapTarget_of_delegates hdelegates] at htakes
  have hstatus := csr_machineStatus_of_takes htakes
  have hne : hart.privilege ≠ .machine := by
    rw [delegates, Bool.and_eq_true, bne_iff_ne] at hdelegates
    exact hdelegates.1
  have hmode := supervisorReturnMode_of_enters hart.xlen hne htakes.status
  have hmay : (hart.enterTrap cause value).mayWhileClear MachineStatus.trapReturn = true := by
    rw [MachineStatus.trapReturn, MachineStatus.has_flag (by decide)] at hallowed
    rw [mayWhileClear, htakes.privilege, hstatus, MachineStatus.trapReturn]
    change (!MachineStatus.has _ _) = true
    rw [MachineStatus.has_flag (by decide), getLsbD_address (by decide),
      MachineStatus.getLsbD_of_and_not_eq htakes.status.others (by decide), hallowed]
    rfl
  refine ⟨_, supervisorReturn_of_allowed hmay, ?_⟩
  rw [hstatus, hmode]
  exact restores_returned hpc heven (by decide) rfl htakes (leavesStatus_supervisor _ _ hne)

/-- A trap and the return from it, in machine mode or in supervisor mode, leave the hart as it was,
but for the status bits and registers that they need. -/
theorem return_enterTrap (hpc : hart.xlen.address hart.pc = hart.pc)
    (heven : hart.pc.toNat % 2 = 0) (cause : TrapCause) (value : Word) (operands : Operands) :
    (hart.delegates cause = false →
      ∃ after, Operation.machineReturn.execute operands (hart.enterTrap cause value) =
        (.ok .next, after) ∧ TrapTarget.machine.Restores hart after) ∧
    (hart.delegates cause = true →
      MachineStatus.has (hart.controls.read Csr.machineStatus) MachineStatus.trapReturn = false →
      ∃ after, Operation.supervisorReturn.execute operands (hart.enterTrap cause value) =
        (.ok .next, after) ∧ TrapTarget.supervisor.Restores hart after) := by
  constructor
  · intro hkept
    obtain ⟨after, hreturn, hrestores⟩ := machineReturn_enterTrap hpc heven hkept
    exact ⟨after, by rw [Operation.execute, hreturn, complete], hrestores⟩
  · intro hdelegates hallowed
    obtain ⟨after, hreturn, hrestores⟩ :=
      supervisorReturn_enterTrap hpc heven hdelegates hallowed
    exact ⟨after, by rw [Operation.execute, hreturn, complete], hrestores⟩

/-- Two traps of a 32-bit hart in user mode that may use other rights, with both kinds of interrupts
enabled; calls are left to supervisor mode. -/
theorem return_enterTrap_user :
    let hart := { facing 0x00000013 with
      xlen := .x32
      privilege := .user
      controls := (CsrBank.reset.write Csr.machineDelegation 0x100).write Csr.machineStatus 0x2000A }
    (∃ after, Operation.machineReturn.execute .empty (hart.enterTrap .loadPageFault 0x5008) =
      (.ok .next, after) ∧ TrapTarget.machine.Restores hart after) ∧
    ∃ after, Operation.supervisorReturn.execute .empty (hart.enterTrap .callFromUser 0) =
      (.ok .next, after) ∧ TrapTarget.supervisor.Restores hart after := by
  intro hart
  have hpc : hart.xlen.address hart.pc = hart.pc := by decide +kernel
  have heven : hart.pc.toNat % 2 = 0 := by decide +kernel
  have hkept : hart.delegates .loadPageFault = false := by decide +kernel
  have hdelegates : hart.delegates .callFromUser = true := by decide +kernel
  have hallowed : MachineStatus.has (hart.controls.read Csr.machineStatus)
      MachineStatus.trapReturn = false := by decide +kernel
  exact ⟨(return_enterTrap hpc heven .loadPageFault 0x5008 .empty).1 hkept,
    (return_enterTrap hpc heven .callFromUser 0 .empty).2 hdelegates hallowed⟩

end Hart

end RiscvMachine
