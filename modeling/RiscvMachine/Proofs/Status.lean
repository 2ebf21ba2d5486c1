import Mathlib.Tactic.IntervalCases
import RiscvMachine.MachineStatus
/-!
The machine status word, one bit at a time.
-/

namespace RiscvMachine.MachineStatus

variable {status code mask old value : Word} {source target position bit : Nat}

theorem getLsbD_flag (hposition : position < 64) :
    (flag position).getLsbD bit = decide (bit = position) := by
  have hflag : flag position = BitVec.twoPow 64 position := rfl
  rw [hflag, BitVec.getLsbD_twoPow]
  simp [hposition, eq_comm]

theorem has_flag (hposition : position < 64) :
    has status (flag position) = status.getLsbD position := by
  have hflag : flag position = BitVec.twoPow 64 position := rfl
  rw [has, hflag, BitVec.and_twoPow]
  cases hbit : status.getLsbD position with
  | false => rfl
  | true =>
      rw [if_pos rfl, bne_iff_ne]
      intro hzero
      have hclear := congrArg (fun word => word.getLsbD position) hzero
      simp [hposition] at hclear

theorem getLsbD_or_flag (hposition : position < 64) :
    (status ||| flag position).getLsbD bit =
      if bit = position then true else status.getLsbD bit := by
  rw [BitVec.getLsbD_or, getLsbD_flag hposition]
  split <;> simp [*]

theorem getLsbD_and_not_flag (hposition : position < 64) :
    (status &&& ~~~flag position).getLsbD bit =
      if bit = position then false else status.getLsbD bit := by
  rw [BitVec.getLsbD_and, BitVec.getLsbD_not, getLsbD_flag hposition]
  split
  · simp [*]
  · by_cases hbit : bit < 64
    · simp [*]
    · simp [*, BitVec.getLsbD_of_ge status bit (by omega)]

theorem getLsbD_copyFlag (hsource : source < 64) (htarget : target < 64) :
    (copyFlag status (flag source) (flag target)).getLsbD bit =
      if bit = target then status.getLsbD source else status.getLsbD bit := by
  rw [copyFlag, has_flag hsource]
  cases status.getLsbD source with
  | true => rw [if_pos rfl, getLsbD_or_flag htarget]
  | false => rw [if_neg Bool.false_ne_true, getLsbD_and_not_flag htarget]

theorem getLsbD_replace :
    (replace mask old value).getLsbD bit =
      if mask.getLsbD bit then value.getLsbD bit else old.getLsbD bit := by
  rw [replace, BitVec.getLsbD_or, BitVec.getLsbD_and, BitVec.getLsbD_and, BitVec.getLsbD_not]
  cases mask.getLsbD bit with
  | true => simp
  | false => simpa using BitVec.lt_of_getLsbD

theorem and_not_eq_of_getLsbD
    (hagree : ∀ bit, mask.getLsbD bit = false → value.getLsbD bit = old.getLsbD bit) :
    value &&& ~~~mask = old &&& ~~~mask := by
  apply BitVec.eq_of_getLsbD_eq
  intro bit hbit
  rw [BitVec.getLsbD_and, BitVec.getLsbD_and, BitVec.getLsbD_not]
  cases hmask : mask.getLsbD bit with
  | true => simp
  | false => rw [hagree bit hmask]

theorem getLsbD_of_and_not_eq (hagree : value &&& ~~~mask = old &&& ~~~mask)
    (hmask : mask.getLsbD bit = false) : value.getLsbD bit = old.getLsbD bit := by
  by_cases hbit : bit < 64
  · have hsame := congrArg (fun word => word.getLsbD bit) hagree
    simpa only [BitVec.getLsbD_and, BitVec.getLsbD_not, hmask, hbit, decide_true, Bool.not_false,
      Bool.and_true] using hsame
  · rw [BitVec.getLsbD_of_ge value bit (by omega), BitVec.getLsbD_of_ge old bit (by omega)]

theorem replace_and_not : replace mask old value &&& ~~~mask = old &&& ~~~mask := by
  apply and_not_eq_of_getLsbD
  intro bit hmask
  rw [getLsbD_replace, hmask, if_neg Bool.false_ne_true]

/-- The status bits that the supervisor view can write. -/
def supervisorWritable : Word :=
  supervisorEnable ||| supervisorPreviousEnable ||| supervisorPreviousPrivilege |||
    supervisorUserAccess ||| executableReadable

theorem supervisorMask_and_writableMask : supervisorMask &&& writableMask = supervisorWritable := by
  decide

/-- All writable bits lie in the low half of the word. -/
theorem lt_of_getLsbD_writableMask (hbit : writableMask.getLsbD bit = true) : bit < 32 := by
  by_contra hhigh
  have hless : writableMask.toNat < 2 ^ bit :=
    (show writableMask.toNat < 2 ^ 32 by decide).trans_le
      (Nat.pow_le_pow_right (by decide) (Nat.le_of_not_lt hhigh))
  rw [BitVec.getLsbD, Nat.testBit_lt_two_pow hless] at hbit
  cases hbit

theorem getLsbD_withMachinePrevious :
    (withMachinePrevious status code).getLsbD bit =
      if bit = 11 then code.getLsbD 0 else if bit = 12 then code.getLsbD 1
      else status.getLsbD bit := by
  by_cases hbit : bit < 64
  · rw [withMachinePrevious, machinePreviousPrivilege]
    interval_cases bit <;> simp
  · have hhigh : bit ≠ 11 ∧ bit ≠ 12 := by omega
    simp [hhigh, BitVec.getLsbD_of_ge _ bit (Nat.le_of_not_lt hbit)]

theorem getLsbD_withSupervisorPrevious :
    (withSupervisorPrevious status code).getLsbD bit =
      if bit = 8 then code.getLsbD 0 else status.getLsbD bit := by
  by_cases hbit : bit < 64
  · rw [withSupervisorPrevious, supervisorPreviousPrivilege]
    interval_cases bit <;> simp [flag]
  · have hhigh : bit ≠ 8 := by omega
    simp [hhigh, BitVec.getLsbD_of_ge _ bit (Nat.le_of_not_lt hbit)]

theorem machinePrevious_withMachinePrevious :
    machinePrevious (withMachinePrevious status code) = code &&& 3 := by
  apply BitVec.eq_of_getLsbD_eq
  intro bit hbit
  rw [machinePrevious, BitVec.getLsbD_and, BitVec.getLsbD_ushiftRight, getLsbD_withMachinePrevious]
  interval_cases bit <;> simp

theorem supervisorPrevious_withSupervisorPrevious :
    supervisorPrevious (withSupervisorPrevious status code) = code &&& 1 := by
  apply BitVec.eq_of_getLsbD_eq
  intro bit hbit
  rw [supervisorPrevious, BitVec.getLsbD_and, BitVec.getLsbD_ushiftRight,
    getLsbD_withSupervisorPrevious]
  interval_cases bit <;> simp

end RiscvMachine.MachineStatus
