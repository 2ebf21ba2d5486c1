import RiscvMachine.Xlen
/-!
Words that stand for 32-bit values, sign-extended as registers hold them or zero-extended as
addresses are.
-/

namespace RiscvMachine

theorem setWidth_signExtend_word {width : Nat} (value : BitVec width) :
    (value.signExtend 64).setWidth 32 = value.signExtend 32 := by
  apply BitVec.eq_of_getLsbD_eq
  intro bit hbit
  have hword : bit < 64 := by omega
  rw [BitVec.getLsbD_setWidth, BitVec.getLsbD_signExtend, BitVec.getLsbD_signExtend]
  simp [hbit, hword]

theorem setWidth_signExtend (value : BitVec 32) : (value.signExtend 64).setWidth 32 = value := by
  rw [setWidth_signExtend_word, BitVec.signExtend_eq]

theorem signExtend_signExtend {width : Nat} (hwidth : width ≤ 32) (value : BitVec width) :
    (value.signExtend 32).signExtend 64 = value.signExtend 64 := by
  apply BitVec.eq_of_toInt_eq
  rw [BitVec.toInt_signExtend_of_le (by decide), BitVec.toInt_signExtend_of_le hwidth,
    BitVec.toInt_signExtend_of_le (Nat.le_trans hwidth (by decide))]

/-- A short number has no sign to extend. -/
theorem signExtend_setWidth {width : Nat} (hwidth : width < 32) (value : BitVec width) :
    (value.setWidth 32).signExtend 64 = value.setWidth 64 := by
  have hmsb : (value.setWidth 32).msb = false := by
    rw [BitVec.msb_setWidth, BitVec.getLsbD_of_ge value _ (by omega), Bool.and_false]
  rw [BitVec.signExtend_eq_setWidth_of_msb_false hmsb]
  apply BitVec.eq_of_toNat_eq
  rw [BitVec.toNat_setWidth_of_le (by decide), BitVec.toNat_setWidth_of_le (Nat.le_of_lt hwidth),
    BitVec.toNat_setWidth_of_le (by omega)]

theorem setWidth_zeroExtend (value : BitVec 32) : (value.setWidth 64).setWidth 32 = value := by
  apply BitVec.eq_of_getLsbD_eq
  intro bit hbit
  simp [hbit]

namespace Xlen

/-- An address has the bits of the register width, and zeros above them. -/
theorem address_eq_setWidth (xlen : Xlen) (value : Word) :
    xlen.address value = (value.setWidth xlen.bits).setWidth 64 := by
  cases xlen with
  | x64 => rw [address, bits, BitVec.setWidth_eq, BitVec.setWidth_eq]
  | x32 => rfl

/-- A register holds the bits of its width, and copies of the highest one above them. -/
theorem normalize_eq_signExtend (xlen : Xlen) (value : Word) :
    xlen.normalize value = (value.setWidth xlen.bits).signExtend 64 := by
  cases xlen with
  | x64 => rw [normalize, bits, BitVec.setWidth_eq, BitVec.signExtend_eq]
  | x32 => rfl

@[simp]
theorem normalize_normalize (xlen : Xlen) (value : Word) :
    xlen.normalize (xlen.normalize value) = xlen.normalize value := by
  cases xlen with
  | x64 => rfl
  | x32 => rw [normalize, normalize, signExtendLow, signExtendLow, setWidth_signExtend]

@[simp]
theorem address_address (xlen : Xlen) (value : Word) :
    xlen.address (xlen.address value) = xlen.address value := by
  cases xlen with
  | x64 => rfl
  | x32 => rw [address, address, zeroExtendLow, zeroExtendLow, setWidth_zeroExtend]

@[simp]
theorem normalize_zero (xlen : Xlen) : xlen.normalize 0 = 0 := by
  cases xlen <;> rfl

@[simp]
theorem address_zero (xlen : Xlen) : xlen.address 0 = 0 := by
  cases xlen <;> rfl

end Xlen

end RiscvMachine
