import Mathlib.Tactic.SplitIfs
import RiscvMachine.Proofs.Canonical
/-!
Multiplication and division against the integers. Products are computed with 128 bits and
quotients with 64, from registers that hold sign-extended values; what is left of them in a
register of either width is the part of the exact result that the instruction promises.
-/

namespace RiscvMachine

namespace Xlen

/-! ### Readings of a register -/

/-- The number that the low bits of a register denote in two's complement. -/
def signed (xlen : Xlen) (word : Word) : Int :=
  (word.setWidth xlen.bits).toInt

/-- The number that the low bits of a register denote without a sign. -/
def unsigned (xlen : Xlen) (word : Word) : Nat :=
  (word.setWidth xlen.bits).toNat

theorem modulus_dvd (xlen : Xlen) : 2 ^ xlen.bits ∣ 2 ^ 64 := by
  cases xlen <;> decide

theorem unsigned_eq_mod (xlen : Xlen) (word : Word) :
    xlen.unsigned word = word.toNat % 2 ^ xlen.bits :=
  BitVec.toNat_setWidth _ _

theorem signed_eq_bmod (xlen : Xlen) (word : Word) :
    xlen.signed word = Int.bmod word.toNat (2 ^ xlen.bits) :=
  BitVec.toInt_setWidth _

/-- What is left of a word is its number modulo the width. -/
theorem signed_eq_bmod_toInt (xlen : Xlen) (word : Word) :
    xlen.signed word = Int.bmod word.toInt (2 ^ xlen.bits) := by
  rw [signed_eq_bmod, BitVec.toInt_eq_toNat_bmod, Int.bmod_bmod_of_dvd xlen.modulus_dvd]

theorem natAbs_signed_le (xlen : Xlen) (word : Word) :
    (xlen.signed word).natAbs ≤ 2 ^ (xlen.bits - 1) := by
  have hlow := BitVec.le_toInt (word.setWidth xlen.bits)
  have hhigh := BitVec.toInt_lt (x := word.setWidth xlen.bits)
  rw [signed]
  cases xlen <;> simp only [bits] at * <;> omega

theorem unsigned_lt (xlen : Xlen) (word : Word) : xlen.unsigned word < 2 ^ xlen.bits :=
  (word.setWidth xlen.bits).isLt

theorem unsigned_le (xlen : Xlen) (word : Word) : xlen.unsigned word ≤ 2 ^ xlen.bits - 1 :=
  Nat.le_sub_one_of_lt (xlen.unsigned_lt word)

/-- Both readings agree modulo the width. -/
theorem signed_emod (xlen : Xlen) (word : Word) :
    xlen.signed word % 2 ^ xlen.bits = xlen.unsigned word := by
  have hbmod : Int.bmod word.toNat (2 ^ xlen.bits) % 2 ^ xlen.bits = word.toNat % 2 ^ xlen.bits := by
    exact_mod_cast Int.bmod_emod (x := word.toNat) (m := 2 ^ xlen.bits)
  rw [signed_eq_bmod, hbmod, unsigned_eq_mod]
  push_cast
  rfl

theorem toNat_address (xlen : Xlen) (word : Word) :
    (xlen.address word).toNat = xlen.unsigned word := by
  cases xlen with
  | x64 => rw [unsigned, bits, BitVec.setWidth_eq, address]
  | x32 => rw [address, zeroExtendLow, BitVec.toNat_setWidth_of_le (by decide), unsigned, bits]

/-- A register in the form of its width is read right as a whole word. -/
theorem toInt_of_normal {xlen : Xlen} {word : Word} (hnormal : xlen.normalize word = word) :
    word.toInt = xlen.signed word := by
  cases xlen with
  | x64 => rw [signed, bits, BitVec.setWidth_eq]
  | x32 =>
      rw [← hnormal, normalize, signExtendLow, BitVec.toInt_signExtend_of_le (by decide), signed,
        bits, setWidth_signExtend]

theorem setWidth_normalize (xlen : Xlen) (word : Word) :
    (xlen.normalize word).setWidth xlen.bits = word.setWidth xlen.bits := by
  cases xlen with
  | x64 => rfl
  | x32 => exact setWidth_signExtend _

theorem signed_normalize (xlen : Xlen) (word : Word) :
    xlen.signed (xlen.normalize word) = xlen.signed word := by
  rw [signed, setWidth_normalize, signed]

theorem unsigned_normalize (xlen : Xlen) (word : Word) :
    xlen.unsigned (xlen.normalize word) = xlen.unsigned word := by
  rw [unsigned, setWidth_normalize, unsigned]

/-- Registers in the form of the width hold no more than their low bits. -/
theorem eq_of_setWidth_eq {xlen : Xlen} {first second : Word}
    (hfirst : xlen.normalize first = first) (hsecond : xlen.normalize second = second)
    (hlow : first.setWidth xlen.bits = second.setWidth xlen.bits) : first = second := by
  apply BitVec.eq_of_toInt_eq
  rw [toInt_of_normal hfirst, toInt_of_normal hsecond, signed, hlow, signed]

theorem normalize_address (xlen : Xlen) (word : Word) :
    xlen.normalize (xlen.address word) = xlen.normalize word := by
  cases xlen with
  | x64 => rfl
  | x32 => rw [normalize, address, zeroExtendLow, signExtendLow, setWidth_zeroExtend, normalize,
      signExtendLow]

theorem normalize_allOnes (xlen : Xlen) :
    xlen.normalize (BitVec.allOnes 64) = BitVec.allOnes 64 := by
  cases xlen <;> decide

end Xlen

/-! ### Products -/

theorem natAbs_mul_le {left right : Int} {leftBound rightBound : Nat}
    (hleft : left.natAbs ≤ leftBound) (hright : right.natAbs ≤ rightBound) :
    (left * right).natAbs ≤ leftBound * rightBound := by
  rw [Int.natAbs_mul]
  exact Nat.mul_le_mul hleft hright

section Products

variable (xlen : Xlen) (left right : Word)

/-- The numbers that double-width products of words are made of. -/
theorem toInt_signExtend_double : (left.signExtend 128).toInt = left.toInt :=
  BitVec.toInt_signExtend_of_le (by decide)

theorem toNat_address_double : ((xlen.address left).setWidth 128).toNat = xlen.unsigned left := by
  rw [BitVec.toNat_setWidth_of_le (by decide), xlen.toNat_address]

theorem toInt_address_double : ((xlen.address left).setWidth 128).toInt = xlen.unsigned left := by
  have hbound := (xlen.address left).isLt
  rw [xlen.toNat_address] at hbound
  rw [BitVec.toInt_eq_toNat_of_lt (by rw [toNat_address_double]; omega), toNat_address_double]

theorem natAbs_toInt_le : left.toInt.natAbs ≤ 2 ^ 63 := by
  have hlow := left.le_toInt
  have hhigh := left.toInt_lt
  omega

theorem unsigned_le_word : xlen.unsigned left ≤ 2 ^ 64 - 1 := by
  have hbound := (xlen.address left).isLt
  rw [xlen.toNat_address] at hbound
  omega

theorem smulOverflow_of_natAbs_le {left right : BitVec 128} {leftBound rightBound : Nat}
    (hleft : left.toInt.natAbs ≤ leftBound) (hright : right.toInt.natAbs ≤ rightBound)
    (hbound : leftBound * rightBound < 2 ^ 127) : left.smulOverflow right = false := by
  have hproduct := natAbs_mul_le hleft hright
  simp only [BitVec.smulOverflow, Bool.or_eq_false_iff, decide_eq_false_iff_not]
  omega

theorem smulOverflow_high : (left.signExtend 128).smulOverflow (right.signExtend 128) = false := by
  refine smulOverflow_of_natAbs_le ?_ ?_ (by decide : 2 ^ 63 * 2 ^ 63 < 2 ^ 127)
  · rw [toInt_signExtend_double]
    exact natAbs_toInt_le left
  · rw [toInt_signExtend_double]
    exact natAbs_toInt_le right

theorem smulOverflow_highMixed :
    (left.signExtend 128).smulOverflow ((xlen.address right).setWidth 128) = false := by
  refine smulOverflow_of_natAbs_le ?_ ?_ (by decide : 2 ^ 63 * (2 ^ 64 - 1) < 2 ^ 127)
  · rw [toInt_signExtend_double]
    exact natAbs_toInt_le left
  · rw [toInt_address_double, Int.natAbs_natCast]
    exact unsigned_le_word xlen right

theorem umulOverflow_highUnsigned :
    ((xlen.address left).setWidth 128).umulOverflow ((xlen.address right).setWidth 128) = false := by
  have hproduct := Nat.mul_le_mul (unsigned_le_word xlen left) (unsigned_le_word xlen right)
  simp only [BitVec.umulOverflow, toNat_address_double, decide_eq_false_iff_not]
  omega

theorem unsigned_highPart (product : BitVec 128) :
    xlen.unsigned (highPart xlen product) = product.toNat / 2 ^ xlen.bits % 2 ^ xlen.bits := by
  rw [xlen.unsigned_eq_mod, highPart, BitVec.toNat_setWidth, BitVec.toNat_ushiftRight,
    Nat.shiftRight_eq_div_pow]
  cases xlen <;> simp only [Xlen.bits] <;> omega

/-- The part above the width, of a product that has no more than twice the width. -/
theorem signed_highPart {product : BitVec 128}
    (hbound : product.toInt.natAbs ≤ 2 ^ (xlen.bits - 1) * (2 ^ xlen.bits - 1)) :
    xlen.signed (highPart xlen product) = product.toInt / 2 ^ xlen.bits := by
  have hshift : xlen.signed (highPart xlen product) =
      Int.bmod (product.toInt / 2 ^ xlen.bits) (2 ^ xlen.bits) := by
    rw [← Int.emod_bmod, xlen.signed_eq_bmod, ← Int.emod_bmod, highPart, BitVec.toNat_setWidth,
      BitVec.toNat_ushiftRight, Nat.shiftRight_eq_div_pow, BitVec.toInt_eq_toNat_cond]
    congr 1
    cases xlen <;> simp only [Xlen.bits] <;> split <;> omega
  rw [hshift]
  apply Int.bmod_eq_of_le_mul_two
  · cases xlen <;> simp only [Xlen.bits] at * <;> omega
  · cases xlen <;> simp only [Xlen.bits] at * <;> omega

end Products

/-! ### What the instructions promise -/

/-- A quotient toward zero and its remainder, over the integers. -/
structure Truncates (dividend divisor quotient remainder : Int) : Prop where
  identity : dividend = divisor * quotient + remainder
  bound : remainder.natAbs < divisor.natAbs
  sign : remainder = 0 ∨ remainder.sign = dividend.sign
  towardZero : quotient = dividend.tdiv divisor

theorem truncates {dividend divisor : Int} (hdivisor : divisor ≠ 0) :
    Truncates dividend divisor (dividend.tdiv divisor) (dividend.tmod divisor) where
  identity := (Int.mul_tdiv_add_tmod dividend divisor).symm
  bound := by
    rw [Int.natAbs_tmod]
    exact Nat.mod_lt _ (Int.natAbs_pos.mpr hdivisor)
  sign := by
    rw [Int.sign_tmod]
    by_cases hdvd : divisor ∣ dividend
    · exact .inl (Int.tmod_eq_zero_of_dvd hdvd)
    · exact .inr (if_neg hdvd)
  towardZero := rfl

/-- The one signed quotient that has no room in the width. -/
def Xlen.Overflows (xlen : Xlen) (left right : Word) : Prop :=
  xlen.signed left = -2 ^ (xlen.bits - 1) ∧ xlen.signed right = -1

instance (xlen : Xlen) (left right : Word) : Decidable (xlen.Overflows left right) :=
  inferInstanceAs (Decidable (_ ∧ _))

/-- The exact results that the registers hold after the instructions on two operands. -/
structure Xlen.Exact (xlen : Xlen) (left right : Word) (result : Arithmetic → Word) : Prop where
  low : xlen.unsigned (result .multiply) = xlen.signed left * xlen.signed right % 2 ^ xlen.bits
  lowMixed :
    xlen.unsigned (result .multiply) = xlen.signed left * xlen.unsigned right % 2 ^ xlen.bits
  lowUnsigned :
    xlen.unsigned (result .multiply) = xlen.unsigned left * xlen.unsigned right % 2 ^ xlen.bits
  high : xlen.signed (result .multiplyHigh) = xlen.signed left * xlen.signed right / 2 ^ xlen.bits
  highMixed :
    xlen.signed (result .multiplyHighMixed) =
      xlen.signed left * xlen.unsigned right / 2 ^ xlen.bits
  highUnsigned :
    xlen.unsigned (result .multiplyHighUnsigned) =
      xlen.unsigned left * xlen.unsigned right / 2 ^ xlen.bits
  division : right ≠ 0 → ¬xlen.Overflows left right →
    Truncates (xlen.signed left) (xlen.signed right) (xlen.signed (result .divide))
      (xlen.signed (result .remainder))
  divisionUnsigned : right ≠ 0 →
    Truncates (xlen.unsigned left) (xlen.unsigned right) (xlen.unsigned (result .divideUnsigned))
      (xlen.unsigned (result .remainderUnsigned))
  overflow : xlen.Overflows left right → result .divide = left ∧ result .remainder = 0
  zeroDivisor : right = 0 →
    result .divide = BitVec.allOnes 64 ∧ result .remainder = left ∧
      result .divideUnsigned = BitVec.allOnes 64 ∧ result .remainderUnsigned = left

namespace Arithmetic

/-- What a register of the width holds of a result. -/
def result (xlen : Xlen) (left right : Word) (operation : Arithmetic) : Word :=
  xlen.normalize (operation.evaluate xlen left right)

section Exact

variable {xlen : Xlen} {left right : Word}

theorem unsigned_result_multiply :
    xlen.unsigned (result xlen left right .multiply) =
      xlen.unsigned left * xlen.unsigned right % 2 ^ xlen.bits := by
  rw [result, evaluate, xlen.unsigned_normalize, xlen.unsigned_eq_mod, BitVec.toNat_mul,
    Nat.mod_mod_of_dvd _ xlen.modulus_dvd, Nat.mul_mod, ← xlen.unsigned_eq_mod, ← xlen.unsigned_eq_mod]

/-- The low part of a product is the same for all factors that are right modulo the width. -/
theorem unsigned_result_multiply_of_emod {first second : Int}
    (hfirst : first % 2 ^ xlen.bits = xlen.unsigned left)
    (hsecond : second % 2 ^ xlen.bits = xlen.unsigned right) :
    xlen.unsigned (result xlen left right .multiply) = first * second % 2 ^ xlen.bits := by
  rw [Int.mul_emod, hfirst, hsecond, unsigned_result_multiply]
  push_cast
  rfl

theorem signed_result_multiplyHigh (hleft : xlen.normalize left = left)
    (hright : xlen.normalize right = right) :
    xlen.signed (result xlen left right .multiplyHigh) =
      xlen.signed left * xlen.signed right / 2 ^ xlen.bits := by
  have hproduct : (left.signExtend 128 * right.signExtend 128).toInt =
      xlen.signed left * xlen.signed right := by
    rw [BitVec.toInt_mul_of_not_smulOverflow (by rw [smulOverflow_high]; decide),
      toInt_signExtend_double, toInt_signExtend_double, Xlen.toInt_of_normal hleft,
      Xlen.toInt_of_normal hright]
  have hhalf : 2 ^ (xlen.bits - 1) ≤ 2 ^ xlen.bits - 1 := by cases xlen <;> decide
  rw [result, evaluate, xlen.signed_normalize, signed_highPart, hproduct]
  rw [hproduct]
  exact natAbs_mul_le (xlen.natAbs_signed_le left)
    (Nat.le_trans (xlen.natAbs_signed_le right) hhalf)

theorem signed_result_multiplyHighMixed (hleft : xlen.normalize left = left) :
    xlen.signed (result xlen left right .multiplyHighMixed) =
      xlen.signed left * xlen.unsigned right / 2 ^ xlen.bits := by
  have hproduct : (left.signExtend 128 * (xlen.address right).setWidth 128).toInt =
      xlen.signed left * xlen.unsigned right := by
    rw [BitVec.toInt_mul_of_not_smulOverflow (by rw [smulOverflow_highMixed]; decide),
      toInt_signExtend_double, toInt_address_double, Xlen.toInt_of_normal hleft]
  rw [result, evaluate, xlen.signed_normalize, signed_highPart, hproduct]
  rw [hproduct]
  exact natAbs_mul_le (xlen.natAbs_signed_le left) (xlen.unsigned_le right)

theorem unsigned_result_multiplyHighUnsigned :
    xlen.unsigned (result xlen left right .multiplyHighUnsigned) =
      xlen.unsigned left * xlen.unsigned right / 2 ^ xlen.bits := by
  have hproduct : ((xlen.address left).setWidth 128 * (xlen.address right).setWidth 128).toNat =
      xlen.unsigned left * xlen.unsigned right := by
    rw [BitVec.toNat_mul_of_not_umulOverflow (by rw [umulOverflow_highUnsigned]; decide),
      toNat_address_double, toNat_address_double]
  have hbound := Nat.mul_le_mul (xlen.unsigned_le left) (xlen.unsigned_le right)
  rw [result, evaluate, xlen.unsigned_normalize, unsigned_highPart, hproduct]
  apply Nat.mod_eq_of_lt
  cases xlen <;> simp only [Xlen.bits] at * <;> omega

theorem signed_ne_zero (hright : xlen.normalize right = right) (hne : right ≠ 0) :
    xlen.signed right ≠ 0 := by
  rw [← Xlen.toInt_of_normal hright]
  exact fun hzero => hne (BitVec.eq_of_toInt_eq hzero)

theorem address_ne_zero (hright : xlen.normalize right = right) (hne : right ≠ 0) :
    xlen.address right ≠ 0 := by
  intro hzero
  rw [← xlen.normalize_address, hzero, xlen.normalize_zero] at hright
  exact hne hright.symm

/-- The quotient of words has the low bits of the quotient of registers as wide as the hart. -/
theorem signed_sdiv (hleft : xlen.normalize left = left) (hright : xlen.normalize right = right) :
    xlen.signed (left.sdiv right) =
      ((left.setWidth xlen.bits).sdiv (right.setWidth xlen.bits)).toInt := by
  rw [xlen.signed_eq_bmod_toInt, BitVec.toInt_sdiv, Int.bmod_bmod_of_dvd xlen.modulus_dvd,
    BitVec.toInt_sdiv, Xlen.toInt_of_normal hleft, Xlen.toInt_of_normal hright, Xlen.signed,
    Xlen.signed]

theorem signed_srem (hleft : xlen.normalize left = left) (hright : xlen.normalize right = right) :
    xlen.signed (left.srem right) = (xlen.signed left).tmod (xlen.signed right) := by
  rw [xlen.signed_eq_bmod_toInt, BitVec.toInt_srem, Xlen.toInt_of_normal hleft,
    Xlen.toInt_of_normal hright, Xlen.signed, Xlen.signed, ← BitVec.toInt_srem]
  exact BitVec.toInt_bmod_cancel _

theorem truncates_divide (hleft : xlen.normalize left = left)
    (hright : xlen.normalize right = right) (hne : right ≠ 0)
    (hfits : ¬xlen.Overflows left right) :
    Truncates (xlen.signed left) (xlen.signed right) (xlen.signed (result xlen left right .divide))
      (xlen.signed (result xlen left right .remainder)) := by
  -- of all quotients only that of the least number by minus one is not exact
  have hquotient : left.setWidth xlen.bits ≠ BitVec.intMin xlen.bits ∨
      right.setWidth xlen.bits ≠ -1 := by
    by_contra hboth
    obtain ⟨hmin, hone⟩ := not_or.mp hboth
    refine hfits ⟨?_, ?_⟩
    · rw [Xlen.signed, not_not.mp hmin]
      cases xlen <;> decide
    · rw [Xlen.signed, not_not.mp hone]
      cases xlen <;> decide
  rw [result, result, evaluate, evaluate, signedQuotient, signedRemainder, if_neg hne, if_neg hne,
    xlen.signed_normalize, xlen.signed_normalize, signed_sdiv hleft hright,
    BitVec.toInt_sdiv_of_ne_or_ne _ _ hquotient, signed_srem hleft hright]
  exact truncates (signed_ne_zero hright hne)

theorem result_of_overflow (hleft : xlen.normalize left = left)
    (hright : xlen.normalize right = right) (hoverflow : xlen.Overflows left right) :
    result xlen left right .divide = left ∧ result xlen left right .remainder = 0 := by
  obtain ⟨hmin, hone⟩ := hoverflow
  have hne : right ≠ 0 := by
    rintro rfl
    cases xlen <;> exact absurd hone (by decide)
  rw [result, result, evaluate, evaluate, signedQuotient, signedRemainder, if_neg hne, if_neg hne]
  constructor
  · -- the quotient is one more than the greatest number, and wraps around to the dividend
    refine Xlen.eq_of_setWidth_eq (xlen.normalize_normalize _) hleft ?_
    apply BitVec.eq_of_toInt_eq
    rw [xlen.setWidth_normalize]
    change xlen.signed (left.sdiv right) = xlen.signed left
    rw [signed_sdiv hleft hright, BitVec.toInt_sdiv]
    change Int.bmod ((xlen.signed left).tdiv (xlen.signed right)) _ = xlen.signed left
    rw [hmin, hone]
    cases xlen <;> decide
  · have hzero : left.srem right = 0 := by
      apply BitVec.eq_of_toInt_eq
      rw [BitVec.toInt_srem, Xlen.toInt_of_normal hright, hone, Int.tmod_neg, Int.tmod_one]
      rfl
    rw [hzero, xlen.normalize_zero]

theorem truncates_divideUnsigned (hright : xlen.normalize right = right) (hne : right ≠ 0) :
    Truncates (xlen.unsigned left) (xlen.unsigned right)
      (xlen.unsigned (result xlen left right .divideUnsigned))
      (xlen.unsigned (result xlen left right .remainderUnsigned)) := by
  have haddress := address_ne_zero hright hne
  have hpositive : xlen.unsigned right ≠ 0 := by
    rw [← xlen.toNat_address]
    exact fun hzero => haddress (BitVec.eq_of_toNat_eq hzero)
  have hless := xlen.unsigned_lt left
  have hquotient : xlen.unsigned (result xlen left right .divideUnsigned) =
      xlen.unsigned left / xlen.unsigned right := by
    rw [result, evaluate, unsignedQuotient, if_neg haddress, xlen.unsigned_normalize,
      xlen.unsigned_eq_mod, BitVec.udiv_eq, BitVec.toNat_udiv, xlen.toNat_address,
      xlen.toNat_address]
    exact Nat.mod_eq_of_lt (Nat.lt_of_le_of_lt (Nat.div_le_self _ _) hless)
  have hremainder : xlen.unsigned (result xlen left right .remainderUnsigned) =
      xlen.unsigned left % xlen.unsigned right := by
    rw [result, evaluate, unsignedRemainder, if_neg haddress, xlen.unsigned_normalize,
      xlen.unsigned_eq_mod, BitVec.umod_eq, BitVec.toNat_umod, xlen.toNat_address,
      xlen.toNat_address]
    exact Nat.mod_eq_of_lt (Nat.lt_of_le_of_lt (Nat.mod_le _ _) hless)
  rw [hquotient, hremainder, Int.ofNat_tdiv, Int.ofNat_tmod]
  exact truncates (Int.natCast_ne_zero.mpr hpositive)

theorem result_zeroDivisor (hleft : xlen.normalize left = left) :
    result xlen left 0 .divide = BitVec.allOnes 64 ∧ result xlen left 0 .remainder = left ∧
      result xlen left 0 .divideUnsigned = BitVec.allOnes 64 ∧
      result xlen left 0 .remainderUnsigned = left := by
  refine ⟨xlen.normalize_allOnes, hleft, ?_, ?_⟩
  · rw [result, evaluate, unsignedQuotient, xlen.address_zero, if_pos rfl, xlen.normalize_allOnes]
  · rw [result, evaluate, unsignedRemainder, xlen.address_zero, if_pos rfl, xlen.normalize_address,
      hleft]

theorem exact_result (hleft : xlen.normalize left = left) (hright : xlen.normalize right = right) :
    xlen.Exact left right (result xlen left right) where
  low := unsigned_result_multiply_of_emod (xlen.signed_emod left) (xlen.signed_emod right)
  lowMixed := by
    refine unsigned_result_multiply_of_emod (xlen.signed_emod left) ?_
    exact_mod_cast Nat.mod_eq_of_lt (xlen.unsigned_lt right)
  lowUnsigned := unsigned_result_multiply
  high := signed_result_multiplyHigh hleft hright
  highMixed := signed_result_multiplyHighMixed hleft
  highUnsigned := unsigned_result_multiplyHighUnsigned
  division := truncates_divide hleft hright
  divisionUnsigned := truncates_divideUnsigned hright
  overflow := result_of_overflow hleft hright
  zeroDivisor := by
    rintro rfl
    exact result_zeroDivisor hleft

end Exact

end Arithmetic

/-! ### Operations that refuse to overflow -/

def signedProduct? (left right : BitVec 128) : Option (BitVec 128) :=
  if left.smulOverflow right then none else some (left * right)

def unsignedProduct? (left right : BitVec 128) : Option (BitVec 128) :=
  if left.umulOverflow right then none else some (left * right)

/-- Quotient and remainder, unless the divisor is zero or the quotient has no room. -/
def signedDivision? (left right : Word) : Option (Word × Word) :=
  if right = 0 ∨ left = BitVec.intMin 64 ∧ right = -1 then none
  else some (left.sdiv right, left.srem right)

def unsignedDivision? (left right : Word) : Option (Word × Word) :=
  if right = 0 then none else some (left.udiv right, left.umod right)

namespace Arithmetic

/-- The computation by operations that refuse to overflow. The instructions themselves say what
becomes of a zero divisor and of the least quotient of 64-bit registers, and the low part of a
product is meant to wrap. -/
def evaluateChecked? (operation : Arithmetic) (xlen : Xlen) (left right : Word) : Option Word :=
  match operation with
  | multiplyHigh =>
      (signedProduct? (left.signExtend 128) (right.signExtend 128)).map (highPart xlen)
  | multiplyHighMixed =>
      (signedProduct? (left.signExtend 128) ((xlen.address right).setWidth 128)).map (highPart xlen)
  | multiplyHighUnsigned =>
      (unsignedProduct? ((xlen.address left).setWidth 128)
        ((xlen.address right).setWidth 128)).map (highPart xlen)
  | divide =>
      if right = 0 then some (BitVec.allOnes 64)
      else if xlen = .x64 ∧ xlen.Overflows left right then some left
      else (signedDivision? left right).map Prod.fst
  | remainder =>
      if right = 0 then some left
      else if xlen = .x64 ∧ xlen.Overflows left right then some 0
      else (signedDivision? left right).map Prod.snd
  | divideUnsigned =>
      if xlen.address right = 0 then some (BitVec.allOnes 64)
      else (unsignedDivision? (xlen.address left) (xlen.address right)).map Prod.fst
  | remainderUnsigned =>
      if xlen.address right = 0 then some (xlen.address left)
      else (unsignedDivision? (xlen.address left) (xlen.address right)).map Prod.snd
  | _ => some (operation.evaluate xlen left right)

section Checked

variable {xlen : Xlen} {left right : Word}

/-- The least word has no room in a narrower register. -/
theorem overflows_of_intMin (hleft : xlen.normalize left = left)
    (hright : xlen.normalize right = right) (hmin : left = BitVec.intMin 64) (hone : right = -1) :
    xlen = .x64 ∧ xlen.Overflows left right := by
  subst hmin hone
  cases xlen with
  | x32 => exact absurd hleft (by decide)
  | x64 => exact ⟨rfl, by decide, by decide⟩

theorem signedDivision_eq_some (hleft : xlen.normalize left = left)
    (hright : xlen.normalize right = right) (hne : right ≠ 0)
    (hfits : ¬(xlen = .x64 ∧ xlen.Overflows left right)) :
    signedDivision? left right = some (left.sdiv right, left.srem right) := by
  rw [signedDivision?, if_neg]
  rintro (hzero | ⟨hmin, hone⟩)
  · exact hne hzero
  · exact hfits (overflows_of_intMin hleft hright hmin hone)

theorem evaluate_of_overflow (hoverflow : Xlen.x64.Overflows left right) :
    evaluate .divide .x64 left right = left ∧ evaluate .remainder .x64 left right = 0 :=
  result_of_overflow rfl rfl hoverflow

/-- No product lacks room, no divisor is zero, and no quotient lacks room by accident. -/
theorem evaluateChecked?_eq_some (operation : Arithmetic) (hleft : xlen.normalize left = left)
    (hright : xlen.normalize right = right) :
    operation.evaluateChecked? xlen left right = some (operation.evaluate xlen left right) := by
  cases operation with
  | multiplyHigh =>
      rw [evaluateChecked?, signedProduct?, if_neg (by rw [smulOverflow_high]; decide)]
      rfl
  | multiplyHighMixed =>
      rw [evaluateChecked?, signedProduct?, if_neg (by rw [smulOverflow_highMixed]; decide)]
      rfl
  | multiplyHighUnsigned =>
      rw [evaluateChecked?, unsignedProduct?, if_neg (by rw [umulOverflow_highUnsigned]; decide)]
      rfl
  | divide =>
      rw [evaluateChecked?]
      split_ifs with hzero hoverflow
      · rw [evaluate, signedQuotient, if_pos hzero]
      · obtain ⟨rfl, hoverflow⟩ := hoverflow
        rw [(evaluate_of_overflow hoverflow).1]
      · rw [signedDivision_eq_some hleft hright hzero hoverflow, evaluate, signedQuotient,
          if_neg hzero]
        rfl
  | remainder =>
      rw [evaluateChecked?]
      split_ifs with hzero hoverflow
      · rw [evaluate, signedRemainder, if_pos hzero]
      · obtain ⟨rfl, hoverflow⟩ := hoverflow
        rw [(evaluate_of_overflow hoverflow).2]
      · rw [signedDivision_eq_some hleft hright hzero hoverflow, evaluate, signedRemainder,
          if_neg hzero]
        rfl
  | divideUnsigned =>
      rw [evaluateChecked?, unsignedDivision?, evaluate, unsignedQuotient]
      split_ifs <;> rfl
  | remainderUnsigned =>
      rw [evaluateChecked?, unsignedDivision?, evaluate, unsignedRemainder]
      split_ifs <;> rfl
  | _ => rfl

end Checked

/-! ### Execution -/

/-- The instructions that multiply and divide registers as wide as the hart. -/
def multiplications : List (String × Arithmetic) := [
  ("MUL", multiply),
  ("MULH", multiplyHigh),
  ("MULHSU", multiplyHighMixed),
  ("MULHU", multiplyHighUnsigned),
  ("DIV", divide),
  ("DIVU", divideUnsigned),
  ("REM", remainder),
  ("REMU", remainderUnsigned)]

end Arithmetic

open OperandField

theorem Catalogue.implements_multiplication : ∀ row ∈ bound,
    ∀ operation ∈ Arithmetic.multiplications.lookup row.declaration.mnemonic,
      row.declaration.arguments = [rd, rs1, rs2] ∧
        row.binding = ⟨.register operation, false, false, .sequential⟩ := by
  decide +kernel

namespace Hart

variable {hart : Hart} {raw : Encoding}

theorem normalize_readRegister (hnormal : hart.registers.Normal hart.xlen) {index : Nat}
    (hindex : index < 32) : hart.xlen.normalize (hart.readRegister index) = hart.readRegister index := by
  rcases Nat.eq_zero_or_pos index with rfl | hpositive
  · exact hart.xlen.normalize_zero
  · exact hnormal index hpositive hindex

theorem register_lt (field : OperandField) (raw : Encoding) : field.register raw < 32 :=
  Nat.mod_lt _ (by decide)

theorem perform_multiplication {entry : Entry} {operation : Arithmetic}
    (hstandard : hart.instructions = .standard) (hdecision : hart.decision raw = .instruction entry)
    (hoperation : Arithmetic.multiplications.lookup entry.declaration.mnemonic = some operation) :
    hart.perform raw = (.retired,
      { hart.writeRegister (rd.register raw) (operation.evaluate hart.xlen
          (hart.readRegister (rs1.register raw)) (hart.readRegister (rs2.register raw))) with
        pc := hart.nextPc raw }) := by
  obtain ⟨row, hrow, hdeclaration, hdispatch, hvalues⟩ := dispatch_of_standard hstandard hdecision
  rw [← hdeclaration] at hoperation
  obtain ⟨harguments, hbinding⟩ := Catalogue.implements_multiplication row hrow operation hoperation
  rw [harguments, hbinding] at hvalues
  rw [perform_of_dispatch hdispatch, hbinding]
  have hget (position : Nat) : (hart.operandsOf row raw).get position =
      [rd.extract raw, rs1.extract raw, rs2.extract raw].getD position 0 := by
    rw [Operands.get, hvalues]
    rfl
  simp only [Operation.execute, Operands.register, hget, conclude]
  rfl

/-- Multiplications and divisions retire with exact results, in which no computation overflows or
divides by zero. -/
theorem executeNext_multiplication {entry : Entry} {operation : Arithmetic}
    (hstandard : hart.instructions = .standard) (hnormal : hart.registers.Normal hart.xlen)
    (hfetch : (hart.fetch hart.pc).1 = .ok raw) (hdecision : hart.decision raw = .instruction entry)
    (hoperation : Arithmetic.multiplications.lookup entry.declaration.mnemonic = some operation) :
    let left := hart.readRegister (rs1.register raw)
    let right := hart.readRegister (rs2.register raw)
    let result := Arithmetic.result hart.xlen left right
    hart.attempt.1 = .retired ∧
      hart.executeNext.registers = hart.registers.write (rd.register raw) (result operation) ∧
      hart.xlen.Exact left right result ∧
      (∀ operation, hart.xlen.normalize (result operation) = result operation) ∧
      ∀ operation, Arithmetic.evaluateChecked? operation hart.xlen left right =
        some (operation.evaluate hart.xlen left right) := by
  intro left right result
  have hleft : hart.xlen.normalize left = left :=
    normalize_readRegister hnormal (register_lt rs1 raw)
  have hright : hart.xlen.normalize right = right :=
    normalize_readRegister hnormal (register_lt rs2 raw)
  have hexecute : hart.attempt.1 = .retired ∧
      hart.executeNext.registers = hart.registers.write (rd.register raw) (result operation) := by
    obtain ⟨ready, ⟨translation, journal, rfl⟩, hattempt⟩ := attempt_of_fetch hfetch
    have hperform : ({ hart with translation := translation, journal := journal } : Hart).perform
        raw = (.retired, _) := perform_multiplication hstandard hdecision hoperation
    rw [executeNext, hattempt, hperform]
    exact ⟨rfl, rfl⟩
  exact ⟨hexecute.1, hexecute.2, Arithmetic.exact_result hleft hright,
    fun operation => hart.xlen.normalize_normalize _,
    fun operation => operation.evaluateChecked?_eq_some hleft hright⟩

/-- The high part `-1` of `-1 * 0x80000000` from `mulhsu x7, x5, x6`. -/
theorem executeNext_multiplication_mixed :
    let hart := { facing 0x0262A3B3 with
      xlen := .x32
      registers := ((RegisterFile.zero 32).write 5 (BitVec.allOnes 64)).write 6 0xFFFFFFFF80000000 }
    hart.attempt.1 = .retired ∧
      hart.executeNext.registers = hart.registers.write 7 (BitVec.allOnes 64) := by
  intro hart
  have hfetch : (hart.fetch hart.pc).1 = .ok 0x0262A3B3 := by decide +kernel
  have hstandard : hart.instructions = .standard := by simp only [hart, facing_instructions]
  have hnormal : hart.registers.Normal hart.xlen :=
    ((RegisterFile.normal_zero .x32).write 5 (BitVec.allOnes 64)).write 6 0x80000000
  have honly : Catalogue.Only .x32 0x0262A3B3 "MULHSU" := by decide +kernel
  obtain ⟨entry, hdecision, hmnemonic⟩ := honly.exists_decide
  have hlookup : hart.decision 0x0262A3B3 = .instruction entry := by
    rw [decision, hstandard]
    exact hdecision
  have hoperation : Arithmetic.multiplications.lookup entry.declaration.mnemonic =
      some .multiplyHighMixed := by
    rw [hmnemonic]
    rfl
  have hresult : Arithmetic.result hart.xlen (hart.readRegister (rs1.register 0x0262A3B3))
      (hart.readRegister (rs2.register 0x0262A3B3)) .multiplyHighMixed = BitVec.allOnes 64 := by
    decide +kernel
  obtain ⟨hretired, hregisters, -⟩ :=
    executeNext_multiplication hstandard hnormal hfetch hlookup hoperation
  rw [hresult] at hregisters
  exact ⟨hretired, hregisters⟩

end Hart

end RiscvMachine
