import RiscvMachine.Instruction.Layout
/-!
Where the bits of operand values come from. A bit of an operand is a constant or a copy of one bit
of the encoding, so two operands are equal for every encoding if their bits have the same sources.
-/

namespace RiscvMachine

inductive BitSource where
  | constant (value : Bool)
  /-- A bit of an encoding, by its position. -/
  | bit (index : Nat)
  deriving DecidableEq

def BitSource.value (raw : Encoding) : BitSource → Bool
  | constant value => value
  | bit index => raw.getLsbD index

theorem getLsbD_lowMask {length position : Nat} :
    (lowMask length).getLsbD position = (decide (position < length) && decide (position < 32)) := by
  by_cases hlength : length < 32
  · have hvalue : (lowMask length).toNat = 2 ^ length - 1 := by
      have hpower : 2 ^ length < 2 ^ 32 := Nat.pow_lt_pow_right (by decide) hlength
      have hpositive : 0 < 2 ^ length := Nat.two_pow_pos length
      rw [lowMask, BitVec.toNat_sub, BitVec.natCast_eq_ofNat, Nat.shiftLeft_eq, Nat.one_mul,
        BitVec.toNat_ofNat, Nat.mod_eq_of_lt hpower]
      have hone : (1 : Encoding).toNat = 1 := rfl
      omega
    rw [BitVec.getLsbD, hvalue, Nat.testBit_two_pow_sub_one]
    by_cases hposition : position < length
    · simp [hposition, Nat.lt_trans hposition hlength]
    · simp [hposition]
  · have hzero : ((1 <<< length : Nat) : Encoding) = 0 := by
      apply BitVec.eq_of_toNat_eq
      rw [BitVec.natCast_eq_ofNat, BitVec.toNat_ofNat, Nat.shiftLeft_eq, Nat.one_mul]
      exact Nat.mod_eq_zero_of_dvd (Nat.pow_dvd_pow 2 (Nat.le_of_not_lt hlength))
    have hall : lowMask length = BitVec.allOnes 32 := by
      rw [lowMask, hzero]
      rfl
    rw [hall, BitVec.getLsbD_allOnes]
    by_cases hposition : position < 32
    · simp [hposition, Nat.lt_of_lt_of_le hposition (Nat.le_of_not_lt hlength)]
    · simp [hposition]

/-- Joined parts have the bits of all of them. -/
theorem getLsbD_foldl_or {α : Type} {count : Nat} (part : α → BitVec count) (elements : List α)
    (start : BitVec count) (position : Nat) :
    (elements.foldl (fun word element => word ||| part element) start).getLsbD position =
      (start.getLsbD position || elements.any fun element => (part element).getLsbD position) := by
  induction elements generalizing start with
  | nil => simp
  | cons first rest ih =>
      rw [List.foldl_cons, ih, BitVec.getLsbD_or, List.any_cons, Bool.or_assoc]

namespace Segment

/-- The segment contributes the bit of a value at `position`. -/
def covers (segment : Segment) (position : Nat) : Bool :=
  segment.target ≤ position && position < segment.target + segment.length

def source (segment : Segment) (position : Nat) : BitSource :=
  .bit (segment.low + (position - segment.target))

theorem getLsbD_extract (segment : Segment) (raw : Encoding) {position : Nat}
    (hposition : position < 64) :
    (segment.extract raw).getLsbD position =
      (segment.covers position && (segment.source position).value raw) := by
  rw [extract, BitVec.getLsbD_shiftLeft, BitVec.getLsbD_setWidth, BitVec.getLsbD_and,
    BitVec.getLsbD_ushiftRight, getLsbD_lowMask, covers, source, BitSource.value]
  by_cases htarget : segment.target ≤ position
  · by_cases hhigh : position - segment.target < 32
    · have hlength : position - segment.target < segment.length ↔
          position < segment.target + segment.length := by omega
      have hnarrow : position - segment.target < 64 := by omega
      simp [hposition, htarget, hhigh, hlength, hnarrow, Bool.and_comm]
    · have hclear : raw.getLsbD (segment.low + (position - segment.target)) = false :=
        BitVec.getLsbD_of_ge raw _ (by omega)
      simp [hclear]
  · simp [htarget]

end Segment

namespace OperandField

/-- The source of a bit of joined segments, unless several of them cover it. -/
def joinedSource? (segments : List Segment) (position : Nat) : Option BitSource :=
  match segments.filter fun segment => segment.covers position with
  | [] => some (.constant false)
  | [segment] => some (segment.source position)
  | _ => none

/-- The source of a bit of an operand; the highest bit of a signed one has many copies. -/
def source? (field : OperandField) (position : Nat) : Option BitSource :=
  match field with
  | bits segments signed =>
      let width := width segments
      joinedSource? segments
        (if signed ∧ 0 < width ∧ width < 64 then min position (width - 1) else position)
  | compressedRegister low =>
      some (if position < 3 then .bit (low + position) else .constant (position = 3))
  | constant value => some (.constant (value.getLsbD position))

theorem getLsbD_joined {segments : List Segment} {position : Nat} {source : BitSource}
    (hposition : position < 64) (hsource : joinedSource? segments position = some source)
    (raw : Encoding) :
    (segments.foldl (fun value (segment : Segment) => value ||| segment.extract raw) 0).getLsbD
      position = source.value raw := by
  have hbits : (segments.any fun segment : Segment => (segment.extract raw).getLsbD position) =
      (segments.filter fun segment => segment.covers position).any fun segment =>
        (segment.source position).value raw := by
    rw [List.any_filter]
    simp only [Segment.getLsbD_extract _ raw hposition]
  rw [getLsbD_foldl_or, hbits]
  rw [joinedSource?] at hsource
  split at hsource
  · rename_i hnone
    cases hsource
    simp [hnone, BitSource.value]
  · rename_i segment hone
    cases hsource
    simp [hone]
  · cases hsource

theorem getLsbD_signExtendFrom {width position : Nat} (hpositive : 0 < width) (hwidth : width < 64)
    (hposition : position < 64) (value : Word) :
    (signExtendFrom width value).getLsbD position = value.getLsbD (min position (width - 1)) := by
  rw [signExtendFrom, if_pos ⟨hpositive, hwidth⟩, BitVec.getLsbD_sshiftRight,
    BitVec.msb_eq_getLsbD_last, BitVec.getLsbD_shiftLeft, BitVec.getLsbD_shiftLeft]
  by_cases hlow : position < width
  · have hinside : 64 - width + position < 64 := by omega
    have hmin : min position (width - 1) = position := by omega
    have hshift : ¬64 - width + position < 64 - width := by omega
    simp [hposition, hinside, hmin, hshift]
  · have houtside : ¬64 - width + position < 64 := by omega
    have hmin : min position (width - 1) = width - 1 := by omega
    have hlast : 64 - 1 - (64 - width) = width - 1 := by omega
    have hshift : ¬64 - 1 < 64 - width := by omega
    simp [hposition, houtside, hmin, hlast, hshift]

theorem getLsbD_compressedRegister (low : Nat) (raw : Encoding) {position : Nat}
    (hposition : position < 64) :
    ((compressedRegister low).extract raw).getLsbD position =
      if position < 3 then raw.getLsbD (low + position) else decide (position = 3) := by
  have hseven (position : Nat) : (7 : Encoding).getLsbD position = decide (position < 3) := by
    have hmask : (7 : Encoding) = lowMask 3 := by decide
    rw [hmask, getLsbD_lowMask]
    by_cases hlow : position < 3
    · simp [hlow, Nat.lt_trans hlow (show 3 < 32 by decide)]
    · simp [hlow]
  have height (position : Nat) : (8 : Word).getLsbD position = decide (position = 3) := by
    have hflag : (8 : Word) = BitVec.twoPow 64 3 := by decide
    rw [hflag, BitVec.getLsbD_twoPow]
    simp [eq_comm]
  have hdisjoint : (8 : Word) &&& ((raw >>> low) &&& 7).setWidth 64 = 0 := by
    apply BitVec.eq_of_getLsbD_eq
    intro other _
    rw [BitVec.getLsbD_and, height, BitVec.getLsbD_setWidth, BitVec.getLsbD_and, hseven]
    by_cases hthree : other = 3 <;> simp [hthree]
  rw [extract, BitVec.add_eq_or_of_and_eq_zero _ _ hdisjoint, BitVec.getLsbD_or, height,
    BitVec.getLsbD_setWidth, BitVec.getLsbD_and, BitVec.getLsbD_ushiftRight, hseven]
  by_cases hlow : position < 3
  · have hne : position ≠ 3 := by omega
    simp [hposition, hlow, hne]
  · simp [hlow]

/-- Every bit of an operand is what its source says. -/
theorem getLsbD_extract {field : OperandField} {position : Nat} {source : BitSource}
    (hposition : position < 64) (hsource : field.source? position = some source) (raw : Encoding) :
    (field.extract raw).getLsbD position = source.value raw := by
  cases field with
  | constant value =>
      cases hsource
      rfl
  | compressedRegister low =>
      cases hsource
      rw [getLsbD_compressedRegister low raw hposition]
      split <;> rfl
  | bits segments signed =>
      rw [source?] at hsource
      rw [extract]
      split at hsource
      · rename_i hextends
        obtain ⟨hsigned, hpositive, hwidth⟩ := hextends
        rw [if_pos hsigned, getLsbD_signExtendFrom hpositive hwidth hposition]
        exact getLsbD_joined (by omega) hsource raw
      · rename_i hplain
        have hvalue (value : Word) :
            (if signed = true then signExtendFrom (width segments) value else value) = value := by
          split
          · rename_i hsigned
            rw [signExtendFrom, if_neg fun hwidth => hplain ⟨hsigned, hwidth⟩]
          · rfl
        rw [hvalue]
        exact getLsbD_joined hposition hsource raw

/-- A field of one segment is a slice of the encoding. -/
theorem extract_slice (low length : Nat) (raw : Encoding) :
    (unsignedBits [(low, length, 0)]).extract raw = (raw.extractLsb' low length).setWidth 64 := by
  apply BitVec.eq_of_getLsbD_eq
  intro position hposition
  have hsource : (unsignedBits [(low, length, 0)]).extract raw =
      0 ||| Segment.extract ⟨low, length, 0⟩ raw := rfl
  rw [hsource, BitVec.getLsbD_or, Segment.getLsbD_extract _ raw hposition, BitVec.getLsbD_setWidth,
    BitVec.getLsbD_extractLsb']
  simp [Segment.covers, Segment.source, BitSource.value, hposition]

/-- A signed field extends the number that its segments spell. -/
theorem extract_signed {segments : List Segment} {count : Nat} {value : BitVec count}
    {raw : Encoding} (hwidth : width segments = count) (hpositive : 0 < count) (hcount : count < 64)
    (hbits : ∀ position < count,
      (segments.any fun segment => segment.covers position && (segment.source position).value raw) =
        value.getLsbD position) :
    (bits segments true).extract raw = value.signExtend 64 := by
  apply BitVec.eq_of_getLsbD_eq
  intro position hposition
  have hjoined : ∀ other < count, (segments.foldl
      (fun value segment => value ||| segment.extract raw) (0 : Word)).getLsbD other =
        value.getLsbD other := by
    intro other hother
    have hword : other < 64 := by omega
    rw [getLsbD_foldl_or, ← hbits other hother]
    simp only [Segment.getLsbD_extract _ raw hword]
    simp
  have hextract : (bits segments true).extract raw = signExtendFrom count
      (segments.foldl (fun value segment => value ||| segment.extract raw) 0) := by
    rw [← hwidth]
    rfl
  rw [hextract, getLsbD_signExtendFrom hpositive hcount hposition, hjoined _ (by omega),
    BitVec.getLsbD_signExtend]
  by_cases hlow : position < count
  · have hmin : min position (count - 1) = position := by omega
    simp [hposition, hlow, hmin]
  · have hmin : min position (count - 1) = count - 1 := by omega
    simp [hposition, hlow, hmin, BitVec.msb_eq_getLsbD_last]

end OperandField

end RiscvMachine
