import Mathlib.Data.List.Forall2
import Mathlib.Data.List.Pairwise
import RiscvMachine.Proofs.FixedBits
import RiscvMachine.Proofs.OperandBits
/-!
Operands put into an encoding and taken out again. A field reads the bits that it occupies and no
others, and puts back what it has read there. So where the fields of a declaration keep off its fixed
bits and off each other, no operand is lost and none disturbs another.
-/

namespace RiscvMachine

namespace Segment

/-- The segment has bits, and they lie inside of an encoding and of a value. -/
def Fits (segment : Segment) : Prop :=
  0 < segment.length ∧ segment.low + segment.length ≤ 32 ∧ segment.target + segment.length ≤ 64

instance (segment : Segment) : Decidable segment.Fits :=
  inferInstanceAs (Decidable (_ ∧ _))

/-- The two segments place their bits apart from each other. -/
def Apart (segment other : Segment) : Prop :=
  segment.target + segment.length ≤ other.target ∨ other.target + other.length ≤ segment.target

instance : DecidableRel Apart :=
  fun _ _ => inferInstanceAs (Decidable (_ ∨ _))

instance : Std.Symm Apart :=
  ⟨fun _ _ hapart => hapart.symm⟩

theorem getLsbD_occupied {segment : Segment} {position : Nat} :
    segment.occupied.getLsbD position = true ↔
      segment.low ≤ position ∧ position < segment.low + segment.length ∧ position < 32 := by
  simp only [occupied, BitVec.getLsbD_shiftLeft, getLsbD_lowMask, Bool.and_eq_true,
    Bool.not_eq_true', decide_eq_true_iff, decide_eq_false_iff_not]
  omega

theorem getLsbD_insert (segment : Segment) (value : Word) (position : Nat) :
    (segment.insert value).getLsbD position = (segment.occupied.getLsbD position &&
      value.getLsbD (segment.target + (position - segment.low))) := by
  rw [insert, occupied, BitVec.getLsbD_shiftLeft, BitVec.getLsbD_shiftLeft, BitVec.getLsbD_and,
    BitVec.getLsbD_setWidth, BitVec.getLsbD_ushiftRight, getLsbD_lowMask]
  by_cases hinside : position < 32
  · have hnarrow : position - segment.low < 32 := by omega
    simp [hinside, hnarrow, Bool.and_comm, Bool.and_assoc]
  · simp [hinside]

/-- A segment reads no bit that it does not occupy. -/
theorem extract_congr {segment : Segment} {raw other : Encoding}
    (hagree : ∀ position, segment.occupied.getLsbD position = true →
      raw.getLsbD position = other.getLsbD position) :
    segment.extract raw = segment.extract other := by
  apply BitVec.eq_of_getLsbD_eq
  intro position hposition
  rw [getLsbD_extract segment raw hposition, getLsbD_extract segment other hposition]
  by_cases hcovers : segment.covers position = true
  · have hread : raw.getLsbD (segment.low + (position - segment.target)) =
        other.getLsbD (segment.low + (position - segment.target)) := by
      by_cases hinside : segment.low + (position - segment.target) < 32
      · refine hagree _ (getLsbD_occupied.mpr ⟨Nat.le_add_right _ _, ?_, hinside⟩)
        rw [covers, Bool.and_eq_true, decide_eq_true_iff, decide_eq_true_iff] at hcovers
        omega
      · rw [BitVec.getLsbD_of_ge raw _ (Nat.le_of_not_lt hinside),
          BitVec.getLsbD_of_ge other _ (Nat.le_of_not_lt hinside)]
    rw [source, BitSource.value, BitSource.value, hread]
  · rw [Bool.eq_false_of_not_eq_true hcovers, Bool.false_and, Bool.false_and]

end Segment

namespace OperandField

/-- The segments lie inside of an encoding and have places of their own in the value; a register
number begins inside of the encoding. -/
def WellFormed : OperandField → Prop
  | bits segments _ => (∀ segment ∈ segments, segment.Fits) ∧ segments.Pairwise Segment.Apart
  | compressedRegister low => low < 32
  | constant _ => True

instance : DecidablePred WellFormed
  | bits _ _ => inferInstanceAs (Decidable (_ ∧ _))
  | compressedRegister _ => inferInstanceAs (Decidable (_ < _))
  | constant _ => inferInstanceAs (Decidable True)

/-! ### What a field reads -/

theorem occupied_compressedRegister (low : Nat) :
    (compressedRegister low).occupied = (7 : Encoding) <<< low := by
  apply BitVec.eq_of_toNat_eq
  rw [occupied, BitVec.toNat_shiftLeft, BitVec.natCast_eq_ofNat, BitVec.toNat_ofNat]
  rfl

theorem getLsbD_occupied_bits {segments : List Segment} {signed : Bool} {position : Nat} :
    (bits segments signed).occupied.getLsbD position =
      segments.any fun segment => segment.occupied.getLsbD position := by
  rw [occupied, getLsbD_foldl_or]
  simp

/-- A field reads no bit that it does not occupy. -/
theorem extract_congr {field : OperandField} {raw other : Encoding}
    (hagree : ∀ position, field.occupied.getLsbD position = true →
      raw.getLsbD position = other.getLsbD position) :
    field.extract raw = field.extract other := by
  cases field with
  | constant value => rfl
  | compressedRegister low =>
      have hread : (raw >>> low) &&& 7 = (other >>> low) &&& 7 := by
        refine Decoder.and_eq_and_iff.mpr fun position hlow => ?_
        rw [BitVec.getLsbD_ushiftRight, BitVec.getLsbD_ushiftRight]
        by_cases hinside : low + position < 32
        · refine hagree _ ?_
          rw [occupied_compressedRegister, BitVec.getLsbD_shiftLeft, Nat.add_sub_cancel_left, hlow]
          simp [hinside]
        · rw [BitVec.getLsbD_of_ge raw _ (Nat.le_of_not_lt hinside),
            BitVec.getLsbD_of_ge other _ (Nat.le_of_not_lt hinside)]
      rw [extract, extract, hread]
  | bits segments signed =>
      have hread : ∀ segment ∈ segments, segment.extract raw = segment.extract other := by
        intro segment hmem
        refine Segment.extract_congr fun position hposition => hagree position ?_
        rw [getLsbD_occupied_bits]
        exact List.any_eq_true.mpr ⟨segment, hmem, hposition⟩
      have hjoined : segments.foldl (fun value segment => value ||| segment.extract raw) 0 =
          segments.foldl (fun value segment => value ||| segment.extract other) (0 : Word) :=
        List.foldl_ext _ _ _ fun value segment hmem => by rw [hread segment hmem]
      rw [extract, extract, hjoined]

/-! ### What a field puts back -/

theorem getLsbD_insert_bits {segments : List Segment} {signed : Bool} (value : Word)
    (position : Nat) :
    ((bits segments signed).insert value).getLsbD position =
      segments.any fun segment => (segment.insert value).getLsbD position := by
  rw [insert, getLsbD_foldl_or]
  simp

/-- A field sets no bit that it does not occupy. -/
theorem occupied_of_insert {field : OperandField} {value : Word} {position : Nat}
    (hset : (field.insert value).getLsbD position = true) :
    field.occupied.getLsbD position = true := by
  cases field with
  | constant value => simp [insert] at hset
  | compressedRegister low =>
      rw [insert, BitVec.getLsbD_shiftLeft, BitVec.getLsbD_and, Bool.and_eq_true_iff] at hset
      rw [occupied_compressedRegister, BitVec.getLsbD_shiftLeft, Bool.and_eq_true_iff]
      exact ⟨hset.1, (Bool.and_eq_true_iff.mp hset.2).2⟩
  | bits segments signed =>
      rw [getLsbD_insert_bits] at hset
      obtain ⟨segment, hmem, hinsert⟩ := List.any_eq_true.mp hset
      rw [Segment.getLsbD_insert, Bool.and_eq_true] at hinsert
      rw [getLsbD_occupied_bits]
      exact List.any_eq_true.mpr ⟨segment, hmem, hinsert.1⟩

theorem le_width {segments : List Segment} {segment : Segment} (hmem : segment ∈ segments) :
    segment.target + segment.length ≤ width segments := by
  have hfold : ∀ (segments : List Segment) (start : Nat),
      start ≤ segments.foldl (fun width segment => max width (segment.target + segment.length))
        start ∧ ∀ segment ∈ segments, segment.target + segment.length ≤
          segments.foldl (fun width segment => max width (segment.target + segment.length))
            start := by
    intro segments
    induction segments with
    | nil => simp
    | cons first rest ih =>
        intro start
        obtain ⟨hstart, hrest⟩ := ih (max start (first.target + first.length))
        rw [List.foldl_cons]
        refine ⟨(le_max_left _ _).trans hstart, List.forall_mem_cons.mpr ⟨?_, hrest⟩⟩
        exact (le_max_right _ _).trans hstart
  exact (hfold segments 0).2 segment hmem

/-- The extension of a sign leaves the bits of the segments as they are. -/
theorem getLsbD_extract_of_lt_width {segments : List Segment} {signed : Bool} {position : Nat}
    (hwidth : position < width segments) (hposition : position < 64) (raw : Encoding) :
    ((bits segments signed).extract raw).getLsbD position =
      segments.any fun segment => segment.covers position &&
        (segment.source position).value raw := by
  have hjoined : (segments.foldl (fun value segment => value ||| segment.extract raw)
      (0 : Word)).getLsbD position = segments.any fun segment => segment.covers position &&
        (segment.source position).value raw := by
    rw [getLsbD_foldl_or]
    simp only [Segment.getLsbD_extract _ raw hposition]
    simp
  rw [← hjoined, extract]
  cases signed with
  | false => rfl
  | true =>
      by_cases hnarrow : width segments < 64
      · rw [if_pos rfl, getLsbD_signExtendFrom (by omega) hnarrow hposition,
          Nat.min_eq_left (by omega)]
      · rw [if_pos rfl, signExtendFrom, if_neg fun hboth => hnarrow hboth.2]

/-- The place of an encoding bit in a value holds that bit and no other one. -/
theorem getLsbD_extract_target {segments : List Segment} {signed : Bool}
    (hwell : (bits segments signed).WellFormed) {segment : Segment} (hmem : segment ∈ segments)
    {position : Nat} (hposition : segment.occupied.getLsbD position = true) (raw : Encoding) :
    ((bits segments signed).extract raw).getLsbD (segment.target + (position - segment.low)) =
      raw.getLsbD position := by
  obtain ⟨hlow, hhigh, -⟩ := Segment.getLsbD_occupied.mp hposition
  obtain ⟨-, -, htarget⟩ := hwell.1 segment hmem
  have hwidth := le_width hmem
  have hback : segment.low + (segment.target + (position - segment.low) - segment.target) =
      position := by omega
  have hcovers : segment.covers (segment.target + (position - segment.low)) = true := by
    rw [Segment.covers, Bool.and_eq_true, decide_eq_true_iff, decide_eq_true_iff]
    omega
  have honly : ∀ other ∈ segments,
      other.covers (segment.target + (position - segment.low)) = true → other = segment := by
    intro other hother hboth
    by_contra hne
    have hapart : other.Apart segment :=
      hwell.2.forall hother hmem hne
    rw [Segment.covers, Bool.and_eq_true, decide_eq_true_iff, decide_eq_true_iff] at hboth
    rw [Segment.Apart] at hapart
    omega
  rw [getLsbD_extract_of_lt_width (by omega) (by omega), Bool.eq_iff_iff, List.any_eq_true]
  constructor
  · rintro ⟨other, hother, hread⟩
    rw [Bool.and_eq_true] at hread
    rw [honly other hother hread.1, Segment.source, BitSource.value, hback] at hread
    exact hread.2
  · intro hset
    refine ⟨segment, hmem, ?_⟩
    rw [hcovers, Segment.source, BitSource.value, hback, hset, Bool.true_and]

/-- What a field has read is what it puts back in its place. -/
theorem insert_extract {field : OperandField} (hwell : field.WellFormed) (raw : Encoding) :
    field.insert (field.extract raw) = raw &&& field.occupied := by
  apply BitVec.eq_of_getLsbD_eq
  intro position hposition
  cases field with
  | constant value => simp [insert, occupied]
  | compressedRegister low =>
      have hnumber : (((8 : Word) + ((raw >>> low) &&& 7).setWidth 64) - 8).setWidth 32 =
          (raw >>> low) &&& 7 := by
        rw [BitVec.add_comm, BitVec.add_sub_cancel, BitVec.setWidth_setWidth_of_le _ (by decide),
          BitVec.setWidth_eq]
      rw [insert, extract, hnumber, occupied_compressedRegister, BitVec.and_assoc, BitVec.and_self,
        BitVec.getLsbD_and, BitVec.getLsbD_shiftLeft, BitVec.getLsbD_shiftLeft, BitVec.getLsbD_and,
        BitVec.getLsbD_ushiftRight]
      by_cases hlow : position < low
      · simp [hlow]
      · have hback : low + (position - low) = position := by omega
        simp [hlow, hposition, hback]
  | bits segments signed =>
      rw [getLsbD_insert_bits, BitVec.getLsbD_and, getLsbD_occupied_bits, Bool.eq_iff_iff,
        Bool.and_eq_true, List.any_eq_true, List.any_eq_true]
      have hback : ∀ segment ∈ segments,
          (segment.insert ((bits segments signed).extract raw)).getLsbD position = true ↔
            raw.getLsbD position = true ∧ segment.occupied.getLsbD position = true := by
        intro segment hmem
        rw [Segment.getLsbD_insert, Bool.and_eq_true, and_comm]
        refine and_congr_left fun hoccupied => ?_
        rw [getLsbD_extract_target hwell hmem hoccupied]
      constructor
      · rintro ⟨segment, hmem, hinsert⟩
        obtain ⟨hset, hoccupied⟩ := (hback segment hmem).mp hinsert
        exact ⟨hset, segment, hmem, hoccupied⟩
      · rintro ⟨hset, segment, hmem, hoccupied⟩
        exact ⟨segment, hmem, (hback segment hmem).mpr ⟨hset, hoccupied⟩⟩

end OperandField

namespace Declaration

/-- The bits that operands occupy. -/
def occupied (declaration : Declaration) : Encoding :=
  declaration.arguments.foldl (fun word field => word ||| field.occupied) 0

theorem getLsbD_declaration_occupied {declaration : Declaration} {position : Nat} :
    declaration.occupied.getLsbD position =
      declaration.arguments.any fun field => field.occupied.getLsbD position := by
  rw [occupied, getLsbD_foldl_or]
  simp

/-- The fixed bits and the different fields of a declaration keep off each other. -/
structure WellFormed (declaration : Declaration) : Prop where
  pattern : declaration.pattern &&& ~~~declaration.mask = 0
  arity : declaration.arguments.length ≤ Operands.maxArity
  fields : ∀ field ∈ declaration.arguments, field.WellFormed
  clear : ∀ field ∈ declaration.arguments, field.occupied &&& declaration.mask = 0
  apart : ∀ field ∈ declaration.arguments, ∀ other ∈ declaration.arguments, field ≠ other →
    field.occupied &&& other.occupied = 0

instance (declaration : Declaration) : Decidable declaration.WellFormed :=
  decidable_of_iff
    (declaration.pattern &&& ~~~declaration.mask = 0 ∧
      declaration.arguments.length ≤ Operands.maxArity ∧
      (∀ field ∈ declaration.arguments, field.WellFormed) ∧
      (∀ field ∈ declaration.arguments, field.occupied &&& declaration.mask = 0) ∧
      ∀ field ∈ declaration.arguments, ∀ other ∈ declaration.arguments, field ≠ other →
        field.occupied &&& other.occupied = 0)
    ⟨fun ⟨hpattern, harity, hfields, hclear, hapart⟩ =>
        ⟨hpattern, harity, hfields, hclear, hapart⟩,
      fun ⟨hpattern, harity, hfields, hclear, hapart⟩ =>
        ⟨hpattern, harity, hfields, hclear, hapart⟩⟩

/-- Each value is one that its field can hold, and equal fields have equal values. -/
structure Admits (declaration : Declaration) (values : List Word) : Prop where
  image : List.Forall₂ (fun field value => ∃ raw, OperandField.extract field raw = value)
    declaration.arguments values
  repeated : ∀ held ∈ declaration.arguments.zip values, ∀ other ∈ declaration.arguments.zip values,
    held.1 = other.1 → held.2 = other.2

namespace WellFormed

variable {declaration : Declaration} {raw : Encoding} {values : List Word}

theorem patternInMask (hwell : declaration.WellFormed) : declaration.PatternInMask :=
  and_not_eq_zero_iff.mp hwell.pattern

/-- No field occupies a fixed bit. -/
theorem clear_of_occupied (hwell : declaration.WellFormed) {field : OperandField}
    (hmem : field ∈ declaration.arguments) {position : Nat}
    (hoccupied : field.occupied.getLsbD position = true) :
    declaration.mask.getLsbD position = false := by
  have hapart := congrArg (fun word => word.getLsbD position) (hwell.clear field hmem)
  simpa [hoccupied] using hapart

/-- Fields that occupy the same bit are the same field. -/
theorem eq_of_occupied (hwell : declaration.WellFormed) {field other : OperandField}
    (hmem : field ∈ declaration.arguments) (hother : other ∈ declaration.arguments) {position : Nat}
    (hoccupied : field.occupied.getLsbD position = true)
    (hotherOccupied : other.occupied.getLsbD position = true) : field = other := by
  by_contra hne
  have hapart := congrArg (fun word => word.getLsbD position)
    (hwell.apart field hmem other hother hne)
  simp [hoccupied, hotherOccupied] at hapart

theorem getLsbD_encode (values : List Word) (position : Nat) :
    (declaration.encode values).getLsbD position = (declaration.pattern.getLsbD position ||
      (declaration.arguments.zip values).any fun held => (held.1.insert held.2).getLsbD position) :=
  getLsbD_foldl_or _ _ _ _

/-- Whatever the operands are, the fixed bits stay as declared. -/
theorem accepts_encode (hwell : declaration.WellFormed) (values : List Word) :
    declaration.accepts (declaration.encode values) = true := by
  refine (accepts_iff hwell.patternInMask).mpr fun position hfixed => ?_
  rw [getLsbD_encode]
  have hnone : ((declaration.arguments.zip values).any fun held =>
      (held.1.insert held.2).getLsbD position) = false := by
    refine List.any_eq_false.mpr fun held hheld hset => ?_
    have hclear := hwell.clear_of_occupied (List.of_mem_zip hheld).1
      (OperandField.occupied_of_insert hset)
    exact Bool.false_ne_true (hclear.symm.trans hfixed)
  rw [hnone, Bool.or_false]

/-- An operand is found again where it was put. -/
theorem extract_encode (hwell : declaration.WellFormed) (hadmits : declaration.Admits values)
    {field : OperandField} {value : Word}
    (hheld : (field, value) ∈ declaration.arguments.zip values) :
    field.extract (declaration.encode values) = value := by
  obtain ⟨raw, hraw⟩ := (List.forall₂_iff_zip.mp hadmits.image).2 hheld
  have hmem := (List.of_mem_zip hheld).1
  have hinsert : field.insert value = raw &&& field.occupied := by
    rw [← hraw, OperandField.insert_extract (hwell.fields field hmem)]
  rw [← hraw]
  refine OperandField.extract_congr fun position hoccupied => ?_
  have hpattern : declaration.pattern.getLsbD position = false := by
    refine Bool.eq_false_of_not_eq_true fun hset => ?_
    have hclear := hwell.clear_of_occupied hmem hoccupied
    exact Bool.false_ne_true (hclear.symm.trans (hwell.patternInMask position hset))
  have hbit : (field.insert value).getLsbD position = raw.getLsbD position := by
    rw [hinsert, BitVec.getLsbD_and, hoccupied, Bool.and_true]
  rw [getLsbD_encode, hpattern, Bool.false_or, ← hbit, Bool.eq_iff_iff, List.any_eq_true]
  constructor
  · -- a bit of this field is set by an equal field only, and that has the same value
    rintro ⟨other, hother, hset⟩
    have hsame := hwell.eq_of_occupied hmem (List.of_mem_zip hother).1 hoccupied
      (OperandField.occupied_of_insert hset)
    have hvalue : value = other.2 := hadmits.repeated _ hheld other hother hsame
    rwa [hvalue, hsame]
  · exact fun hset => ⟨(field, value), hheld, hset⟩

theorem apply_encode (hwell : declaration.WellFormed) (hadmits : declaration.Admits values) :
    (declaration.apply (declaration.encode values)).values = values := by
  rw [values_apply hwell.arity]
  have hlength := hadmits.image.length_eq
  have heq : List.Forall₂ (fun field value => field.extract (declaration.encode values) = value)
      declaration.arguments values :=
    List.forall₂_iff_zip.mpr ⟨hlength, fun hheld => hwell.extract_encode hadmits hheld⟩
  rwa [← List.forall₂_map_left_iff, List.forall₂_eq_eq_eq] at heq

/-- Of an encoding that is accepted nothing is lost but the bits that mean nothing. -/
theorem encode_apply (hwell : declaration.WellFormed) (haccepts : declaration.accepts raw = true) :
    declaration.encode (declaration.apply raw).values =
      raw &&& (declaration.mask ||| declaration.occupied) := by
  have hpattern : declaration.pattern = raw &&& declaration.mask := (eq_of_beq haccepts).symm
  have hheld : declaration.arguments.zip (declaration.apply raw).values =
      declaration.arguments.map fun field => (field, field.extract raw) := by
    rw [values_apply hwell.arity, List.map_prod_left_eq_zip]
  have hfields : ∀ field ∈ declaration.arguments,
      field.insert (field.extract raw) = raw &&& field.occupied :=
    fun field hmem => OperandField.insert_extract (hwell.fields field hmem) raw
  apply BitVec.eq_of_getLsbD_eq
  intro position _
  have hput : (declaration.arguments.any fun field =>
        (field.insert (field.extract raw)).getLsbD position) =
      (raw.getLsbD position && declaration.occupied.getLsbD position) := by
    rw [getLsbD_declaration_occupied, Bool.eq_iff_iff, Bool.and_eq_true, List.any_eq_true,
      List.any_eq_true]
    constructor
    · rintro ⟨field, hmem, hset⟩
      rw [hfields field hmem, BitVec.getLsbD_and, Bool.and_eq_true] at hset
      exact ⟨hset.1, field, hmem, hset.2⟩
    · rintro ⟨hset, field, hmem, hoccupied⟩
      refine ⟨field, hmem, ?_⟩
      rw [hfields field hmem, BitVec.getLsbD_and, hset, hoccupied, Bool.and_self]
  rw [getLsbD_encode, hheld, List.any_map, hpattern, BitVec.getLsbD_and, BitVec.getLsbD_and,
    BitVec.getLsbD_or, Bool.and_or_distrib_left, ← hput]
  rfl

/-- What an encoding holds can be put into one. -/
theorem admits_apply (hwell : declaration.WellFormed) (raw : Encoding) :
    declaration.Admits (declaration.apply raw).values := by
  rw [values_apply hwell.arity]
  constructor
  · rw [List.forall₂_map_right_iff, List.forall₂_same]
    exact fun field _ => ⟨raw, rfl⟩
  · intro held hheld other hother hsame
    rw [← List.map_prod_left_eq_zip, List.mem_map] at hheld hother
    obtain ⟨field, -, rfl⟩ := hheld
    obtain ⟨otherField, -, rfl⟩ := hother
    exact congrArg (OperandField.extract · raw) hsame

/-- Operands that are admitted are found again in what they are encoded to, and an accepted encoding
is spelled by its operands up to bits of no meaning. No field sets a bit that is not its own. -/
theorem operands_roundTrip (hwell : declaration.WellFormed) :
    (∀ values, declaration.Admits values →
      declaration.accepts (declaration.encode values) = true ∧
        (declaration.apply (declaration.encode values)).values = values) ∧
    (∀ raw, declaration.accepts raw = true →
      declaration.Admits (declaration.apply raw).values ∧
        declaration.encode (declaration.apply raw).values =
          raw &&& (declaration.mask ||| declaration.occupied)) ∧
    ∀ field ∈ declaration.arguments, ∀ value, field.insert value &&& ~~~field.occupied = 0 := by
  refine ⟨fun values hadmits => ?_, fun raw haccepts => ?_, fun field _ value => ?_⟩
  · exact ⟨hwell.accepts_encode values, hwell.apply_encode hadmits⟩
  · exact ⟨hwell.admits_apply raw, hwell.encode_apply haccepts⟩
  · exact and_not_eq_zero_iff.mpr fun _ => OperandField.occupied_of_insert

/-- A branch with a short register and the first source named twice, and five bits of no meaning. -/
theorem operands_roundTrip_branch :
    let branch := define "BRANCH" 0x7F 0x63
      [.rs1, .immediateB, .compressedRegister 12, .rs1, .constant 5]
    branch.WellFormed ∧ branch.Admits [1, -4, 9, 1, 5] ∧
      branch.encode [1, -4, 9, 1, 5] = 0xFE009EE3 ∧ branch.accepts 0xFE009EE3 = true ∧
      (branch.apply 0xFE009EE3).values = [1, -4, 9, 1, 5] ∧ branch.accepts 0xFFF09EE3 = true ∧
      branch.encode (branch.apply 0xFFF09EE3).values = 0xFE009EE3 := by
  intro branch
  have hwell : branch.WellFormed := by decide
  have hadmits : branch.Admits [1, -4, 9, 1, 5] := by
    refine ⟨.cons ⟨0xFE009EE3, ?_⟩ (.cons ⟨0xFE009EE3, ?_⟩ (.cons ⟨0xFE009EE3, ?_⟩
      (.cons ⟨0xFE009EE3, ?_⟩ (.cons ⟨0, ?_⟩ .nil)))), ?_⟩ <;> decide
  have hencoded : branch.encode [1, -4, 9, 1, 5] = 0xFE009EE3 := by decide
  have hnoise : branch.accepts 0xFFF09EE3 = true := by decide
  obtain ⟨hencode, happly, -⟩ := operands_roundTrip hwell
  obtain ⟨haccepts, hvalues⟩ := hencode _ hadmits
  rw [hencoded] at haccepts hvalues
  refine ⟨hwell, hadmits, hencoded, haccepts, hvalues, hnoise, ?_⟩
  rw [(happly _ hnoise).2]
  decide

end WellFormed

end Declaration

end RiscvMachine
