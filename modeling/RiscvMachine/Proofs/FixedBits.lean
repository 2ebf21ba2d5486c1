import Mathlib.Data.Finset.Card
import Mathlib.Tactic.SplitIfs
import RiscvMachine.Decoder.Build
/-!
The fixed bits of declarations, one at a time: what it means that a declaration accepts an encoding,
what a checked declaration guarantees, and how many bits of an encoding are still undecided.
-/

namespace RiscvMachine

/-- Nothing is left of a word outside of the bits that it lies in. -/
theorem and_not_eq_zero_iff {word mask : Encoding} :
    word &&& ~~~mask = 0 ↔ ∀ bit, word.getLsbD bit = true → mask.getLsbD bit = true := by
  constructor
  · intro hzero bit hset
    have hbit : bit < 32 := BitVec.lt_of_getLsbD hset
    have hclear := congrArg (fun word => word.getLsbD bit) hzero
    simpa [hset, hbit] using hclear
  · intro hmask
    apply BitVec.eq_of_getLsbD_eq
    intro bit hbit
    simp only [BitVec.getLsbD_and, BitVec.getLsbD_not, hbit, decide_true, Bool.true_and,
      BitVec.ofNat_eq_ofNat, BitVec.getLsbD_zero]
    cases hset : word.getLsbD bit with
    | false => rfl
    | true => rw [hmask bit hset]; rfl

theorem exists_getLsbD_of_ne_zero {word : Encoding} (hne : word ≠ 0) :
    ∃ bit, word.getLsbD bit = true := by
  by_contra hnone
  push Not at hnone
  refine hne (BitVec.eq_of_getLsbD_eq fun bit _ => ?_)
  rw [Bool.eq_false_of_not_eq_true (hnone bit)]
  exact BitVec.getLsbD_zero.symm

namespace Declaration

/-- The pattern sets no bit that the mask leaves open. -/
def PatternInMask (declaration : Declaration) : Prop :=
  ∀ bit, declaration.pattern.getLsbD bit = true → declaration.mask.getLsbD bit = true

/-- An encoding is accepted if it has the declared value in every fixed bit. -/
theorem accepts_iff {declaration : Declaration} (hpattern : declaration.PatternInMask)
    {raw : Encoding} :
    declaration.accepts raw = true ↔
      ∀ bit, declaration.mask.getLsbD bit = true →
        raw.getLsbD bit = declaration.pattern.getLsbD bit := by
  rw [accepts, beq_iff_eq]
  constructor
  · intro haccepts bit hfixed
    rw [← haccepts, BitVec.getLsbD_and, hfixed, Bool.and_true]
  · intro hagree
    apply BitVec.eq_of_getLsbD_eq
    intro bit _
    rw [BitVec.getLsbD_and]
    cases hfixed : declaration.mask.getLsbD bit with
    | true => rw [hagree bit hfixed, Bool.and_true]
    | false =>
        have hclear : declaration.pattern.getLsbD bit ≠ true :=
          fun hset => Bool.false_ne_true (hfixed.symm.trans (hpattern bit hset))
        rw [Bool.and_false, Bool.eq_false_of_not_eq_true hclear]

theorem patternInMask_of_defect?_eq_none {declaration : Declaration}
    (hsound : declaration.defect? = none) : declaration.PatternInMask := by
  refine and_not_eq_zero_iff.mp ?_
  by_contra hpattern
  rw [defect?, if_pos hpattern] at hsound
  cases hsound

/-- The bits that tell the length of an encoding are fixed. -/
theorem mask_and_of_defect?_eq_none {declaration : Declaration}
    (hsound : declaration.defect? = none) : declaration.mask &&& 3 = 3 := by
  by_contra hopen
  rw [defect?, if_pos hopen] at hsound
  split at hsound <;> cases hsound

/-- An encoding is as long as the pattern of a declaration that accepts it. -/
theorem length_of_accepts {declaration : Declaration} (hsound : declaration.defect? = none)
    {raw : Encoding} (haccepts : declaration.accepts raw = true) :
    EncodedLength.of raw = EncodedLength.of declaration.pattern := by
  have hlow : raw &&& 3 = declaration.pattern &&& 3 := by
    rw [accepts, beq_iff_eq] at haccepts
    rw [← haccepts, BitVec.and_assoc, mask_and_of_defect?_eq_none hsound]
  rw [EncodedLength.of, EncodedLength.of, hlow]

theorem length_eq_of_defect?_eq_none {declaration : Declaration}
    (hsound : declaration.defect? = none) :
    declaration.length = EncodedLength.of declaration.pattern := by
  by_contra hlength
  rw [defect?, if_pos hlength] at hsound
  split_ifs at hsound

/-- An encoding is as long as a declaration that accepts it says. -/
theorem length_eq_of_accepts {declaration : Declaration} (hsound : declaration.defect? = none)
    {raw : Encoding} (haccepts : declaration.accepts raw = true) :
    EncodedLength.of raw = declaration.length := by
  rw [length_of_accepts hsound haccepts, length_eq_of_defect?_eq_none hsound]

theorem arity_le_of_defect?_eq_none {declaration : Declaration}
    (hsound : declaration.defect? = none) : declaration.arguments.length ≤ Operands.maxArity := by
  by_contra hmany
  have harity : Operands.maxArity < declaration.arity := Nat.lt_of_not_le hmany
  rw [defect?, if_pos harity] at hsound
  split_ifs at hsound

/-- All fields are extracted, in their order. -/
theorem values_apply {declaration : Declaration}
    (harity : declaration.arguments.length ≤ Operands.maxArity) (raw : Encoding) :
    (declaration.apply raw).values = declaration.arguments.map fun field => field.extract raw := by
  simp only [apply, Operands.ofFields, List.take_of_length_le harity]

end Declaration

namespace Decoder

theorem defect?_eq_none_of_check {seen : List String} {declarations : List Declaration}
    (hcheck : check seen declarations = .ok ()) :
    ∀ declaration ∈ declarations, declaration.defect? = none := by
  induction declarations generalizing seen with
  | nil => simp
  | cons first rest ih =>
      rw [check] at hcheck
      split at hcheck
      · cases hcheck
      · rename_i hsound
        split at hcheck
        · cases hcheck
        · intro declaration hmem
          rcases List.mem_cons.mp hmem with rfl | hrest
          · exact hsound
          · exact ih hcheck declaration hrest

theorem getLsbD_flag {bit other : Nat} :
    ((1 : Encoding) <<< bit).getLsbD other = true ↔ other = bit ∧ bit < 32 := by
  have hflag : (1 : Encoding) <<< bit = BitVec.twoPow 32 bit := rfl
  rw [hflag, BitVec.getLsbD_twoPow, Bool.and_eq_true, decide_eq_true_iff, decide_eq_true_iff]
  exact ⟨fun ⟨hbit, heq⟩ => ⟨heq.symm, hbit⟩, fun ⟨heq, hbit⟩ => ⟨hbit, heq.symm⟩⟩

theorem and_eq_and_iff {left right mask : Encoding} :
    left &&& mask = right &&& mask ↔
      ∀ bit, mask.getLsbD bit = true → left.getLsbD bit = right.getLsbD bit := by
  constructor
  · intro heq bit hmask
    have hbit := congrArg (fun word => word.getLsbD bit) heq
    simpa [hmask] using hbit
  · intro hagree
    apply BitVec.eq_of_getLsbD_eq
    intro bit _
    rw [BitVec.getLsbD_and, BitVec.getLsbD_and]
    cases hmask : mask.getLsbD bit with
    | false => rw [Bool.and_false, Bool.and_false]
    | true => rw [hagree bit hmask]

/-- A word covers a mask if it has all bits of it. -/
theorem and_eq_mask_iff {word mask : Encoding} :
    word &&& mask = mask ↔ ∀ bit, mask.getLsbD bit = true → word.getLsbD bit = true := by
  have hagree : word &&& mask = mask &&& mask ↔ _ := and_eq_and_iff
  rw [BitVec.and_self] at hagree
  rw [hagree]
  exact forall₂_congr fun bit hmask => by rw [hmask]

def undecidedBits (decided : Encoding) : Finset Nat :=
  (Finset.range 32).filter fun bit => decided.getLsbD bit = false

theorem mem_undecidedBits {decided : Encoding} {bit : Nat} :
    bit ∈ undecidedBits decided ↔ bit < 32 ∧ decided.getLsbD bit = false := by
  simp [undecidedBits]

theorem card_undecidedBits_le (decided : Encoding) : (undecidedBits decided).card ≤ 32 :=
  (Finset.card_filter_le _ _).trans_eq (Finset.card_range 32)

theorem card_undecidedBits_or_lt {decided mask : Encoding} {bit : Nat}
    (hopen : decided.getLsbD bit = false) (hmask : mask.getLsbD bit = true) :
    (undecidedBits (decided ||| mask)).card < (undecidedBits decided).card := by
  apply Finset.card_lt_card
  rw [Finset.ssubset_iff_of_subset]
  · refine ⟨bit, mem_undecidedBits.mpr ⟨BitVec.lt_of_getLsbD hmask, hopen⟩, ?_⟩
    simp [mem_undecidedBits, hmask]
  · intro other hother
    rw [mem_undecidedBits, BitVec.getLsbD_or, Bool.or_eq_false_iff] at hother
    exact mem_undecidedBits.mpr ⟨hother.1, hother.2.1⟩

theorem card_undecidedBits_or_fresh_lt {decided mask : Encoding} (hne : mask ≠ 0)
    (hfresh : mask &&& decided = 0) :
    (undecidedBits (decided ||| mask)).card < (undecidedBits decided).card := by
  obtain ⟨bit, hbit⟩ := exists_getLsbD_of_ne_zero hne
  have hclear := congrArg (fun word => word.getLsbD bit) hfresh
  simp only [BitVec.getLsbD_and, hbit, Bool.true_and] at hclear
  exact card_undecidedBits_or_lt (hclear.trans BitVec.getLsbD_zero) hbit

theorem flag_ne_zero {bit : Nat} (hbit : bit < 32) : (1 : Encoding) <<< bit ≠ 0 := by
  intro hzero
  have hflag : ((1 : Encoding) <<< bit).getLsbD bit = true := getLsbD_flag.mpr ⟨rfl, hbit⟩
  rw [hzero] at hflag
  exact Bool.false_ne_true (BitVec.getLsbD_zero.symm.trans hflag)

/-- The flag of an undecided bit is apart from all decided ones. -/
theorem flag_and_decided {decided : Encoding} {bit : Nat} (hbit : bit ∈ undecidedBits decided) :
    (1 : Encoding) <<< bit &&& decided = 0 := by
  apply BitVec.eq_of_getLsbD_eq
  intro other _
  rw [BitVec.getLsbD_and]
  cases hother : ((1 : Encoding) <<< bit).getLsbD other with
  | false => exact BitVec.getLsbD_zero.symm
  | true =>
      rw [(getLsbD_flag.mp hother).1, (mem_undecidedBits.mp hbit).2]
      exact BitVec.getLsbD_zero.symm

theorem card_undecidedBits_or_flag_lt {decided : Encoding} {bit : Nat}
    (hbit : bit ∈ undecidedBits decided) :
    (undecidedBits (decided ||| (1 : Encoding) <<< bit)).card < (undecidedBits decided).card :=
  card_undecidedBits_or_fresh_lt (flag_ne_zero (mem_undecidedBits.mp hbit).1)
    (flag_and_decided hbit)

end Decoder

end RiscvMachine
