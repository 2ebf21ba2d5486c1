import RiscvMachine.Proofs.OperandRoundTrip
import RiscvMachine.Proofs.Standard
/-!
Decoding loses nothing. Fixed bits and operands of a standard instruction make up the whole of its
encoding, so that can be put together again from the operands; and operands put into a declaration
are what it is decoded to, or a declaration that takes the encoding away from it is more specific.
-/

namespace RiscvMachine

namespace EncodedLength

/-- What an instruction of this length takes up of an encoding. -/
def part : EncodedLength → Encoding → Encoding
  | compressed, raw => raw &&& 0xFFFF
  | full, raw => raw

theorem of_eq_of_lowHalf {raw other : Encoding} (hlow : raw &&& 0xFFFF = other &&& 0xFFFF) :
    of raw = of other := by
  have hthree : (3 : Encoding) = 0xFFFF &&& 3 := by decide
  rw [of, of, hthree, ← BitVec.and_assoc, ← BitVec.and_assoc, hlow]

end EncodedLength

namespace Declaration

variable {declaration : Declaration} {raw other : Encoding}

theorem and_upperHalf_eq_zero (hsound : declaration.defect? = none)
    (hshort : declaration.length = .compressed) : declaration.mask &&& 0xFFFF0000 = 0 := by
  by_contra hupper
  have hwide : declaration.length = .compressed ∧ declaration.mask &&& 0xFFFF0000 ≠ 0 :=
    ⟨hshort, hupper⟩
  rw [defect?, if_pos hwide] at hsound
  split_ifs at hsound

/-- The upper half of a word counts for nothing if the lower half is an encoding of its own. -/
theorem accepts_eq_of_lowHalf (hsound : declaration.defect? = none)
    (hshort : EncodedLength.of raw = .compressed) (hlow : raw &&& 0xFFFF = other &&& 0xFFFF) :
    declaration.accepts raw = declaration.accepts other := by
  have hother : EncodedLength.of other = .compressed :=
    (EncodedLength.of_eq_of_lowHalf hlow).symm.trans hshort
  cases hlength : EncodedLength.of declaration.pattern with
  | full =>
      have hrefused : ∀ word, EncodedLength.of word = .compressed →
          declaration.accepts word = false := by
        intro word hword
        refine Bool.eq_false_of_not_eq_true fun haccepts => ?_
        rw [length_of_accepts hsound haccepts, hlength] at hword
        cases hword
      rw [hrefused raw hshort, hrefused other hother]
  | compressed =>
      have hupper := and_upperHalf_eq_zero hsound
        ((length_eq_of_defect?_eq_none hsound).trans hlength)
      have hmask : declaration.mask = 0xFFFF &&& declaration.mask :=
        calc
          declaration.mask = declaration.mask &&& (0xFFFF ||| 0xFFFF0000) := by
            rw [show (0xFFFF ||| 0xFFFF0000 : Encoding) = BitVec.allOnes 32 by decide,
              BitVec.and_allOnes]
          _ = declaration.mask &&& 0xFFFF ||| declaration.mask &&& 0xFFFF0000 :=
            BitVec.and_or_distrib_left
          _ = declaration.mask &&& 0xFFFF := by rw [hupper]; exact BitVec.or_zero
          _ = 0xFFFF &&& declaration.mask := BitVec.and_comm _ _
      rw [accepts, accepts, hmask, ← BitVec.and_assoc, ← BitVec.and_assoc, hlow]

end Declaration

namespace Decoder

variable {xlen : Xlen} {declarations : List Declaration} {decoder : Decoder} {raw other : Encoding}

theorem Decides.of_accepts_eq {candidates : List Entry} {decision : Decision}
    (hsame : ∀ entry ∈ candidates,
      entry.declaration.accepts raw = entry.declaration.accepts other)
    (hdecides : Decides candidates raw decision) : Decides candidates other decision := by
  cases hdecides with
  | none hnone => exact .none fun entry hmem => (hsame entry hmem).symm.trans (hnone entry hmem)
  | @best best hbest =>
      refine .best ⟨hbest.mem, (hsame best hbest.mem).symm.trans hbest.accepts, ?_⟩
      intro candidate hmem haccepts hne
      exact hbest.specificity_lt candidate hmem ((hsame candidate hmem).trans haccepts) hne

theorem Decides.unique {candidates : List Entry} {first second : Decision}
    (hfirst : Decides candidates raw first) (hsecond : Decides candidates raw second) :
    first = second := by
  cases hfirst with
  | none hnone =>
      cases hsecond with
      | none => rfl
      | best hbest =>
          exact absurd ((hnone _ hbest.mem).symm.trans hbest.accepts) Bool.false_ne_true
  | @best best hbest =>
      cases hsecond with
      | none hnone =>
          exact absurd ((hnone _ hbest.mem).symm.trans hbest.accepts) Bool.false_ne_true
      | @best better hbetter =>
          by_cases hsame : better = best
          · rw [hsame]
          · have hless := hbest.specificity_lt better hbetter.mem hbetter.accepts hsame
            have hmore := hbetter.specificity_lt best hbest.mem hbest.accepts (Ne.symm hsame)
            exact absurd hless (Nat.not_lt_of_lt hmore)

/-- Words that the same declarations accept are decided alike. -/
theorem decide_congr (hbuild : build xlen declarations = .ok decoder)
    (hsame : ∀ declaration ∈ declarations, declaration.variant.includes xlen = true →
      declaration.accepts raw = declaration.accepts other) :
    decoder.decide raw = decoder.decide other := by
  refine ((decides_of_build hbuild raw).of_accepts_eq ?_).unique (decides_of_build hbuild other)
  intro entry hmem
  have hincluded := List.mem_of_getElem? (mem_entriesOf.mp hmem)
  rw [(build_eq_ok hbuild).2.1, List.mem_filter] at hincluded
  exact hsame entry.declaration hincluded.1 hincluded.2

theorem decide_eq_of_lowHalf (hbuild : build xlen declarations = .ok decoder)
    (hshort : EncodedLength.of raw = .compressed) (hlow : raw &&& 0xFFFF = other &&& 0xFFFF) :
    decoder.decide raw = decoder.decide other :=
  decide_congr hbuild fun _ hmem hwidth =>
    Declaration.accepts_eq_of_lowHalf (defect?_eq_none_of_build hbuild hmem hwidth) hshort hlow

/-- What a declaration accepts is decided as that declaration or as a more specific one. -/
theorem exists_best_of_accepts (hbuild : build xlen declarations = .ok decoder)
    {declaration : Declaration} (hmem : declaration ∈ declarations)
    (hwidth : declaration.variant.includes xlen = true)
    (haccepts : declaration.accepts raw = true) :
    ∃ best, decoder.declaration? best.id = some best.declaration ∧
      best.declaration.accepts raw = true ∧
      (best.declaration = declaration ∨
        declaration.specificity < best.declaration.specificity) ∧
      decoder.decide raw = .ofEntry best := by
  have hincluded : declaration ∈ decoder.declarations := by
    rw [(build_eq_ok hbuild).2.1]
    exact List.mem_filter.mpr ⟨hmem, hwidth⟩
  obtain ⟨id, hid⟩ := List.mem_iff_getElem?.mp hincluded
  have hentry : (⟨id, declaration⟩ : Entry) ∈ entriesOf decoder.declarations :=
    mem_entriesOf.mpr hid
  generalize hdecision : decoder.decide raw = decision
  have hdecides := decides_of_build hbuild raw
  rw [hdecision] at hdecides
  cases hdecides with
  | none hnone => exact absurd ((hnone _ hentry).symm.trans haccepts) Bool.false_ne_true
  | @best best hbest =>
      refine ⟨best, mem_entriesOf.mp hbest.mem, hbest.accepts, ?_, rfl⟩
      by_cases hsame : (⟨id, declaration⟩ : Entry) = best
      · exact .inl (by rw [← hsame])
      · exact .inr (hbest.specificity_lt _ hentry haccepts hsame)

end Decoder

namespace Catalogue

/-- No declaration has two uses for one bit. -/
theorem wellFormed_of_mem : ∀ declaration ∈ declarations, declaration.WellFormed := by
  decide +kernel

/-- Instructions have a use for every bit. -/
theorem mask_or_occupied_of_mem : ∀ declaration ∈ declarations, declaration.kind = .regular →
    declaration.mask ||| declaration.occupied = declaration.length.part 0xFFFFFFFF := by
  decide +kernel

variable {xlen : Xlen} {raw : Encoding} {entry : Entry}

/-- The operands of what is found for an encoding spell that encoding. -/
theorem encode_apply_of_decide
    (hdecide : (InstructionSet.standard.decoder xlen).decide raw = .instruction entry) :
    entry.declaration.encode (entry.declaration.apply raw).values =
      entry.declaration.length.part raw := by
  have hbuild := InstructionSet.decoder_of_build InstructionSet.build_standard xlen
  obtain ⟨-, hmem, -, hkind, haccepts⟩ := Decoder.decide_eq_instruction hbuild hdecide
  rw [(wellFormed_of_mem _ hmem).encode_apply haccepts, mask_or_occupied_of_mem _ hmem hkind]
  cases entry.declaration.length with
  | compressed => exact congrArg (raw &&& ·) (by decide)
  | full => exact BitVec.and_allOnes

theorem decide_part_of_decide
    (hdecide : (InstructionSet.standard.decoder xlen).decide raw = .instruction entry) :
    (InstructionSet.standard.decoder xlen).decide (entry.declaration.length.part raw) =
      .instruction entry := by
  have hbuild := InstructionSet.decoder_of_build InstructionSet.build_standard xlen
  obtain ⟨-, hmem, hwidth, -, haccepts⟩ := Decoder.decide_eq_instruction hbuild hdecide
  have hsound := Decoder.defect?_eq_none_of_build hbuild hmem hwidth
  have hlength := Declaration.length_eq_of_accepts hsound haccepts
  cases hpart : entry.declaration.length with
  | full => exact hdecide
  | compressed =>
      rw [← hdecide]
      refine (Decoder.decide_eq_of_lowHalf hbuild (hlength.trans hpart) ?_).symm
      rw [EncodedLength.part, BitVec.and_assoc, BitVec.and_self]

/-- Encoding undoes decoding, and decoding undoes encoding unless a more specific declaration
accepts what is encoded. -/
theorem decode_encode_inverse (xlen : Xlen) :
    let decoder := InstructionSet.standard.decoder xlen
    (∀ raw entry, decoder.decide raw = .instruction entry →
      let word := entry.declaration.encode (entry.declaration.apply raw).values
      word = entry.declaration.length.part raw ∧ decoder.decide word = .instruction entry) ∧
    ∀ declaration ∈ declarations, ∀ values, declaration.Admits values →
      let word := declaration.encode values
      declaration.accepts word = true ∧ (declaration.apply word).values = values ∧
      (declaration.variant.includes xlen = true →
        ∃ best, decoder.declaration? best.id = some best.declaration ∧
          best.declaration.accepts word = true ∧
          (best.declaration = declaration ∨
            declaration.specificity < best.declaration.specificity) ∧
          decoder.decide word = .ofEntry best) := by
  intro decoder
  constructor
  · intro raw entry hdecide word
    have hword : word = entry.declaration.length.part raw := encode_apply_of_decide hdecide
    exact ⟨hword, by rw [hword]; exact decide_part_of_decide hdecide⟩
  · intro declaration hmem values hadmits word
    have hwell := wellFormed_of_mem declaration hmem
    have haccepts : declaration.accepts word = true := hwell.accepts_encode values
    refine ⟨haccepts, hwell.apply_encode hadmits, fun hwidth => ?_⟩
    have hbuild := InstructionSet.decoder_of_build InstructionSet.build_standard xlen
    exact Decoder.exists_best_of_accepts hbuild hmem hwidth haccepts

/-- A compressed addition with something in the upper half; and one to x0, which is a hint. -/
theorem decode_encode_compressedAddition :
    let decoder := InstructionSet.standard.decoder .x32
    let addition := Compressed.form "C.ADDI" 0 0b000 Compressed.quadrant1 0
      [.rd, .rd, .compressedImmediate6]
    (∃ id, decoder.decide 0xDEAD0085 = .instruction ⟨id, addition⟩ ∧
      addition.encode (addition.apply 0xDEAD0085).values = 0x0085 ∧
      decoder.decide 0x0085 = .instruction ⟨id, addition⟩) ∧
    addition ∈ declarations ∧ addition.Admits [0, 0, 5] ∧ addition.encode [0, 0, 5] = 0x0015 ∧
      (addition.apply 0x0015).values = [0, 0, 5] ∧
      ∃ best, best.declaration.accepts 0x0015 = true ∧
        addition.specificity < best.declaration.specificity ∧
        decoder.decide 0x0015 = .ofEntry best := by
  intro decoder addition
  obtain ⟨hdecoded, hencoded⟩ := decode_encode_inverse .x32
  have hbuild := InstructionSet.decoder_of_build InstructionSet.build_standard .x32
  have hmem : addition ∈ declarations := by decide +kernel
  refine ⟨?_, hmem, ?_⟩
  · have haccepts : addition.accepts 0xDEAD0085 = true := by decide +kernel
    have honly : ∀ other ∈ declarations, other.variant.includes .x32 = true →
        other.accepts 0xDEAD0085 = true → other = addition := by
      decide +kernel
    obtain ⟨id, hdecide⟩ :=
      Decoder.decide_eq_instruction_of_unique hbuild hmem rfl rfl haccepts honly
    obtain ⟨hword, hagain⟩ := hdecoded _ _ hdecide
    have hpart : addition.length.part 0xDEAD0085 = 0x0085 := by decide +kernel
    rw [hpart] at hword
    rw [hword] at hagain
    exact ⟨id, hdecide, hword, hagain⟩
  · have hadmits : addition.Admits [0, 0, 5] := by
      refine ⟨?_, by decide⟩
      exact .cons ⟨0x0015, by decide⟩ (.cons ⟨0x0015, by decide⟩ (.cons ⟨0x0015, by decide⟩ .nil))
    have hword : addition.encode [0, 0, 5] = 0x0015 := by decide +kernel
    obtain ⟨-, hvalues, hbest⟩ := hencoded addition hmem _ hadmits
    obtain ⟨best, -, haccepts, hbetter, hdecide⟩ := hbest rfl
    rw [hword] at hvalues haccepts hdecide
    refine ⟨hadmits, hword, hvalues, best, haccepts, hbetter.resolve_left ?_, hdecide⟩
    -- the hint accepts the word as well and fixes the destination
    intro hsame
    have hhint : ∃ other ∈ declarations, other.variant.includes .x32 = true ∧
        other.accepts 0x0015 = true ∧ addition.specificity < other.specificity := by
      decide +kernel
    obtain ⟨other, hother, hwidth, hotherAccepts, hless⟩ := hhint
    rw [Decoder.Decision.ofEntry, hsame] at hdecide
    have hle := Decoder.specificity_le_of_decide hbuild hdecide hother hwidth hotherAccepts
    rw [hsame] at hle
    exact absurd hless (Nat.not_lt_of_le hle)

end Catalogue

end RiscvMachine
