import RiscvMachine.Proofs.RoundTrip
/-!
Words that begin with a compressed instruction. What stands in the upper half belongs to the next
instruction: no decoder tests it, and no compressed instruction of the catalogue has an operand
there.
-/

namespace RiscvMachine

variable {raw other : Encoding}

/-- A field that stays inside of the lower half reads the same from words that agree there. -/
theorem OperandField.extract_eq_of_lowHalf {field : OperandField}
    (hfield : field.occupied &&& ~~~0xFFFF = 0) (hlow : raw &&& 0xFFFF = other &&& 0xFFFF) :
    field.extract raw = field.extract other := by
  refine extract_congr fun position hoccupied => ?_
  exact Decoder.and_eq_and_iff.mp hlow position (and_not_eq_zero_iff.mp hfield position hoccupied)

namespace Declaration

variable {declaration : Declaration}

/-- All operands come from the lower half of a word. -/
def ReadsLowHalf (declaration : Declaration) : Prop :=
  ∀ field ∈ declaration.arguments, field.occupied &&& ~~~0xFFFF = 0

instance : DecidablePred ReadsLowHalf :=
  fun declaration => inferInstanceAs (Decidable (∀ field ∈ declaration.arguments, _))

theorem ReadsLowHalf.apply_eq (hreads : declaration.ReadsLowHalf)
    (hlow : raw &&& 0xFFFF = other &&& 0xFFFF) :
    declaration.apply raw = declaration.apply other := by
  have hvalues : (declaration.arguments.take Operands.maxArity).map (·.extract raw) =
      (declaration.arguments.take Operands.maxArity).map (·.extract other) :=
    List.map_congr_left fun field hmem =>
      OperandField.extract_eq_of_lowHalf (hreads field (List.mem_of_mem_take hmem)) hlow
  simp only [apply, Operands.ofFields, hvalues]

end Declaration

theorem Decoder.Decision.declaration_of_ofEntry {entry : Entry} {declaration : Declaration}
    (hdeclaration : (ofEntry entry).declaration? = some declaration) :
    entry.declaration = declaration := by
  rw [ofEntry] at hdeclaration
  cases hkind : entry.declaration.kind <;> rw [hkind] at hdeclaration
  · exact Option.some.inj hdeclaration
  · exact Option.some.inj hdeclaration
  · cases hdeclaration

namespace InstructionSet

section Built

variable {declarations : List Declaration} {handlers : List Handler} {set : InstructionSet}
  {xlen : Xlen} (hbuild : build declarations handlers = .ok set)
  (hreads : ∀ declaration ∈ declarations, declaration.length = .compressed →
    declaration.ReadsLowHalf)
  (hshort : EncodedLength.of raw = .compressed) (hlow : raw &&& 0xFFFF = other &&& 0xFFFF)

include hbuild hreads hshort hlow

/-- What is found for such a word is compressed, so that the upper half holds no operand of it. -/
theorem apply_eq_of_decide {declaration : Declaration}
    (hdecide : ((set.decoder xlen).decide raw).declaration? = some declaration) :
    declaration.apply raw = declaration.apply other := by
  have hdecoder := decoder_of_build hbuild xlen
  have hfound : (set.decoder xlen).decide raw ≠ .illegal := by
    intro hillegal
    rw [hillegal] at hdecide
    cases hdecide
  obtain ⟨entry, hentry, -, hmem, hwidth, haccepts⟩ :=
    Decoder.exists_ofEntry_of_decide hdecoder hfound
  rw [hentry] at hdecide
  obtain rfl := Decoder.Decision.declaration_of_ofEntry hdecide
  have hsound := Decoder.defect?_eq_none_of_build hdecoder hmem hwidth
  have hlength : entry.declaration.length = .compressed :=
    (Declaration.length_eq_of_accepts hsound haccepts).symm.trans hshort
  exact (hreads _ hmem hlength).apply_eq hlow

theorem dispatch_eq_of_lowHalf (pc : Word) :
    set.dispatch xlen raw pc = set.dispatch xlen other pc := by
  have hdecide : (set.decoder xlen).decide raw = (set.decoder xlen).decide other :=
    Decoder.decide_eq_of_lowHalf (decoder_of_build hbuild xlen) hshort hlow
  have hlength : EncodedLength.of raw = EncodedLength.of other :=
    EncodedLength.of_eq_of_lowHalf hlow
  have hoperands : ∀ entry, (set.decoder xlen).decide raw = .instruction entry → ∀ binding,
      BoundDecoder.operandsOf binding entry.declaration raw pc =
        BoundDecoder.operandsOf binding entry.declaration other pc := by
    intro entry hentry binding
    have happly := apply_eq_of_decide hbuild hreads hshort hlow (congrArg _ hentry)
    rw [BoundDecoder.operandsOf, BoundDecoder.operandsOf, happly, hlength]
  rw [decoder] at hdecide hoperands
  rw [dispatch, dispatch, BoundDecoder.dispatch, BoundDecoder.dispatch, ← hdecide]
  split
  · rfl
  · rfl
  · rename_i entry hentry
    split
    · rename_i binding _
      rw [hoperands entry hentry binding]
    · rfl
    · rfl

/-- The upper half stays in the raw word that is reported, and is nowhere else. -/
theorem disassemble_eq_of_lowHalf :
    set.disassemble xlen other =
      (set.disassemble xlen raw).map fun application => { application with raw := other } := by
  have hdecide : (set.decoder xlen).decide raw = (set.decoder xlen).decide other :=
    Decoder.decide_eq_of_lowHalf (decoder_of_build hbuild xlen) hshort hlow
  rw [disassemble, disassemble, ← hdecide, Option.map_map]
  refine Option.map_congr fun declaration hdeclaration => ?_
  have happly := apply_eq_of_decide hbuild hreads hshort hlow hdeclaration
  simp only [Function.comp_apply, Application.of, happly]

end Built

end InstructionSet

/-- No compressed instruction has an operand in the upper half. -/
theorem Catalogue.readsLowHalf_of_mem : ∀ declaration ∈ declarations,
    declaration.length = .compressed → declaration.ReadsLowHalf := by
  decide +kernel

namespace InstructionSet

/-- The lower half alone says what a compressed instruction is, what its operands are and how it
reads; and every decoder that can be built decides by that half. -/
theorem lowHalf_determines (hshort : raw &&& 3 ≠ 3) (hlow : raw &&& 0xFFFF = other &&& 0xFFFF) :
    (∀ xlen pc, standard.dispatch xlen raw pc = standard.dispatch xlen other pc ∧
      (standard.disassemble xlen raw).map Application.text =
        (standard.disassemble xlen other).map Application.text) ∧
    ∀ xlen declarations decoder, Decoder.build xlen declarations = .ok decoder →
      decoder.decide raw = decoder.decide other := by
  have hlength : EncodedLength.of raw = .compressed := if_neg hshort
  refine ⟨fun xlen pc => ⟨?_, ?_⟩, fun xlen declarations decoder hbuild => ?_⟩
  · exact dispatch_eq_of_lowHalf build_standard Catalogue.readsLowHalf_of_mem hlength hlow pc
  · rw [disassemble_eq_of_lowHalf build_standard Catalogue.readsLowHalf_of_mem hlength hlow,
      Option.map_map]
    rfl
  · exact Decoder.decide_eq_of_lowHalf hbuild hlength hlow

/-- `c.jal 1, 96` for the 32-bit width, with something behind it and with nothing. -/
theorem lowHalf_determines_jump :
    (0xDEAD2085 : Encoding) &&& 3 ≠ 3 ∧
      (0xDEAD2085 : Encoding) &&& 0xFFFF = (0x2085 : Encoding) &&& 0xFFFF ∧
      ∃ entry, entry.declaration.mnemonic = "C.JAL" ∧
        (standard.decoder .x32).decide 0xDEAD2085 = .instruction entry ∧
        (standard.decoder .x32).decide 0x2085 = .instruction entry ∧
        standard.dispatch .x32 0xDEAD2085 0x1000 = standard.dispatch .x32 0x2085 0x1000 ∧
        (standard.disassemble .x32 0xDEAD2085).map Application.text =
          (standard.disassemble .x32 0x2085).map Application.text := by
  have hshort : (0xDEAD2085 : Encoding) &&& 3 ≠ 3 := by decide
  have hlow : (0xDEAD2085 : Encoding) &&& 0xFFFF = (0x2085 : Encoding) &&& 0xFFFF := by decide
  obtain ⟨hstandard, hdecoders⟩ := lowHalf_determines hshort hlow
  have honly : Catalogue.Only .x32 0xDEAD2085 "C.JAL" := by decide +kernel
  obtain ⟨entry, hdecide, hmnemonic⟩ := honly.exists_decide
  have hsame := hdecoders .x32 _ _ (decoder_of_build build_standard .x32)
  exact ⟨hshort, hlow, entry, hmnemonic, hdecide, hsame ▸ hdecide, hstandard .x32 0x1000⟩

end InstructionSet

end RiscvMachine
