import RiscvMachine.Proofs.FixedBits
/-!
Declarations that overlap. Where the bits that two declarations fix both agree, the two patterns
joined are a word that both accept; where they do not, one bit keeps the words of both apart.
-/

namespace RiscvMachine

namespace Declaration

variable {declaration other : Declaration} {raw : Encoding}

/-- Declarations overlap if no bit that both fix tells them apart. -/
theorem overlaps_iff :
    declaration.overlaps other = true ↔ ∀ bit, declaration.mask.getLsbD bit = true →
      other.mask.getLsbD bit = true →
        declaration.pattern.getLsbD bit = other.pattern.getLsbD bit := by
  rw [overlaps, beq_iff_eq, Decoder.and_eq_and_iff]
  refine forall_congr' fun bit => ?_
  rw [BitVec.getLsbD_and, Bool.and_eq_true, and_imp]

theorem overlaps_comm (declaration other : Declaration) :
    declaration.overlaps other = other.overlaps declaration := by
  rw [Bool.eq_iff_iff, overlaps_iff, overlaps_iff]
  exact ⟨fun hagree bit hother hfixed => (hagree bit hfixed hother).symm,
    fun hagree bit hfixed hother => (hagree bit hother hfixed).symm⟩

/-- The other pattern sets none of the bits that a declaration fixes to zero. -/
theorem accepts_joined (hpattern : declaration.PatternInMask) (hother : other.PatternInMask)
    (hoverlaps : declaration.overlaps other = true) :
    declaration.accepts (declaration.pattern ||| other.pattern) = true := by
  refine (accepts_iff hpattern).mpr fun bit hfixed => ?_
  rw [BitVec.getLsbD_or]
  cases hset : other.pattern.getLsbD bit with
  | false => exact Bool.or_false _
  | true => rw [overlaps_iff.mp hoverlaps bit hfixed (hother bit hset), hset, Bool.or_true]

theorem overlaps_of_accepts (hpattern : declaration.PatternInMask) (hother : other.PatternInMask)
    (haccepts : declaration.accepts raw = true) (hotherAccepts : other.accepts raw = true) :
    declaration.overlaps other = true :=
  overlaps_iff.mpr fun bit hfixed hotherFixed =>
    ((accepts_iff hpattern).mp haccepts bit hfixed).symm.trans
      ((accepts_iff hother).mp hotherAccepts bit hotherFixed)

theorem overlaps_iff_exists_accepts (hpattern : declaration.PatternInMask)
    (hother : other.PatternInMask) :
    declaration.overlaps other = true ↔
      ∃ raw, declaration.accepts raw = true ∧ other.accepts raw = true := by
  constructor
  · intro hoverlaps
    refine ⟨declaration.pattern ||| other.pattern, accepts_joined hpattern hother hoverlaps, ?_⟩
    rw [BitVec.or_comm]
    exact accepts_joined hother hpattern (overlaps_comm declaration other ▸ hoverlaps)
  · rintro ⟨raw, haccepts, hotherAccepts⟩
    exact overlaps_of_accepts hpattern hother haccepts hotherAccepts

/-- A word has one length only. -/
theorem overlaps_eq_false_of_length_ne (hsound : declaration.defect? = none)
    (hotherSound : other.defect? = none) (hlength : declaration.length ≠ other.length) :
    declaration.overlaps other = false := by
  refine Bool.eq_false_of_not_eq_true fun hoverlaps => hlength ?_
  obtain ⟨raw, haccepts, hotherAccepts⟩ :=
    (overlaps_iff_exists_accepts (patternInMask_of_defect?_eq_none hsound)
      (patternInMask_of_defect?_eq_none hotherSound)).mp hoverlaps
  exact (length_eq_of_accepts hsound haccepts).symm.trans
    (length_eq_of_accepts hotherSound hotherAccepts)

/-- Declarations overlap if and only if a word belongs to both. This is mutual, and those that pass
the checks overlap with none of another length. -/
theorem overlaps_exact :
    (∀ declaration other : Declaration, declaration.pattern &&& ~~~declaration.mask = 0 →
      other.pattern &&& ~~~other.mask = 0 →
        (declaration.overlaps other = true ↔
          ∃ raw, declaration.accepts raw = true ∧ other.accepts raw = true)) ∧
    (∀ declaration other : Declaration,
      declaration.overlaps other = other.overlaps declaration) ∧
    ∀ checked others, Decoder.check [] checked = .ok () → Decoder.check [] others = .ok () →
      ∀ declaration ∈ checked, ∀ other ∈ others, declaration.length ≠ other.length →
        declaration.overlaps other = false := by
  refine ⟨fun declaration other hpattern hother => ?_, overlaps_comm, ?_⟩
  · exact overlaps_iff_exists_accepts (and_not_eq_zero_iff.mp hpattern)
      (and_not_eq_zero_iff.mp hother)
  · intro checked others hchecked hothers declaration hmem other hotherMem hlength
    exact overlaps_eq_false_of_length_ne (Decoder.defect?_eq_none_of_check hchecked _ hmem)
      (Decoder.defect?_eq_none_of_check hothers _ hotherMem) hlength

/-- Masks of which neither includes the other, with the word `0x1055` in common; no word of the first
is an instruction of 32 bits. -/
theorem overlaps_exact_crossing :
    let first := define "FIRST" 0xF00F 0x1005 []
    let second := define "SECOND" 0x00FF 0x0055 []
    let full := define "FULL" 0x707F 0x1013 []
    (first.overlaps second = true ∧ second.overlaps first = true ∧
      ∃ raw, first.accepts raw = true ∧ second.accepts raw = true) ∧
    Decoder.check [] [first, second, full] = .ok () ∧ first.overlaps full = false ∧
      ¬∃ raw, first.accepts raw = true ∧ full.accepts raw = true := by
  intro first second full
  obtain ⟨hexact, hmutual, hlength⟩ := overlaps_exact
  have hoverlaps : first.overlaps second = true := by decide
  have hcheck : Decoder.check [] [first, second, full] = .ok () := by decide
  have hapart : first.overlaps full = false :=
    hlength _ _ hcheck hcheck first (by simp) full (by simp) (by decide)
  refine ⟨⟨hoverlaps, (hmutual second first).trans hoverlaps, ?_⟩, hcheck, hapart, ?_⟩
  · exact (hexact first second (by decide) (by decide)).mp hoverlaps
  · rw [← hexact first full (by decide) (by decide), hapart]
    exact Bool.false_ne_true

end Declaration

end RiscvMachine
