import Mathlib.Order.Interval.Finset.Nat
import RiscvMachine.Proofs.Ambiguity
/-!
The tests of a decision tree. Every test is about bits that no test above it is about, so the
construction ends by itself, and no encoding passes more tests than it has bits.
-/

namespace RiscvMachine

namespace Decoder

variable {candidates entries : List Entry} {decided value : Encoding} {tree : Tree}

/-! ### Termination -/

/-- With fuel for all undecided bits the construction never runs out of it. -/
theorem split_congr_fuel {fuel other : Nat} (hfuel : (undecidedBits decided).card < fuel)
    (hother : (undecidedBits decided).card < other) :
    split fuel candidates decided value = split other candidates decided value := by
  induction fuel generalizing other candidates decided value with
  | zero => exact absurd hfuel (Nat.not_lt_zero _)
  | succ fuel ih =>
      obtain ⟨other, rfl⟩ : ∃ rest, other = rest + 1 := ⟨other - 1, by omega⟩
      rw [split_succ, split_succ]
      by_cases hopen : openOf decided candidates = []
      · rw [if_pos (List.isEmpty_iff.mpr hopen), if_pos (List.isEmpty_iff.mpr hopen)]
      rw [if_neg (fun hnil => hopen (List.isEmpty_iff.mp hnil)),
        if_neg (fun hnil => hopen (List.isEmpty_iff.mp hnil))]
      by_cases hshared : sharedMask decided (openOf decided candidates) = 0
      · have hless := card_undecidedBits_or_splitBit_lt rfl hopen
        rw [if_neg (not_not.mpr hshared), if_neg (not_not.mpr hshared)]
        dsimp only
        rw [ih (by omega) (by omega : _ < other), ih (by omega) (by omega : _ < other)]
      · have hless := card_undecidedBits_or_sharedMask_lt rfl hshared
        rw [if_pos hshared, if_pos hshared]
        dsimp only
        have hcase (key : Encoding) :
            split fuel (caseCandidates decided (sharedMask decided (openOf decided candidates)) key
                candidates) (decided ||| sharedMask decided (openOf decided candidates))
              (value ||| key) =
            split other (caseCandidates decided (sharedMask decided (openOf decided candidates)) key
                candidates) (decided ||| sharedMask decided (openOf decided candidates))
              (value ||| key) := ih (by omega) (by omega)
        simp only [hcase]

/-! ### Soundness -/

/-- The keys of a switch: some, ascending, and made of bits of its mask. -/
structure KeysFit (mask : Encoding) (keys : List Encoding) : Prop where
  nonempty : keys ≠ []
  ascending : keys.Pairwise (· < ·)
  within : ∀ key ∈ keys, key &&& mask = key

/-- A tree for entries below a path that has decided some bits. Its tests are about other bits, and
its leaves are entries of their kind. -/
inductive Tree.Sound (entries : List Entry) : Encoding → Tree → Prop
  | illegal {decided : Encoding} : Sound entries decided .illegal
  | nop {decided : Encoding} {entry : Entry} (hmem : entry ∈ entries)
      (hkind : entry.declaration.kind = .nop) : Sound entries decided (.nop entry)
  | leaf {decided : Encoding} {entry : Entry} (hmem : entry ∈ entries)
      (hkind : entry.declaration.kind = .regular) : Sound entries decided (.leaf entry)
  | branch {decided : Encoding} {bit : Nat} {zero one : Tree} (hbit : bit ∈ undecidedBits decided)
      (hzero : Sound entries (decided ||| (1 : Encoding) <<< bit) zero)
      (hone : Sound entries (decided ||| (1 : Encoding) <<< bit) one) :
      Sound entries decided (.branch bit zero one)
  | switch {decided mask : Encoding} {cases : List (Encoding × Tree)} {otherwise : Tree}
      (hne : mask ≠ 0) (hfresh : mask &&& decided = 0) (hkeys : KeysFit mask (cases.map Prod.fst))
      (hcases : ∀ case ∈ cases, Sound entries (decided ||| mask) case.2)
      (hotherwise : Sound entries (decided ||| mask) otherwise) :
      Sound entries decided (.switch mask cases otherwise)

theorem sound_of_leaf {settled : List Entry} (hmem : ∀ entry ∈ settled, entry ∈ entries)
    (hleaf : leaf settled value = .ok tree) : tree.Sound entries decided := by
  rw [leaf] at hleaf
  split at hleaf
  · cases hleaf
    exact .illegal
  · rename_i winner hwinner
    have hwinnerMem : winner ∈ entries := by
      have hfiltered := List.mem_singleton_self winner
      rw [← hwinner] at hfiltered
      exact hmem winner (List.mem_filter.mp hfiltered).1
    split at hleaf
    · cases hleaf
      exact .illegal
    · rename_i hkind
      cases hleaf
      exact .nop hwinnerMem hkind
    · rename_i hkind
      cases hleaf
      exact .leaf hwinnerMem hkind
  · cases hleaf

theorem keysFit_keys {mask : Encoding} (hsome : candidates ≠ []) :
    KeysFit mask (keys mask candidates) where
  nonempty := by
    obtain ⟨entry, hentry⟩ := List.exists_mem_of_ne_nil candidates hsome
    exact List.ne_nil_of_mem (mem_keys.mpr ⟨entry, hentry, rfl⟩)
  ascending := pairwise_keys mask candidates
  within := by
    intro key hkey
    obtain ⟨entry, -, rfl⟩ := mem_keys.mp hkey
    rw [BitVec.and_assoc, BitVec.and_self]

/-- What is constructed is sound, since each step tests bits that no step before it has tested. -/
theorem sound_of_split {fuel : Nat} (hmem : ∀ entry ∈ candidates, entry ∈ entries)
    (hsplit : split fuel candidates decided value = .ok tree) : tree.Sound entries decided := by
  induction fuel generalizing candidates decided value tree with
  | zero =>
      rw [split] at hsplit
      cases hsplit
      exact .illegal
  | succ fuel ih =>
      have hsettled : ∀ entry ∈ settledOf decided candidates, entry ∈ entries :=
        fun entry hentry => hmem entry (mem_settledOf.mp hentry).1
      cases splitInto_of_split hsplit with
      | none => exact .illegal
      | leaf _ hleaf => exact sound_of_leaf hsettled hleaf
      | @switch shared cases otherwise hshared hopen hne hotherwise hcases =>
          have hkeys := map_fst_of_mapM hcases
          refine .switch hne ?_ ?_ ?_ (sound_of_leaf hsettled hotherwise)
          · rw [hshared]
            exact sharedMask_and_decided _
          · rw [hkeys]
            exact keysFit_keys hopen
          · intro case hcase
            obtain ⟨key, -, hkey⟩ := exists_of_mem_mapM hcases hcase
            obtain ⟨child, hchild, hpair⟩ := exists_ok_of_bind hkey
            cases hpair
            exact ih (fun entry hentry => hmem entry (mem_caseCandidates.mp hentry).1) hchild
      | branch hbit hopen _ hzero hone =>
          refine .branch ?_ (ih (fun entry hentry => hmem entry (mem_withBit.mp hentry).1) hzero)
            (ih (fun entry hentry => hmem entry (mem_withBit.mp hentry).1) hone)
          rw [hbit]
          exact splitBit_openOf_mem hopen

/-! ### Depth -/

theorem caseDepth_le {cases : List (Encoding × Tree)} {bound : Nat}
    (hcases : ∀ case ∈ cases, case.2.depth ≤ bound) : Tree.caseDepth cases ≤ bound := by
  induction cases with
  | nil =>
      rw [Tree.caseDepth]
      exact Nat.zero_le bound
  | cons first rest ih =>
      obtain ⟨hfirst, hrest⟩ := List.forall_mem_cons.mp hcases
      rw [Tree.caseDepth]
      exact max_le hfirst (ih hrest)

/-- A tree is no deeper than there are bits left to test. -/
theorem Tree.Sound.depth_le (hsound : tree.Sound entries decided) :
    tree.depth ≤ (undecidedBits decided).card := by
  induction hsound with
  | illegal =>
      rw [depth]
      exact Nat.zero_le _
  | nop =>
      rw [depth]
      exact Nat.zero_le _
  | leaf =>
      rw [depth]
      exact Nat.zero_le _
  | branch hbit _ _ ihZero ihOne =>
      have hless := card_undecidedBits_or_flag_lt hbit
      rw [depth]
      omega
  | switch hne hfresh _ _ _ ihCases ihOtherwise =>
      have hless := card_undecidedBits_or_fresh_lt hne hfresh
      have hcases := caseDepth_le ihCases
      rw [depth]
      omega

/-! ### Roots -/

/-- Two bits at least are decided by a mask that covers the lowest two. -/
theorem card_undecidedBits_le_of_covers {mask : Encoding} (hcovers : mask &&& 3 = 3) :
    (undecidedBits mask).card ≤ 30 := by
  have hlow := and_eq_mask_iff.mp hcovers
  have hsubset : undecidedBits mask ⊆ Finset.Ico 2 32 := by
    intro bit hbit
    obtain ⟨hless, hclear⟩ := mem_undecidedBits.mp hbit
    have hzero : bit ≠ 0 := by
      rintro rfl
      exact Bool.false_ne_true (hclear.symm.trans (hlow 0 (by decide)))
    have hone : bit ≠ 1 := by
      rintro rfl
      exact Bool.false_ne_true (hclear.symm.trans (hlow 1 (by decide)))
    rw [Finset.mem_Ico]
    omega
  exact (Finset.card_le_card hsubset).trans_eq (Nat.card_Ico 2 32)

/-- After a test of the two lowest bits no more than thirty are left. -/
theorem depth_le_of_covers {mask : Encoding} {cases : List (Encoding × Tree)} {otherwise : Tree}
    (hsound : (Tree.switch mask cases otherwise).Sound entries 0) (hcovers : mask &&& 3 = 3) :
    (Tree.switch mask cases otherwise).depth ≤ 31 := by
  have hleft : (undecidedBits (0 ||| mask)).card ≤ 30 := by
    have hmask : 0 ||| mask = mask := BitVec.zero_or
    rw [hmask]
    exact card_undecidedBits_le_of_covers hcovers
  cases hsound with
  | switch _ _ _ hcases hotherwise =>
      have hdeepest := caseDepth_le fun case hcase => (hcases case hcase).depth_le
      have hother := hotherwise.depth_le
      rw [Tree.depth]
      omega

/-- The first test is about the two lowest bits at least, which all declarations fix. -/
theorem exists_switch_of_split {declarations : List Declaration} (hnonempty : declarations ≠ [])
    (hcheck : check [] declarations = .ok ()) {fuel : Nat}
    (hsplit : split (fuel + 1) (entriesOf declarations) 0 0 = .ok tree) :
    ∃ mask cases otherwise, tree = .switch mask cases otherwise ∧ mask &&& 3 = 3 := by
  have hcovers : ∀ entry ∈ entriesOf declarations, entry.declaration.mask &&& 3 = 3 := by
    intro entry hmem
    exact Declaration.mask_and_of_defect?_eq_none (defect?_eq_none_of_check hcheck _
      (List.mem_of_getElem? (mem_entriesOf.mp hmem)))
  have hopen : openOf 0 (entriesOf declarations) = entriesOf declarations := by
    refine List.filter_eq_self.mpr fun entry hmem => ?_
    rw [Bool.not_eq_true', Bool.eq_false_iff, ne_eq, isSettled_iff]
    intro hnone
    have hset := and_eq_mask_iff.mp (hcovers entry hmem) 0 (by decide)
    exact absurd (hnone 0 hset) (by decide)
  have hsome : entriesOf declarations ≠ [] := by
    rw [entriesOf, ne_eq, List.map_eq_nil_iff, List.zipIdx_eq_nil_iff]
    exact hnonempty
  have hshared : sharedMask 0 (openOf 0 (entriesOf declarations)) &&& 3 = 3 := by
    refine and_eq_mask_iff.mpr fun bit hbit => getLsbD_sharedMask.mpr ⟨?_, ?_⟩
    · exact mem_undecidedBits.mpr ⟨BitVec.lt_of_getLsbD hbit, BitVec.getLsbD_zero⟩
    · intro entry hmem
      rw [hopen] at hmem
      exact and_eq_mask_iff.mp (hcovers entry hmem) bit hbit
  cases splitInto_of_split hsplit with
  | none hnone => exact absurd hnone hsome
  | leaf hsettled => exact absurd (hopen.symm.trans hsettled) hsome
  | switch hmask => exact ⟨_, _, _, rfl, hmask ▸ hshared⟩
  | branch _ _ hnothing =>
      rw [hnothing] at hshared
      exact absurd hshared (by decide)

end Decoder

end RiscvMachine
