import Mathlib.Data.List.Perm.Basic
import Mathlib.Logic.Equiv.Basic
import RiscvMachine.Proofs.Ambiguity
import RiscvMachine.Proofs.Renumbering
/-!
The order of declarations is irrelevant. Whatever the construction of a tree takes from a list of
candidates (masks, keys, numbers of uses, the most specific ones) is the same for every order of
them, so trees of reordered declarations differ in the numbers of the declarations only.
-/

namespace RiscvMachine

namespace Decoder

/-! ### Candidates -/

/-- The second list has the candidates of the first one, in any order and renumbered. -/
def Reordered (numbering : Equiv.Perm Nat) (left right : List Entry) : Prop :=
  right.Perm (left.map (Entry.renumber numbering))

variable {numbering : Equiv.Perm Nat} {left right : List Entry}

namespace Reordered

theorem trans {first second : Equiv.Perm Nat} {middle : List Entry}
    (hfirst : Reordered first left middle) (hsecond : Reordered second middle right) :
    Reordered (first.trans second) left right := by
  have hmap := List.Perm.map (Entry.renumber second) hfirst
  rw [List.map_map] at hmap
  exact List.Perm.trans hsecond hmap

theorem filter (hreordered : Reordered numbering left right) {keep : Entry → Bool}
    (hkeep : ∀ entry, keep (entry.renumber numbering) = keep entry) :
    Reordered numbering (left.filter keep) (right.filter keep) := by
  have hfilter := List.Perm.filter keep hreordered
  have hsame : keep ∘ Entry.renumber numbering = keep := funext hkeep
  rwa [List.filter_map, hsame] at hfilter

theorem append {left' right' : List Entry} (hreordered : Reordered numbering left right)
    (hreordered' : Reordered numbering left' right') :
    Reordered numbering (left ++ left') (right ++ right') := by
  rw [Reordered, List.map_append]
  exact List.Perm.append hreordered hreordered'

theorem mem_iff (hreordered : Reordered numbering left right) (id : Nat)
    (declaration : Declaration) :
    (⟨numbering id, declaration⟩ : Entry) ∈ right ↔ ⟨id, declaration⟩ ∈ left := by
  rw [List.Perm.mem_iff hreordered, List.mem_map]
  constructor
  · rintro ⟨entry, hentry, hsame⟩
    obtain ⟨hid, rfl⟩ := Entry.mk.inj hsame
    rwa [← numbering.injective hid]
  · exact fun hmem => ⟨_, hmem, rfl⟩

theorem length_eq (hreordered : Reordered numbering left right) : right.length = left.length := by
  rw [List.Perm.length_eq hreordered, List.length_map]

theorem eq_nil_iff (hreordered : Reordered numbering left right) : right = [] ↔ left = [] := by
  rw [← List.length_eq_zero_iff, hreordered.length_eq, List.length_eq_zero_iff]

/-- A fold that takes declarations in any order comes out the same. -/
theorem foldl_eq {β : Type} (hreordered : Reordered numbering left right)
    (step : β → Declaration → β) (hcomm : ∀ value first second,
      step (step value first) second = step (step value second) first) (initial : β) :
    right.foldl (fun value entry => step value entry.declaration) initial =
      left.foldl (fun value entry => step value entry.declaration) initial := by
  rw [List.Perm.foldl_eq' hreordered fun first _ second _ value => hcomm value _ _,
    List.foldl_map]
  rfl

theorem settledOf (hreordered : Reordered numbering left right) (decided : Encoding) :
    Reordered numbering (settledOf decided left) (settledOf decided right) :=
  hreordered.filter fun _ => rfl

theorem openOf (hreordered : Reordered numbering left right) (decided : Encoding) :
    Reordered numbering (openOf decided left) (openOf decided right) :=
  hreordered.filter fun _ => rfl

theorem caseCandidates (hreordered : Reordered numbering left right)
    (decided shared key : Encoding) :
    Reordered numbering (caseCandidates decided shared key left)
      (caseCandidates decided shared key right) :=
  ((hreordered.openOf decided).filter fun _ => rfl).append (hreordered.settledOf decided)

theorem withBit (hreordered : Reordered numbering left right) (bit : Nat) (set : Bool) :
    Reordered numbering (withBit left bit set) (withBit right bit set) :=
  hreordered.filter fun _ => rfl

theorem sharedMask_eq (hreordered : Reordered numbering left right) (decided : Encoding) :
    sharedMask decided right = sharedMask decided left := by
  refine hreordered.foldl_eq (fun mask declaration => mask &&& declaration.mask) ?_ (~~~decided)
  intro mask first second
  rw [BitVec.and_assoc, BitVec.and_comm first.mask, BitVec.and_assoc]

theorem topSpecificity_eq (hreordered : Reordered numbering left right) :
    topSpecificity right = topSpecificity left := by
  refine hreordered.foldl_eq (fun top declaration => max top declaration.specificity) ?_ 0
  intro top first second
  exact max_right_comm top first.specificity second.specificity

theorem uses_eq (hreordered : Reordered numbering left right) : uses right = uses left := by
  funext bit
  exact (hreordered.filter fun _ => rfl).length_eq

theorem splitBit_eq (hreordered : Reordered numbering left right) (decided : Encoding) :
    splitBit decided right = splitBit decided left := by
  have hprefer : preferBit decided right = preferBit decided left := by
    funext best bit
    rw [preferBit, preferBit, hreordered.uses_eq]
  rw [splitBit, splitBit, hprefer]

/-- Keys are ascending, so the same keys are the same list. -/
theorem keys_eq (hreordered : Reordered numbering left right) (mask : Encoding) :
    keys mask right = keys mask left := by
  have hmem (key : Encoding) : key ∈ keys mask right ↔ key ∈ keys mask left := by
    rw [mem_keys, mem_keys]
    constructor
    · rintro ⟨entry, hentry, hkey⟩
      obtain ⟨original, horiginal, rfl⟩ := List.mem_map.mp ((List.Perm.mem_iff hreordered).mp hentry)
      exact ⟨original, horiginal, hkey⟩
    · rintro ⟨entry, hentry, hkey⟩
      exact ⟨entry.renumber numbering,
        (List.Perm.mem_iff hreordered).mpr (List.mem_map_of_mem hentry), hkey⟩
  have hright := pairwise_keys mask right
  have hleft := pairwise_keys mask left
  have hantisymm : ∀ first second, first ∈ keys mask right → second ∈ keys mask left →
      first < second → second < first → first = second :=
    fun _ _ _ _ hless hgreater => absurd hgreater (BitVec.lt_asymm hless)
  have hperm := (List.perm_ext_iff_of_nodup (hright.imp BitVec.ne_of_lt)
    (hleft.imp BitVec.ne_of_lt)).mpr hmem
  exact hperm.eq_of_pairwise hantisymm hright hleft

end Reordered

/-! ### Trees -/

theorem Reordered.leaf_eq_ok (hreordered : Reordered numbering left right) {value : Encoding}
    {tree : Tree} (hleaf : leaf left value = .ok tree) :
    leaf right value = .ok (tree.renumber numbering) := by
  have hwinners : Reordered numbering
      (left.filter fun entry => entry.declaration.specificity = topSpecificity left)
      (right.filter fun entry => entry.declaration.specificity = topSpecificity right) := by
    rw [hreordered.topSpecificity_eq]
    exact hreordered.filter fun _ => rfl
  rw [leaf] at hleaf ⊢
  split at hleaf
  · rename_i hnone
    rw [hnone] at hwinners
    cases hleaf
    rw [hwinners.eq_nil_iff.mpr rfl, Tree.renumber]
  · rename_i winner hwinner
    rw [hwinner] at hwinners
    have hsingle := List.perm_singleton.mp hwinners
    rw [hsingle]
    dsimp only [Entry.renumber]
    split at hleaf <;> cases hleaf <;> rw [Tree.renumber] <;> rfl
  · cases hleaf

/-- Reordered candidates are split into the same tree, with the declarations renumbered. -/
theorem Reordered.split_eq_ok (hreordered : Reordered numbering left right) {fuel : Nat}
    {decided value : Encoding} {tree : Tree} (hsplit : split fuel left decided value = .ok tree) :
    split fuel right decided value = .ok (tree.renumber numbering) := by
  induction fuel generalizing left right decided value tree with
  | zero =>
      rw [split] at hsplit ⊢
      cases hsplit
      rw [Tree.renumber]
  | succ fuel ih =>
      -- both sides are split in the same way, by the same mask and keys or by the same bit
      have hopened := hreordered.openOf decided
      have hsettled := hreordered.settledOf decided
      apply split_of_splitInto
      cases splitInto_of_split hsplit with
      | none hnone =>
          rw [Tree.renumber]
          exact .none (hreordered.eq_nil_iff.mpr hnone)
      | leaf hopen hleaf => exact .leaf (hopened.eq_nil_iff.mpr hopen) (hsettled.leaf_eq_ok hleaf)
      | @switch shared cases otherwise hshared hopen hne hotherwise hcases =>
          rw [Tree.renumber, Tree.renumberCases_eq_map]
          refine .switch (hshared.trans (hopened.sharedMask_eq decided).symm)
            (hopened.eq_nil_iff.not.mpr hopen) hne (hsettled.leaf_eq_ok hotherwise) ?_
          rw [hopened.keys_eq]
          refine mapM_eq_ok_map (fun key case hcase => ?_) hcases
          obtain ⟨child, hchild, hcase⟩ := exists_ok_of_bind hcase
          cases hcase
          rw [ih (hreordered.caseCandidates decided shared key) hchild]
          rfl
      | @branch bit zero one hbit hopen hshared hzero hone =>
          rw [Tree.renumber]
          exact .branch (hbit.trans (hopened.splitBit_eq decided).symm)
            (hopened.eq_nil_iff.not.mpr hopen) ((hopened.sharedMask_eq decided).trans hshared)
            (ih (hreordered.withBit bit false) hzero) (ih (hreordered.withBit bit true) hone)

/-! ### Positions -/

/-- The declarations of a list with their positions, counted from `start` on. -/
def entriesFrom (start : Nat) (declarations : List Declaration) : List Entry :=
  (declarations.zipIdx start).map fun (declaration, id) => ⟨id, declaration⟩

theorem le_of_mem_entriesFrom {start : Nat} {declarations : List Declaration} {entry : Entry}
    (hmem : entry ∈ entriesFrom start declarations) : start ≤ entry.id := by
  obtain ⟨numbered, hnumbered, rfl⟩ := List.mem_map.mp hmem
  exact List.le_snd_of_mem_zipIdx hnumbered

theorem entriesFrom_cons (start : Nat) (first : Declaration) (rest : List Declaration) :
    entriesFrom start (first :: rest) = ⟨start, first⟩ :: entriesFrom (start + 1) rest := rfl

/-- Two neighbours change places, and nothing behind them does. -/
theorem reordered_swap (start : Nat) (first second : Declaration) (rest : List Declaration) :
    Reordered (Equiv.swap start (start + 1)) (entriesFrom start (first :: second :: rest))
      (entriesFrom start (second :: first :: rest)) := by
  have hrest : (entriesFrom (start + 1 + 1) rest).map
      (Entry.renumber (Equiv.swap start (start + 1))) = entriesFrom (start + 1 + 1) rest := by
    conv_rhs => rw [← List.map_id (entriesFrom (start + 1 + 1) rest)]
    refine List.map_congr_left fun entry hmem => ?_
    have hle := le_of_mem_entriesFrom hmem
    rw [Entry.renumber, Equiv.swap_apply_of_ne_of_ne (by omega) (by omega)]
    rfl
  simp only [Reordered, entriesFrom_cons, List.map_cons, hrest, Entry.renumber,
    Equiv.swap_apply_left, Equiv.swap_apply_right]
  exact .swap _ _ _

theorem exists_reordered {declarations others : List Declaration}
    (hperm : declarations.Perm others) (start : Nat) :
    ∃ numbering : Equiv.Perm Nat, (∀ id < start, numbering id = id) ∧
      Reordered numbering (entriesFrom start declarations) (entriesFrom start others) := by
  induction hperm generalizing start with
  | nil => exact ⟨Equiv.refl Nat, fun _ _ => rfl, .refl _⟩
  | @cons first rest others hperm ih =>
      obtain ⟨numbering, hbelow, hreordered⟩ := ih (start + 1)
      refine ⟨numbering, fun id hid => hbelow id (by omega), ?_⟩
      rw [entriesFrom_cons, entriesFrom_cons, Reordered, List.map_cons, Entry.renumber,
        hbelow start (Nat.lt_succ_self start)]
      exact List.Perm.cons _ hreordered
  | swap first second rest =>
      refine ⟨Equiv.swap start (start + 1), fun id hid => ?_, reordered_swap start second first rest⟩
      exact Equiv.swap_apply_of_ne_of_ne (by omega) (by omega)
  | trans _ _ ihFirst ihSecond =>
      obtain ⟨first, hfirstBelow, hfirst⟩ := ihFirst start
      obtain ⟨second, hsecondBelow, hsecond⟩ := ihSecond start
      refine ⟨first.trans second, fun id hid => ?_, hfirst.trans hsecond⟩
      rw [Equiv.trans_apply, hfirstBelow id hid, hsecondBelow id hid]

/-! ### Decoders -/

/-- What is checked of declarations is not about their order. -/
theorem check_eq_ok_iff {seen : List String} {declarations : List Declaration} :
    check seen declarations = .ok () ↔
      (∀ declaration ∈ declarations, declaration.defect? = none) ∧
        (declarations.map Declaration.mnemonic).Nodup ∧
          ∀ declaration ∈ declarations, declaration.mnemonic ∉ seen := by
  constructor
  · exact fun hcheck => ⟨defect?_eq_none_of_check hcheck, nodup_mnemonics_of_check hcheck⟩
  · rintro ⟨hsound, hnodup, hnew⟩
    induction declarations generalizing seen with
    | nil => rfl
    | cons first rest ih =>
        obtain ⟨hfirst, hrest⟩ := List.forall_mem_cons.mp hsound
        obtain ⟨hfresh, hnodup⟩ := List.nodup_cons.mp hnodup
        obtain ⟨hfirstNew, hrestNew⟩ := List.forall_mem_cons.mp hnew
        rw [check, hfirst]
        dsimp only
        rw [if_neg (by rwa [List.contains_iff_mem])]
        refine ih hrest hnodup fun declaration hmem hseen => ?_
        rcases List.mem_cons.mp hseen with hsame | hseen
        · exact hfresh (List.mem_map.mpr ⟨declaration, hmem, hsame⟩)
        · exact hrestNew declaration hmem hseen

theorem check_of_perm {declarations others : List Declaration} (hperm : declarations.Perm others)
    (hcheck : check [] declarations = .ok ()) : check [] others = .ok () := by
  obtain ⟨hsound, hnodup, -⟩ := check_eq_ok_iff.mp hcheck
  refine check_eq_ok_iff.mpr ⟨fun declaration hmem => ?_, ?_, fun _ _ => List.not_mem_nil⟩
  · exact hsound declaration (hperm.mem_iff.mpr hmem)
  · exact (hperm.map Declaration.mnemonic).nodup_iff.mp hnodup

theorem getElem?_of_reordered {declarations others : List Declaration}
    (hreordered : Reordered numbering (entriesOf declarations) (entriesOf others)) (id : Nat) :
    others[numbering id]? = declarations[id]? := by
  ext declaration
  have hmem := Reordered.mem_iff hreordered id declaration
  rwa [mem_entriesOf, mem_entriesOf] at hmem

/-- The second decoder is the first one with its declarations renumbered. -/
structure Renumbered (numbering : Equiv.Perm Nat) (first second : Decoder) : Prop where
  tree : second.tree = first.tree.renumber numbering
  declaration : ∀ id, second.declaration? (numbering id) = first.declaration? id

theorem Renumbered.nodeCount_eq {first second : Decoder}
    (hrenumbered : Renumbered numbering first second) : second.nodeCount = first.nodeCount := by
  rw [nodeCount, nodeCount, listing_renumber numbering hrenumbered.tree, Array.size_map]

theorem Renumbered.depth_eq {first second : Decoder}
    (hrenumbered : Renumbered numbering first second) : second.depth = first.depth := by
  rw [depth, depth, hrenumbered.tree, Tree.depth_renumber]

theorem Renumbered.decide_eq {first second : Decoder}
    (hrenumbered : Renumbered numbering first second) (raw : Encoding) :
    second.decide raw = (first.decide raw).renumber numbering := by
  rw [decide, decide, hrenumbered.tree, Tree.decide_renumber]

/-- Declarations in another order have a decoder as well. -/
theorem exists_renumbered {xlen : Xlen} {declarations others : List Declaration} {first : Decoder}
    (hperm : declarations.Perm others) (hbuild : build xlen declarations = .ok first) :
    ∃ numbering second, build xlen others = .ok second ∧ Renumbered numbering first second := by
  obtain ⟨-, hfirst, hnonempty, hcheck, hsplit⟩ := build_eq_ok hbuild
  have hincluded : (included xlen declarations).Perm (included xlen others) := hperm.filter _
  obtain ⟨numbering, -, hreordered⟩ := exists_reordered hincluded 0
  have hsplitOther := Reordered.split_eq_ok hreordered hsplit
  have hnonemptyOther : included xlen others ≠ [] :=
    fun hnil => hnonempty (List.perm_nil.mp (hnil ▸ hincluded))
  rcases build_cases hnonemptyOther (check_of_perm hincluded hcheck) with
    ⟨second, hsecond⟩ | ⟨error, -, herror⟩
  · obtain ⟨-, hsecondDeclarations, -, -, hsecondSplit⟩ := build_eq_ok hsecond
    refine ⟨numbering, second, hsecond, ?_, fun id => ?_⟩
    · exact Except.ok.inj (hsecondSplit.symm.trans hsplitOther)
    · rw [declaration?, declaration?, hfirst, hsecondDeclarations]
      exact getElem?_of_reordered hreordered id
  · exact absurd (herror.symm.trans hsplitOther) nofun

/-- Declarations have a decoder in every order or in none, and the decoders of two orders have
as many nodes, are as deep, and decide every encoding alike but for the numbers of declarations. -/
theorem build_perm (xlen : Xlen) {declarations others : List Declaration}
    (hperm : declarations.Perm others) :
    ((∃ first, build xlen declarations = .ok first) ↔ ∃ second, build xlen others = .ok second) ∧
      ∀ first second, build xlen declarations = .ok first → build xlen others = .ok second →
        second.nodeCount = first.nodeCount ∧ second.depth = first.depth ∧
          ∃ numbering : Equiv.Perm Nat,
            (∀ id, second.declaration? (numbering id) = first.declaration? id) ∧
              ∀ raw, second.decide raw = (first.decide raw).renumber numbering := by
  refine ⟨⟨?_, ?_⟩, ?_⟩
  · rintro ⟨first, hfirst⟩
    obtain ⟨-, second, hsecond, -⟩ := exists_renumbered hperm hfirst
    exact ⟨second, hsecond⟩
  · rintro ⟨second, hsecond⟩
    obtain ⟨-, first, hfirst, -⟩ := exists_renumbered hperm.symm hsecond
    exact ⟨first, hfirst⟩
  · intro first second hfirst hsecond
    obtain ⟨numbering, other, hother, hrenumbered⟩ := exists_renumbered hperm hfirst
    obtain rfl : other = second := Except.ok.inj (hother.symm.trans hsecond)
    exact ⟨hrenumbered.nodeCount_eq, hrenumbered.depth_eq, numbering, hrenumbered.declaration,
      hrenumbered.decide_eq⟩

/-- Three declarations that overlap, and the same ones backwards. -/
theorem build_perm_overlapping :
    ∃ first second, build .x64 overlapping = .ok first ∧
      build .x64 overlapping.reverse = .ok second ∧ second.nodeCount = first.nodeCount ∧
        second.depth = first.depth ∧ ∃ numbering : Equiv.Perm Nat,
          (∀ id, second.declaration? (numbering id) = first.declaration? id) ∧
            ∀ raw, second.decide raw = (first.decide raw).renumber numbering := by
  have hperm : overlapping.Perm overlapping.reverse := (List.reverse_perm overlapping).symm
  have hbuilt : (build .x64 overlapping).toBool = true := by decide +kernel
  obtain ⟨first, hfirst⟩ := exists_ok_of_toBool hbuilt
  obtain ⟨haccepted, hsame⟩ := build_perm .x64 hperm
  obtain ⟨second, hsecond⟩ := haccepted.mp ⟨first, hfirst⟩
  exact ⟨first, second, hfirst, hsecond, hsame first second hfirst hsecond⟩

end Decoder

end RiscvMachine
