import RiscvMachine.Catalogue.Compressed
import RiscvMachine.Proofs.Except
import RiscvMachine.Proofs.FixedBits
import RiscvMachine.Proofs.KeySearch
/-!
A decoder finds the most specific declaration. The invariant of the construction is that every
candidate below a path agrees with the encodings of that path in all decided bits it fixes; a
settled candidate then accepts all of them, and the open ones are told apart by the bits tested
next.
-/

namespace RiscvMachine

namespace Decoder

/-- What an encoding is decided as if the declaration of `entry` is the best one for it. -/
def Decision.ofEntry (entry : Entry) : Decision :=
  match entry.declaration.kind with
  | .illegal => .illegal
  | .nop => .nop entry
  | .regular => .instruction entry

structure IsBest (candidates : List Entry) (raw : Encoding) (best : Entry) : Prop where
  mem : best ∈ candidates
  accepts : best.declaration.accepts raw = true
  specificity_lt : ∀ other ∈ candidates, other.declaration.accepts raw = true → other ≠ best →
    other.declaration.specificity < best.declaration.specificity

/-- The decision that candidates call for: the best of those that accept the encoding. -/
inductive Decides (candidates : List Entry) (raw : Encoding) : Decision → Prop
  | none (hnone : ∀ entry ∈ candidates, entry.declaration.accepts raw = false) :
      Decides candidates raw .illegal
  | best {best : Entry} (hbest : IsBest candidates raw best) :
      Decides candidates raw (.ofEntry best)

theorem Decides.congr {candidates others : List Entry} {raw : Encoding} {decision : Decision}
    (hsame : ∀ entry : Entry, entry.declaration.accepts raw = true →
      (entry ∈ candidates ↔ entry ∈ others))
    (hdecides : Decides candidates raw decision) : Decides others raw decision := by
  cases hdecides with
  | none hnone =>
      refine .none fun entry hmem => ?_
      by_contra haccepts
      have haccepts := Bool.eq_true_of_not_eq_false haccepts
      exact Bool.false_ne_true
        ((hnone entry ((hsame entry haccepts).mpr hmem)).symm.trans haccepts)
  | best hbest =>
      refine .best ⟨(hsame _ hbest.accepts).mp hbest.mem, hbest.accepts, ?_⟩
      intro other hmem haccepts hne
      exact hbest.specificity_lt other ((hsame other haccepts).mpr hmem) haccepts hne

/-! ### Leaves -/

theorem specificity_le_topSpecificity {candidates : List Entry} {entry : Entry}
    (hmem : entry ∈ candidates) :
    entry.declaration.specificity ≤ topSpecificity candidates := by
  have hfold : ∀ (entries : List Entry) (top : Nat),
      top ≤ entries.foldl (fun top entry => max top entry.declaration.specificity) top ∧
        ∀ entry ∈ entries, entry.declaration.specificity ≤
          entries.foldl (fun top entry => max top entry.declaration.specificity) top := by
    intro entries
    induction entries with
    | nil => simp
    | cons first rest ih =>
        intro top
        obtain ⟨htop, hrest⟩ := ih (max top first.declaration.specificity)
        rw [List.foldl_cons]
        refine ⟨(le_max_left _ _).trans htop, ?_⟩
        intro entry hentry
        rcases List.mem_cons.mp hentry with rfl | hentry
        · exact (le_max_right _ _).trans htop
        · exact hrest entry hentry
  exact (hfold candidates 0).2 entry hmem

theorem exists_specificity_eq_top {candidates : List Entry} (hnonempty : candidates ≠ []) :
    ∃ entry ∈ candidates, entry.declaration.specificity = topSpecificity candidates := by
  have hfold : ∀ (entries : List Entry) (top : Nat),
      entries.foldl (fun top entry => max top entry.declaration.specificity) top = top ∨
        ∃ entry ∈ entries, entry.declaration.specificity =
          entries.foldl (fun top entry => max top entry.declaration.specificity) top := by
    intro entries
    induction entries with
    | nil => simp
    | cons first rest ih =>
        intro top
        rw [List.foldl_cons]
        rcases ih (max top first.declaration.specificity) with heq | ⟨entry, hentry, heq⟩
        · rcases max_choice top first.declaration.specificity with htop | hfirst
          · exact .inl (heq.trans htop)
          · exact .inr ⟨first, List.mem_cons_self, hfirst.symm.trans heq.symm⟩
        · exact .inr ⟨entry, List.mem_cons_of_mem _ hentry, heq⟩
  rcases hfold candidates 0 with hzero | hattained
  · obtain ⟨entry, hentry⟩ := List.exists_mem_of_ne_nil candidates hnonempty
    refine ⟨entry, hentry, ?_⟩
    have hle := specificity_le_topSpecificity hentry
    rw [topSpecificity, hzero] at hle ⊢
    exact Nat.le_zero.mp hle
  · exact hattained

theorem decides_of_leaf {settled : List Entry} {value raw : Encoding} {tree : Tree}
    (hleaf : leaf settled value = .ok tree)
    (haccepts : ∀ entry ∈ settled, entry.declaration.accepts raw = true) :
    Decides settled raw (tree.decide raw) := by
  rw [leaf] at hleaf
  split at hleaf
  · rename_i hempty
    cases hleaf
    rw [Tree.decide]
    by_cases hnonempty : settled = []
    · exact .none (by simp [hnonempty])
    · obtain ⟨entry, hentry, htop⟩ := exists_specificity_eq_top hnonempty
      have hmem : entry ∈ settled.filter fun entry =>
          entry.declaration.specificity = topSpecificity settled := by
        simp [hentry, htop]
      rw [hempty] at hmem
      exact absurd hmem List.not_mem_nil
  · rename_i winner hwinner
    have hmemWinner : ∀ entry : Entry, entry = winner ↔
        entry ∈ settled ∧ entry.declaration.specificity = topSpecificity settled := by
      intro entry
      have hmem := congrArg (entry ∈ ·) hwinner
      simpa using hmem.symm
    have htop := (hmemWinner winner).mp rfl
    have hbest : IsBest settled raw winner := by
      refine ⟨htop.1, haccepts winner htop.1, ?_⟩
      intro other hmem _ hne
      rw [htop.2]
      refine lt_of_le_of_ne (specificity_le_topSpecificity hmem) fun heq => hne ?_
      exact (hmemWinner other).mpr ⟨hmem, heq⟩
    have hdecision : tree.decide raw = .ofEntry winner := by
      rw [Decision.ofEntry]
      cases hkind : winner.declaration.kind <;> rw [hkind] at hleaf <;> cases hleaf <;>
        rw [Tree.decide]
    rw [hdecision]
    exact .best hbest
  · cases hleaf

/-! ### Tests -/

theorem decideAt_of_getElem? {raw key : Encoding} {cases : List (Encoding × Tree)} {position : Nat}
    {child : Tree} (hcase : cases[position]? = some (key, child)) :
    Tree.decideAt raw position cases = child.decide raw := by
  induction cases generalizing position with
  | nil => simp at hcase
  | cons first rest ih =>
      cases position with
      | zero =>
          cases hcase
          rw [Tree.decideAt]
      | succ position =>
          rw [Tree.decideAt]
          exact ih hcase

/-- An encoding goes on by the case of its key, and by none if no case has that key. -/
theorem decide_switch_of_mapM {subtree : Encoding → Except BuildError Tree} {keys : List Encoding}
    {cases : List (Encoding × Tree)} (raw mask : Encoding) (otherwise : Tree)
    (hascending : keys.Pairwise (· < ·))
    (hcases : (keys.mapM fun key => do
      let child ← subtree key
      return (key, child)) = .ok cases) :
    (raw &&& mask ∈ keys → ∃ child, subtree (raw &&& mask) = .ok child ∧
      (Tree.switch mask cases otherwise).decide raw = child.decide raw) ∧
    (raw &&& mask ∉ keys →
      (Tree.switch mask cases otherwise).decide raw = otherwise.decide raw) := by
  have hkeys : cases.map Prod.fst = keys := map_fst_of_mapM hcases
  rw [Tree.decide, hkeys]
  constructor
  · intro hmem
    obtain ⟨position, hposition⟩ := List.mem_iff_getElem?.mp hmem
    obtain ⟨case, hcase, hget⟩ := getElem?_of_mapM hcases hposition
    obtain ⟨child, hchild, hcase⟩ := exists_ok_of_bind hcase
    cases hcase
    refine ⟨child, hchild, ?_⟩
    rw [search_eq_some hascending hposition]
    exact decideAt_of_getElem? hget
  · intro hmissing
    rw [search_eq_none hmissing]

theorem getLsbD_sharedMask {decided : Encoding} {candidates : List Entry} {bit : Nat} :
    (sharedMask decided candidates).getLsbD bit = true ↔
      bit ∈ undecidedBits decided ∧
        ∀ entry ∈ candidates, entry.declaration.mask.getLsbD bit = true := by
  have hfold : ∀ (entries : List Entry) (mask : Encoding),
      (entries.foldl (fun mask entry => mask &&& entry.declaration.mask) mask).getLsbD bit = true ↔
        mask.getLsbD bit = true ∧
          ∀ entry ∈ entries, entry.declaration.mask.getLsbD bit = true := by
    intro entries
    induction entries with
    | nil => simp
    | cons first rest ih =>
        intro mask
        rw [List.foldl_cons, ih]
        simp [and_assoc]
  rw [sharedMask, hfold, mem_undecidedBits]
  simp

/-- The best bit so far is undecided once it has uses, and is used as often as any bit seen. -/
structure BestSoFar (decided : Encoding) (candidates : List Entry) (seen : List Nat)
    (best : Nat × Nat) : Prop where
  mem : 0 < best.2 → best.1 ∈ undecidedBits decided
  uses_le : ∀ bit ∈ seen, bit ∈ undecidedBits decided → uses candidates bit ≤ best.2

theorem BestSoFar.preferBit {decided : Encoding} {candidates : List Entry} {seen : List Nat}
    {best : Nat × Nat} (hbest : BestSoFar decided candidates seen best) {bit : Nat}
    (hbit : bit < 32) :
    BestSoFar decided candidates (bit :: seen) (preferBit decided candidates best bit) := by
  rw [Decoder.preferBit]
  split
  · rename_i hdecided
    refine ⟨hbest.mem, ?_⟩
    intro other hother hopen
    rcases List.mem_cons.mp hother with rfl | hother
    · rw [mem_undecidedBits, hdecided] at hopen
      exact absurd hopen.2 (by decide)
    · exact hbest.uses_le other hother hopen
  · rename_i hopen
    split
    · rename_i hmore
      refine ⟨fun _ => mem_undecidedBits.mpr ⟨hbit, Bool.eq_false_of_not_eq_true hopen⟩, ?_⟩
      intro other hother hundecided
      rcases List.mem_cons.mp hother with rfl | hother
      · exact le_rfl
      · exact (hbest.uses_le other hother hundecided).trans hmore.le
    · rename_i hless
      refine ⟨hbest.mem, ?_⟩
      intro other hother hundecided
      rcases List.mem_cons.mp hother with rfl | hother
      · exact Nat.le_of_not_lt hless
      · exact hbest.uses_le other hother hundecided

theorem BestSoFar.foldl {decided : Encoding} {candidates : List Entry} {seen : List Nat}
    {best : Nat × Nat} (hbest : BestSoFar decided candidates seen best) (bits : List Nat)
    (hbits : ∀ bit ∈ bits, bit < 32) :
    BestSoFar decided candidates (bits.reverse ++ seen)
      (bits.foldl (Decoder.preferBit decided candidates) best) := by
  induction bits generalizing seen best with
  | nil => exact hbest
  | cons first rest ih =>
      rw [List.foldl_cons, List.reverse_cons, List.append_assoc]
      exact ih (hbest.preferBit (hbits first List.mem_cons_self))
        fun bit hbit => hbits bit (List.mem_cons_of_mem _ hbit)

theorem splitBit_mem_undecidedBits {decided : Encoding} {candidates : List Entry} {bit : Nat}
    (hopen : bit ∈ undecidedBits decided) (huses : 0 < uses candidates bit) :
    splitBit decided candidates ∈ undecidedBits decided := by
  have hinitial : BestSoFar decided candidates [] (0, 0) := ⟨by simp, by simp⟩
  have hfinal := hinitial.foldl (List.range 32) fun bit hbit => List.mem_range.mp hbit
  refine hfinal.mem (huses.trans_le (hfinal.uses_le bit ?_ hopen))
  simpa using (mem_undecidedBits.mp hopen).1

/-! ### Paths -/

theorem isSettled_iff {decided : Encoding} {entry : Entry} :
    isSettled decided entry = true ↔
      ∀ bit, entry.declaration.mask.getLsbD bit = true → decided.getLsbD bit = true := by
  rw [isSettled, beq_iff_eq]
  exact and_not_eq_zero_iff

theorem exists_undecided_of_not_isSettled {decided : Encoding} {entry : Entry}
    (hopen : isSettled decided entry = false) :
    ∃ bit ∈ undecidedBits decided, entry.declaration.mask.getLsbD bit = true := by
  by_contra hnone
  push Not at hnone
  refine Bool.false_ne_true (hopen.symm.trans (isSettled_iff.mpr fun bit hfixed => ?_))
  by_contra hundecided
  exact hnone bit (mem_undecidedBits.mpr
    ⟨BitVec.lt_of_getLsbD hfixed, Bool.eq_false_of_not_eq_true hundecided⟩) hfixed

/-- The candidate is well-formed, and agrees with the encoding in every decided bit it fixes. -/
def AgreesOn (decided raw : Encoding) (entry : Entry) : Prop :=
  entry.declaration.PatternInMask ∧
    ∀ bit, decided.getLsbD bit = true → entry.declaration.mask.getLsbD bit = true →
      raw.getLsbD bit = entry.declaration.pattern.getLsbD bit

theorem AgreesOn.accepts {decided raw : Encoding} {entry : Entry}
    (hagrees : AgreesOn decided raw entry) (hsettled : isSettled decided entry = true) :
    entry.declaration.accepts raw = true := by
  rw [Declaration.accepts_iff hagrees.1]
  intro bit hfixed
  exact hagrees.2 bit (isSettled_iff.mp hsettled bit hfixed) hfixed

theorem AgreesOn.or {decided mask raw : Encoding} {entry : Entry}
    (hagrees : AgreesOn decided raw entry)
    (hmask : ∀ bit, mask.getLsbD bit = true → entry.declaration.mask.getLsbD bit = true →
      raw.getLsbD bit = entry.declaration.pattern.getLsbD bit) :
    AgreesOn (decided ||| mask) raw entry := by
  refine ⟨hagrees.1, fun bit hdecided hfixed => ?_⟩
  rw [BitVec.getLsbD_or, Bool.or_eq_true] at hdecided
  rcases hdecided with hdecided | hnew
  · exact hagrees.2 bit hdecided hfixed
  · exact hmask bit hnew hfixed

theorem mem_withBit {candidates : List Entry} {bit : Nat} {set : Bool} {entry : Entry} :
    entry ∈ withBit candidates bit set ↔ entry ∈ candidates ∧
      (entry.declaration.mask.getLsbD bit = true →
        entry.declaration.pattern.getLsbD bit = set) := by
  simp only [withBit, List.mem_filter, Bool.or_eq_true, Bool.not_eq_true', beq_iff_eq]
  constructor
  · rintro ⟨hmem, hclear | hset⟩
    · exact ⟨hmem, fun hfixed => absurd (hclear.symm.trans hfixed) Bool.false_ne_true⟩
    · exact ⟨hmem, fun _ => hset⟩
  · rintro ⟨hmem, hset⟩
    refine ⟨hmem, ?_⟩
    cases hfixed : entry.declaration.mask.getLsbD bit with
    | false => exact .inl rfl
    | true => exact .inr (hset hfixed)

/-! ### Splits -/

def settledOf (decided : Encoding) (candidates : List Entry) : List Entry :=
  candidates.filter (isSettled decided)

def openOf (decided : Encoding) (candidates : List Entry) : List Entry :=
  candidates.filter fun entry => !isSettled decided entry

/-- The candidates of a case: the open ones with its key, then the settled ones. -/
def caseCandidates (decided shared key : Encoding) (candidates : List Entry) : List Entry :=
  (openOf decided candidates).filter (fun entry => entry.declaration.pattern &&& shared == key) ++
    settledOf decided candidates

/-- The four ways in which candidates are split into a tree. -/
inductive SplitInto (fuel : Nat) (candidates : List Entry) (decided value : Encoding) : Tree → Prop
  | none (hnone : candidates = []) : SplitInto fuel candidates decided value .illegal
  | leaf {tree : Tree} (hopen : openOf decided candidates = [])
      (hleaf : leaf (settledOf decided candidates) value = .ok tree) :
      SplitInto fuel candidates decided value tree
  | switch {shared : Encoding} {cases : List (Encoding × Tree)} {otherwise : Tree}
      (hshared : shared = sharedMask decided (openOf decided candidates))
      (hopen : openOf decided candidates ≠ []) (hne : shared ≠ 0)
      (hotherwise : leaf (settledOf decided candidates) value = .ok otherwise)
      (hcases : ((keys shared (openOf decided candidates)).mapM fun key => do
        let child ← split fuel (caseCandidates decided shared key candidates) (decided ||| shared)
          (value ||| key)
        return (key, child)) = .ok cases) :
      SplitInto fuel candidates decided value (.switch shared cases otherwise)
  | branch {bit : Nat} {zero one : Tree}
      (hbit : bit = splitBit decided (openOf decided candidates))
      (hopen : openOf decided candidates ≠ [])
      (hshared : sharedMask decided (openOf decided candidates) = 0)
      (hzero : split fuel (withBit candidates bit false) (decided ||| (1 : Encoding) <<< bit)
        value = .ok zero)
      (hone : split fuel (withBit candidates bit true) (decided ||| (1 : Encoding) <<< bit)
        (value ||| (1 : Encoding) <<< bit) = .ok one) :
      SplitInto fuel candidates decided value (.branch bit zero one)

/-- One step of the construction, with its lists of candidates by name. -/
theorem split_succ (fuel : Nat) (candidates : List Entry) (decided value : Encoding) :
    split (fuel + 1) candidates decided value =
      if candidates.isEmpty then .ok .illegal
      else if (openOf decided candidates).isEmpty then leaf (settledOf decided candidates) value
      else if sharedMask decided (openOf decided candidates) ≠ 0 then do
        let shared := sharedMask decided (openOf decided candidates)
        let otherwise ← leaf (settledOf decided candidates) value
        let cases ← (keys shared (openOf decided candidates)).mapM fun key => do
          let child ← split fuel (caseCandidates decided shared key candidates)
            (decided ||| shared) (value ||| key)
          return (key, child)
        return .switch shared cases otherwise
      else do
        let bit := splitBit decided (openOf decided candidates)
        let flag := (1 : Encoding) <<< bit
        let zero ← split fuel (withBit candidates bit false) (decided ||| flag) value
        let one ← split fuel (withBit candidates bit true) (decided ||| flag) (value ||| flag)
        return .branch bit zero one := by
  rw [split]
  rfl

theorem splitInto_of_split {fuel : Nat} {candidates : List Entry} {decided value : Encoding}
    {tree : Tree} (hsplit : split (fuel + 1) candidates decided value = .ok tree) :
    SplitInto fuel candidates decided value tree := by
  rw [split_succ] at hsplit
  split at hsplit
  · rename_i hnone
    cases hsplit
    exact .none (List.isEmpty_iff.mp hnone)
  · split at hsplit
    · rename_i hopen
      exact .leaf (List.isEmpty_iff.mp hopen) hsplit
    · rename_i hopen
      have hopen : openOf decided candidates ≠ [] := fun hnil => hopen (List.isEmpty_iff.mpr hnil)
      split at hsplit
      · rename_i hne
        obtain ⟨otherwise, hotherwise, hsplit⟩ := exists_ok_of_bind hsplit
        obtain ⟨cases, hcases, hsplit⟩ := exists_ok_of_bind hsplit
        cases hsplit
        exact .switch rfl hopen hne hotherwise hcases
      · rename_i hshared
        obtain ⟨zero, hzero, hsplit⟩ := exists_ok_of_bind hsplit
        obtain ⟨one, hone, hsplit⟩ := exists_ok_of_bind hsplit
        cases hsplit
        exact .branch rfl hopen (not_not.mp hshared) hzero hone

theorem split_of_splitInto {fuel : Nat} {candidates : List Entry} {decided value : Encoding}
    {tree : Tree} (hinto : SplitInto fuel candidates decided value tree) :
    split (fuel + 1) candidates decided value = .ok tree := by
  have hsome (hopen : openOf decided candidates ≠ []) : ¬candidates.isEmpty = true := by
    intro hnone
    rw [List.isEmpty_iff.mp hnone] at hopen
    exact hopen rfl
  rw [split_succ]
  cases hinto with
  | none hnone => rw [if_pos (List.isEmpty_iff.mpr hnone)]
  | leaf hopen hleaf =>
      split
      · rename_i hnone
        rw [List.isEmpty_iff.mp hnone] at hleaf
        exact hleaf
      · rw [if_pos (List.isEmpty_iff.mpr hopen)]
        exact hleaf
  | switch hshared hopen hne hotherwise hcases =>
      subst hshared
      rw [if_neg (hsome hopen), if_neg (fun hnil => hopen (List.isEmpty_iff.mp hnil)), if_pos hne,
        hotherwise]
      dsimp only [bind, Except.bind] at hcases ⊢
      rw [hcases]
      rfl
  | branch hbit hopen hshared hzero hone =>
      subst hbit
      rw [if_neg (hsome hopen), if_neg (fun hnil => hopen (List.isEmpty_iff.mp hnil)),
        if_neg (not_not.mpr hshared)]
      dsimp only
      rw [hzero, hone]
      rfl

theorem mem_settledOf {decided : Encoding} {candidates : List Entry} {entry : Entry} :
    entry ∈ settledOf decided candidates ↔ entry ∈ candidates ∧ isSettled decided entry = true :=
  List.mem_filter

theorem mem_openOf {decided : Encoding} {candidates : List Entry} {entry : Entry} :
    entry ∈ openOf decided candidates ↔ entry ∈ candidates ∧ isSettled decided entry = false := by
  simp [openOf]

theorem mem_caseCandidates {decided shared key : Encoding} {candidates : List Entry}
    {entry : Entry} :
    entry ∈ caseCandidates decided shared key candidates ↔ entry ∈ candidates ∧
      (isSettled decided entry = true ∨ entry.declaration.pattern &&& shared = key) := by
  simp only [caseCandidates, List.mem_append, List.mem_filter, mem_openOf, mem_settledOf,
    beq_iff_eq]
  cases isSettled decided entry <;> simp

/-! ### Correctness -/

section Correctness

variable {fuel : Nat} {candidates : List Entry} {decided value raw : Encoding}

/-- Below the case of an encoding, its candidates agree with it in the shared bits as well. -/
theorem agreesOn_of_mem_caseCandidates (shared : Encoding)
    (hpath : ∀ entry ∈ candidates, AgreesOn decided raw entry) :
    ∀ entry ∈ caseCandidates decided shared (raw &&& shared) candidates,
      AgreesOn (decided ||| shared) raw entry := by
  intro entry hmem
  obtain ⟨hmem, hsettled | hkey⟩ := mem_caseCandidates.mp hmem
  · refine (hpath entry hmem).or fun bit _ hfixed => ?_
    exact (hpath entry hmem).2 bit (isSettled_iff.mp hsettled bit hfixed) hfixed
  · refine (hpath entry hmem).or fun bit hshared _ => ?_
    exact and_eq_and_iff.mp hkey.symm bit hshared

theorem agreesOn_of_mem_withBit (bit : Nat)
    (hpath : ∀ entry ∈ candidates, AgreesOn decided raw entry) :
    ∀ entry ∈ withBit candidates bit (raw.getLsbD bit),
      AgreesOn (decided ||| (1 : Encoding) <<< bit) raw entry := by
  intro entry hmem
  obtain ⟨hmem, hset⟩ := mem_withBit.mp hmem
  refine (hpath entry hmem).or fun other hother hfixed => ?_
  obtain ⟨rfl, -⟩ := getLsbD_flag.mp hother
  exact (hset hfixed).symm

/-- An open candidate that accepts an encoding is in the case of its key. -/
theorem and_sharedMask_of_accepts {entry : Entry} (hpattern : entry.declaration.PatternInMask)
    (hopen : entry ∈ openOf decided candidates) (haccepts : entry.declaration.accepts raw = true) :
    entry.declaration.pattern &&& sharedMask decided (openOf decided candidates) =
      raw &&& sharedMask decided (openOf decided candidates) := by
  refine and_eq_and_iff.mpr fun bit hshared => ?_
  have hfixed := (getLsbD_sharedMask.mp hshared).2 entry hopen
  exact ((Declaration.accepts_iff hpattern).mp haccepts bit hfixed).symm

theorem accepts_of_mem_settledOf (hpath : ∀ entry ∈ candidates, AgreesOn decided raw entry) :
    ∀ entry ∈ settledOf decided candidates, entry.declaration.accepts raw = true := by
  intro entry hmem
  obtain ⟨hmem, hsettled⟩ := mem_settledOf.mp hmem
  exact (hpath entry hmem).accepts hsettled

section Accepting

variable {entry : Entry} {shared : Encoding} (hmem : entry ∈ candidates)
  (hpattern : entry.declaration.PatternInMask) (haccepts : entry.declaration.accepts raw = true)
include hmem hpattern haccepts

/-- A candidate that accepts an encoding is settled, or open with the key of the encoding. -/
theorem settled_or_key_of_accepts
    (hshared : shared = sharedMask decided (openOf decided candidates)) :
    isSettled decided entry = true ∨
      entry ∈ openOf decided candidates ∧ entry.declaration.pattern &&& shared = raw &&& shared := by
  cases hsettled : isSettled decided entry with
  | true => exact .inl rfl
  | false =>
      have hopen : entry ∈ openOf decided candidates := mem_openOf.mpr ⟨hmem, hsettled⟩
      rw [hshared]
      exact .inr ⟨hopen, and_sharedMask_of_accepts hpattern hopen haccepts⟩

theorem mem_caseCandidates_of_key
    (hshared : shared = sharedMask decided (openOf decided candidates)) :
    entry ∈ caseCandidates decided shared (raw &&& shared) candidates := by
  have hchoice := settled_or_key_of_accepts hmem hpattern haccepts hshared
  exact mem_caseCandidates.mpr ⟨hmem, hchoice.imp_right And.right⟩

/-- Where no case has the key of an encoding, the candidates that accept it are settled. -/
theorem mem_settledOf_of_missing_key
    (hshared : shared = sharedMask decided (openOf decided candidates))
    (hmissing : raw &&& shared ∉ keys shared (openOf decided candidates)) :
    entry ∈ settledOf decided candidates := by
  rcases settled_or_key_of_accepts hmem hpattern haccepts hshared with hsettled | ⟨hopen, hkey⟩
  · exact mem_settledOf.mpr ⟨hmem, hsettled⟩
  · exact absurd (mem_keys.mpr ⟨entry, hopen, hkey⟩) hmissing

/-- A candidate that fixes a bit the other way than an encoding does not accept it. -/
theorem mem_withBit_getLsbD (bit : Nat) : entry ∈ withBit candidates bit (raw.getLsbD bit) :=
  mem_withBit.mpr ⟨hmem, fun hfixed =>
    ((Declaration.accepts_iff hpattern).mp haccepts bit hfixed).symm⟩

end Accepting

theorem mem_settledOf_of_openOf_eq_nil (hopen : openOf decided candidates = []) {entry : Entry}
    (hmem : entry ∈ candidates) : entry ∈ settledOf decided candidates := by
  refine mem_settledOf.mpr ⟨hmem, ?_⟩
  by_contra hnot
  have hmemOpen := mem_openOf.mpr ⟨hmem, Bool.eq_false_of_not_eq_true hnot⟩
  rw [hopen] at hmemOpen
  exact List.not_mem_nil hmemOpen

theorem exists_mem_openOf (hopen : openOf decided candidates ≠ []) :
    ∃ entry ∈ openOf decided candidates, ∃ bit ∈ undecidedBits decided,
      entry.declaration.mask.getLsbD bit = true := by
  obtain ⟨entry, hentry⟩ := List.exists_mem_of_ne_nil _ hopen
  exact ⟨entry, hentry, exists_undecided_of_not_isSettled (mem_openOf.mp hentry).2⟩

theorem sharedMask_and_decided (candidates : List Entry) :
    sharedMask decided candidates &&& decided = 0 := by
  apply BitVec.eq_of_getLsbD_eq
  intro bit _
  rw [BitVec.getLsbD_and]
  cases hshared : (sharedMask decided candidates).getLsbD bit with
  | false => exact BitVec.getLsbD_zero.symm
  | true =>
      rw [(mem_undecidedBits.mp (getLsbD_sharedMask.mp hshared).1).2]
      exact BitVec.getLsbD_zero.symm

theorem card_undecidedBits_or_sharedMask_lt {shared : Encoding}
    (hshared : shared = sharedMask decided (openOf decided candidates)) (hne : shared ≠ 0) :
    (undecidedBits (decided ||| shared)).card < (undecidedBits decided).card := by
  refine card_undecidedBits_or_fresh_lt hne ?_
  rw [hshared]
  exact sharedMask_and_decided _

/-- Where a candidate is open, the bit to split by is one that the path has not decided. -/
theorem splitBit_openOf_mem (hopen : openOf decided candidates ≠ []) :
    splitBit decided (openOf decided candidates) ∈ undecidedBits decided := by
  obtain ⟨entry, hentry, used, hused, hfixed⟩ := exists_mem_openOf hopen
  have huses : 0 < uses (openOf decided candidates) used :=
    List.length_pos_of_mem (List.mem_filter.mpr ⟨hentry, hfixed⟩)
  exact splitBit_mem_undecidedBits hused huses

theorem card_undecidedBits_or_splitBit_lt {bit : Nat}
    (hbit : bit = splitBit decided (openOf decided candidates))
    (hopen : openOf decided candidates ≠ []) :
    (undecidedBits (decided ||| (1 : Encoding) <<< bit)).card < (undecidedBits decided).card := by
  rw [hbit]
  exact card_undecidedBits_or_flag_lt (splitBit_openOf_mem hopen)

section Descent

variable {decision : Decision} (hpath : ∀ entry ∈ candidates, AgreesOn decided raw entry)
include hpath

/-- The case that a switch finds for an encoding decides for all candidates. -/
theorem decides_of_case {shared : Encoding}
    (hshared : shared = sharedMask decided (openOf decided candidates))
    (hcase : Decides (caseCandidates decided shared (raw &&& shared) candidates) raw decision) :
    Decides candidates raw decision := by
  refine hcase.congr fun entry haccepts => ⟨fun hmem => (mem_caseCandidates.mp hmem).1, ?_⟩
  exact fun hmem => mem_caseCandidates_of_key hmem (hpath entry hmem).1 haccepts hshared

/-- Where a switch finds no case for an encoding, the settled candidates decide for all. -/
theorem decides_of_missing_key {shared : Encoding}
    (hshared : shared = sharedMask decided (openOf decided candidates))
    (hmissing : raw &&& shared ∉ keys shared (openOf decided candidates))
    (hsettled : Decides (settledOf decided candidates) raw decision) :
    Decides candidates raw decision := by
  refine hsettled.congr fun entry haccepts => ⟨fun hmem => (mem_settledOf.mp hmem).1, ?_⟩
  exact fun hmem =>
    mem_settledOf_of_missing_key hmem (hpath entry hmem).1 haccepts hshared hmissing

theorem decides_of_half (bit : Nat)
    (hhalf : Decides (withBit candidates bit (raw.getLsbD bit)) raw decision) :
    Decides candidates raw decision := by
  refine hhalf.congr fun entry haccepts => ⟨fun hmem => (mem_withBit.mp hmem).1, ?_⟩
  exact fun hmem => mem_withBit_getLsbD hmem (hpath entry hmem).1 haccepts bit

end Descent

/-- A subtree decides as its candidates call for, for every encoding that reaches it. -/
theorem decides_of_split {tree : Tree} (hfuel : (undecidedBits decided).card < fuel)
    (hpath : ∀ entry ∈ candidates, AgreesOn decided raw entry)
    (hsplit : split fuel candidates decided value = .ok tree) :
    Decides candidates raw (tree.decide raw) := by
  induction fuel generalizing candidates decided value tree with
  | zero => exact absurd hfuel (Nat.not_lt_zero _)
  | succ fuel ih =>
      cases splitInto_of_split hsplit with
      | none hnone =>
          rw [hnone, Tree.decide]
          exact .none (by simp)
      | leaf hopen hleaf =>
          exact (decides_of_leaf hleaf (accepts_of_mem_settledOf hpath)).congr fun entry _ =>
            ⟨fun hmem => (mem_settledOf.mp hmem).1, mem_settledOf_of_openOf_eq_nil hopen⟩
      | @switch shared cases otherwise hshared hopen hne hotherwise hcases =>
          obtain ⟨hfound, hmissing⟩ :=
            decide_switch_of_mapM raw shared otherwise (pairwise_keys shared _) hcases
          by_cases hkey : raw &&& shared ∈ keys shared (openOf decided candidates)
          · obtain ⟨child, hchild, hdecide⟩ := hfound hkey
            rw [hdecide]
            have hless : (undecidedBits (decided ||| shared)).card < fuel :=
              (card_undecidedBits_or_sharedMask_lt hshared hne).trans_le (Nat.le_of_lt_succ hfuel)
            exact decides_of_case hpath hshared
              (ih hless (agreesOn_of_mem_caseCandidates _ hpath) hchild)
          · rw [hmissing hkey]
            exact decides_of_missing_key hpath hshared hkey
              (decides_of_leaf hotherwise (accepts_of_mem_settledOf hpath))
      | @branch bit zero one hbit hopen hshared hzero hone =>
          have hless : (undecidedBits (decided ||| (1 : Encoding) <<< bit)).card < fuel :=
            (card_undecidedBits_or_splitBit_lt hbit hopen).trans_le (Nat.le_of_lt_succ hfuel)
          have hagrees := agreesOn_of_mem_withBit bit hpath
          rw [Tree.decide]
          cases hset : raw.getLsbD bit with
          | true =>
              refine decides_of_half hpath bit ?_
              rw [hset] at hagrees ⊢
              exact ih hless hagrees hone
          | false =>
              refine decides_of_half hpath bit ?_
              rw [hset] at hagrees ⊢
              exact ih hless hagrees hzero

end Correctness

/-! ### Decoders -/

def matching (xlen : Xlen) (declarations : List Declaration) (raw : Encoding) : List Declaration :=
  declarations.filter fun declaration => declaration.variant.includes xlen && declaration.accepts raw

theorem mem_entriesOf {declarations : List Declaration} {entry : Entry} :
    entry ∈ entriesOf declarations ↔ declarations[entry.id]? = some entry.declaration := by
  simp only [entriesOf, List.mem_map, Prod.exists, List.mk_mem_zipIdx_iff_getElem?]
  constructor
  · rintro ⟨declaration, id, hget, rfl⟩
    exact hget
  · intro hget
    exact ⟨entry.declaration, entry.id, hget, rfl⟩

/-- The position of an entry tells which declaration it has. -/
theorem eq_of_id_eq {declarations : List Declaration} {first second : Entry}
    (hfirst : first ∈ entriesOf declarations) (hsecond : second ∈ entriesOf declarations)
    (hid : first.id = second.id) : first = second := by
  have hdeclaration : some first.declaration = some second.declaration := by
    rw [← mem_entriesOf.mp hfirst, hid, mem_entriesOf.mp hsecond]
  cases first
  cases second
  cases hid
  cases hdeclaration
  rfl

theorem build_eq_ok {xlen : Xlen} {declarations : List Declaration} {decoder : Decoder}
    (hbuild : build xlen declarations = .ok decoder) :
    let included := declarations.filter fun declaration => declaration.variant.includes xlen
    decoder.xlen = xlen ∧ decoder.declarations = included ∧ included ≠ [] ∧
      check [] included = .ok () ∧ split 33 (entriesOf included) 0 0 = .ok decoder.tree := by
  intro included
  rw [build] at hbuild
  dsimp only at hbuild
  split at hbuild
  · cases hbuild
  · rename_i hnonempty
    obtain ⟨_, hcheck, hbuild⟩ := exists_ok_of_bind hbuild
    obtain ⟨tree, hsplit, hbuild⟩ := exists_ok_of_bind hbuild
    cases hbuild
    exact ⟨rfl, rfl, fun hempty => hnonempty (List.isEmpty_iff.mpr hempty), hcheck, hsplit⟩

theorem defect?_eq_none_of_build {xlen : Xlen} {declarations : List Declaration}
    {decoder : Decoder} (hbuild : build xlen declarations = .ok decoder) {declaration : Declaration}
    (hmem : declaration ∈ declarations) (hwidth : declaration.variant.includes xlen = true) :
    declaration.defect? = none := by
  obtain ⟨-, -, -, hcheck, -⟩ := build_eq_ok hbuild
  exact defect?_eq_none_of_check hcheck declaration (List.mem_filter.mpr ⟨hmem, hwidth⟩)

theorem decides_of_build {xlen : Xlen} {declarations : List Declaration} {decoder : Decoder}
    (hbuild : build xlen declarations = .ok decoder) (raw : Encoding) :
    Decides (entriesOf decoder.declarations) raw (decoder.decide raw) := by
  obtain ⟨-, hdeclarations, -, hcheck, hsplit⟩ := build_eq_ok hbuild
  rw [hdeclarations]
  refine decides_of_split ?_ ?_ hsplit
  · exact Nat.lt_succ_of_le (card_undecidedBits_le 0)
  · intro entry hmem
    have hsound := defect?_eq_none_of_check hcheck entry.declaration
      (List.mem_of_getElem? (mem_entriesOf.mp hmem))
    refine ⟨Declaration.patternInMask_of_defect?_eq_none hsound, ?_⟩
    intro bit hdecided
    simp at hdecided

theorem Decides.ofEntry_of_ne_illegal {candidates : List Entry} {raw : Encoding}
    {decision : Decision} (hdecides : Decides candidates raw decision) (hne : decision ≠ .illegal) :
    ∃ best, IsBest candidates raw best ∧ decision = .ofEntry best := by
  cases hdecides with
  | none => exact absurd rfl hne
  | best hbest => exact ⟨_, hbest, rfl⟩

theorem exists_ofEntry_of_decide {xlen : Xlen} {declarations : List Declaration} {decoder : Decoder}
    (hbuild : build xlen declarations = .ok decoder) {raw : Encoding}
    (hdecide : decoder.decide raw ≠ .illegal) :
    ∃ entry, decoder.decide raw = .ofEntry entry ∧
      decoder.declarations[entry.id]? = some entry.declaration ∧
      entry.declaration ∈ declarations ∧ entry.declaration.variant.includes xlen = true ∧
      entry.declaration.accepts raw = true := by
  obtain ⟨best, hbest, hdecision⟩ := (decides_of_build hbuild raw).ofEntry_of_ne_illegal hdecide
  have hget := mem_entriesOf.mp hbest.mem
  have hmem := List.mem_of_getElem? hget
  rw [(build_eq_ok hbuild).2.1, List.mem_filter] at hmem
  exact ⟨best, hdecision, hget, hmem.1, hmem.2, hbest.accepts⟩

theorem decide_eq_instruction {xlen : Xlen} {declarations : List Declaration} {decoder : Decoder}
    (hbuild : build xlen declarations = .ok decoder) {raw : Encoding} {entry : Entry}
    (hdecide : decoder.decide raw = .instruction entry) :
    decoder.declarations[entry.id]? = some entry.declaration ∧
      entry.declaration ∈ declarations ∧ entry.declaration.variant.includes xlen = true ∧
      entry.declaration.kind = .regular ∧ entry.declaration.accepts raw = true := by
  have hfound : decoder.decide raw ≠ .illegal := by simp [hdecide]
  obtain ⟨best, hdecision, hget, hmem, hwidth, haccepts⟩ := exists_ofEntry_of_decide hbuild hfound
  have hkind : best.declaration.kind = .regular ∧ best = entry := by
    rw [hdecide, Decision.ofEntry] at hdecision
    split at hdecision <;> simp_all
  obtain ⟨hkind, rfl⟩ := hkind
  exact ⟨hget, hmem, hwidth, hkind, haccepts⟩

theorem decide_eq_nop {xlen : Xlen} {declarations : List Declaration} {decoder : Decoder}
    (hbuild : build xlen declarations = .ok decoder) {raw : Encoding} {entry : Entry}
    (hdecide : decoder.decide raw = .nop entry) :
    entry.declaration ∈ declarations ∧ entry.declaration.kind = .nop := by
  have hfound : decoder.decide raw ≠ .illegal := by simp [hdecide]
  obtain ⟨best, hdecision, -, hmem, -, -⟩ := exists_ofEntry_of_decide hbuild hfound
  have hkind : best.declaration.kind = .nop ∧ best = entry := by
    rw [hdecide, Decision.ofEntry] at hdecision
    split at hdecision <;> simp_all
  obtain ⟨hkind, rfl⟩ := hkind
  exact ⟨hmem, hkind⟩

/-- No declaration that accepts an encoding is more specific than the one that is found for it. -/
theorem specificity_le_of_decide {xlen : Xlen} {declarations : List Declaration} {decoder : Decoder}
    (hbuild : build xlen declarations = .ok decoder) {raw : Encoding} {entry : Entry}
    (hdecide : decoder.decide raw = .instruction entry) {other : Declaration}
    (hmem : other ∈ declarations) (hwidth : other.variant.includes xlen = true)
    (haccepts : other.accepts raw = true) :
    other.specificity ≤ entry.declaration.specificity := by
  have hfound : decoder.decide raw ≠ .illegal := by simp [hdecide]
  obtain ⟨best, hbest, hdecision⟩ := (decides_of_build hbuild raw).ofEntry_of_ne_illegal hfound
  have hentry : best = entry := by
    rw [hdecide, Decision.ofEntry] at hdecision
    split at hdecision <;> simp_all
  subst hentry
  have hincluded : other ∈ decoder.declarations := by
    rw [(build_eq_ok hbuild).2.1]
    exact List.mem_filter.mpr ⟨hmem, hwidth⟩
  obtain ⟨id, hid⟩ := List.mem_iff_getElem?.mp hincluded
  by_cases hsame : (⟨id, other⟩ : Entry) = best
  · rw [← hsame]
  · exact Nat.le_of_lt (hbest.specificity_lt ⟨id, other⟩ (mem_entriesOf.mpr hid) haccepts hsame)

/-- A regular declaration is found wherever no other one accepts. -/
theorem decide_eq_instruction_of_unique {xlen : Xlen} {declarations : List Declaration}
    {decoder : Decoder} (hbuild : build xlen declarations = .ok decoder) {raw : Encoding}
    {declaration : Declaration} (hmem : declaration ∈ declarations)
    (hwidth : declaration.variant.includes xlen = true) (hkind : declaration.kind = .regular)
    (haccepts : declaration.accepts raw = true)
    (hunique : ∀ other ∈ declarations, other.variant.includes xlen = true →
      other.accepts raw = true → other = declaration) :
    ∃ id, decoder.decide raw = .instruction ⟨id, declaration⟩ := by
  have hdecides := decides_of_build hbuild raw
  rw [(build_eq_ok hbuild).2.1] at hdecides
  generalize decoder.decide raw = decision at hdecides
  cases hdecides with
  | none hnone =>
      have hincluded : declaration ∈
          declarations.filter fun declaration => declaration.variant.includes xlen :=
        List.mem_filter.mpr ⟨hmem, hwidth⟩
      obtain ⟨id, hid⟩ := List.mem_iff_getElem?.mp hincluded
      have hrefused := hnone ⟨id, declaration⟩ (mem_entriesOf.mpr hid)
      exact absurd (hrefused.symm.trans haccepts) Bool.false_ne_true
  | @best best hbest =>
      have hincluded := List.mem_filter.mp (List.mem_of_getElem? (mem_entriesOf.mp hbest.mem))
      have hsame := hunique best.declaration hincluded.1 hincluded.2 hbest.accepts
      exact ⟨best.id, by rw [Decision.ofEntry, hsame, hkind, ← hsame]⟩

theorem exists_getElem?_of_mem_others {declarations : List Declaration} {index : Nat}
    {other : Declaration}
    (hother : other ∈ declarations.take index ++ declarations.drop (index + 1)) :
    ∃ position, position ≠ index ∧ declarations[position]? = some other := by
  rcases List.mem_append.mp hother with hbefore | hafter
  · obtain ⟨position, hposition⟩ := List.mem_iff_getElem?.mp hbefore
    rw [List.getElem?_take] at hposition
    split at hposition
    · exact ⟨position, by omega, hposition⟩
    · cases hposition
  · obtain ⟨distance, hdistance⟩ := List.mem_iff_getElem?.mp hafter
    rw [List.getElem?_drop] at hdistance
    exact ⟨_, by omega, hdistance⟩

/-- The accepting declarations before and after a best candidate fix fewer bits than it does. -/
theorem IsBest.matching_eq {declarations : List Declaration} {raw : Encoding} {best : Entry}
    (hbest : IsBest (entriesOf declarations) raw best) :
    ∃ before after, declarations.filter (fun declaration => declaration.accepts raw) =
        before ++ best.declaration :: after ∧
      ∀ other ∈ before ++ after, other.specificity < best.declaration.specificity := by
  have hget := mem_entriesOf.mp hbest.mem
  obtain ⟨hlt, helement⟩ := List.getElem?_eq_some_iff.mp hget
  refine ⟨(declarations.take best.id).filter fun declaration => declaration.accepts raw,
    (declarations.drop (best.id + 1)).filter fun declaration => declaration.accepts raw, ?_, ?_⟩
  · conv_lhs => rw [← List.take_append_drop best.id declarations,
      List.drop_eq_getElem_cons hlt, helement]
    rw [List.filter_append, List.filter_cons, if_pos hbest.accepts]
  · intro other hother
    rw [← List.filter_append, List.mem_filter] at hother
    -- a declaration at another position is another candidate, even if it is an equal one
    obtain ⟨position, hne, hposition⟩ := exists_getElem?_of_mem_others hother.1
    refine hbest.specificity_lt ⟨position, other⟩ (mem_entriesOf.mpr hposition) hother.2 ?_
    exact fun heq => hne (congrArg Entry.id heq)

/-- The most specific declaration that accepts an encoding is unique, and says what it means. -/
theorem decide_eq_most_specific {xlen : Xlen} {declarations : List Declaration} {decoder : Decoder}
    (hbuild : build xlen declarations = .ok decoder) (raw : Encoding) :
    (matching xlen declarations raw = [] ∧ decoder.decide raw = .illegal) ∨
      ∃ before best after, matching xlen declarations raw = before ++ best :: after ∧
        (∀ other ∈ before ++ after, other.specificity < best.specificity) ∧
        match best.kind with
        | .illegal => decoder.decide raw = .illegal
        | .nop => ∃ id, decoder.declaration? id = some best ∧ decoder.decide raw = .nop ⟨id, best⟩
        | .regular => ∃ id, decoder.declaration? id = some best ∧
            decoder.decide raw = .instruction ⟨id, best⟩ := by
  have hmatching : matching xlen declarations raw =
      decoder.declarations.filter fun declaration => declaration.accepts raw := by
    rw [(build_eq_ok hbuild).2.1, List.filter_filter, matching]
    exact List.filter_congr fun declaration _ => Bool.and_comm _ _
  rw [hmatching]
  generalize hdecision : decoder.decide raw = decision
  have hdecides := decides_of_build hbuild raw
  rw [hdecision] at hdecides
  cases hdecides with
  | none hnone =>
      refine .inl ⟨List.filter_eq_nil_iff.mpr fun declaration hmem haccepts => ?_, rfl⟩
      obtain ⟨id, hid⟩ := List.mem_iff_getElem?.mp hmem
      have hrefused := hnone ⟨id, declaration⟩ (mem_entriesOf.mpr hid)
      exact Bool.false_ne_true (hrefused.symm.trans haccepts)
  | @best best hbest =>
      obtain ⟨before, after, hsplit, hless⟩ := hbest.matching_eq
      refine .inr ⟨before, best.declaration, after, hsplit, hless, ?_⟩
      have hget := mem_entriesOf.mp hbest.mem
      rw [Decision.ofEntry]
      cases best.declaration.kind with
      | illegal => rfl
      | nop => exact ⟨best.id, hget, rfl⟩
      | regular => exact ⟨best.id, hget, rfl⟩

/-- An addition to x0 is also an addition, but the hint fixes more bits. -/
theorem decide_compressed_nop :
    ∃ decoder, build .x64 Catalogue.Compressed.declarations = .ok decoder ∧
      ∃ before best after,
        matching .x64 Catalogue.Compressed.declarations 0x0001 = before ++ best :: after ∧
        (∀ other ∈ before ++ after, other.specificity < best.specificity) ∧
        best.mnemonic = "C.NOP" ∧
        ∃ id, decoder.declaration? id = some best ∧ decoder.decide 0x0001 = .nop ⟨id, best⟩ := by
  have hok : (build .x64 Catalogue.Compressed.declarations).toBool = true := by decide +kernel
  cases hbuild : build .x64 Catalogue.Compressed.declarations with
  | error error => simp [hbuild, Except.toBool] at hok
  | ok decoder =>
      have hmatching : (matching .x64 Catalogue.Compressed.declarations 0x0001).map
          (fun declaration => (declaration.mnemonic, declaration.specificity, declaration.kind)) =
          [("C.NOP", 10, .nop), ("C.ADDI", 5, .regular)] := by
        decide +kernel
      refine ⟨decoder, rfl, ?_⟩
      rcases decide_eq_most_specific hbuild 0x0001 with
        ⟨hnil, -⟩ | ⟨before, best, after, hsplit, hless, hdecide⟩
      · rw [hnil] at hmatching
        cases hmatching
      · refine ⟨before, best, after, hsplit, hless, ?_⟩
        rw [hsplit, List.map_append, List.map_cons] at hmatching
        rcases before with _ | ⟨first, _ | ⟨second, rest⟩⟩
        · simp only [List.map_nil, List.nil_append, List.cons.injEq, Prod.mk.injEq] at hmatching
          obtain ⟨⟨hmnemonic, -, hkind⟩, -⟩ := hmatching
          rw [hkind] at hdecide
          exact ⟨hmnemonic, hdecide⟩
        · -- the addition fixes fewer bits than the hint before it
          have hfirst := hless first (by simp)
          simp only [List.map_cons, List.map_nil, List.cons_append, List.nil_append,
            List.cons.injEq, Prod.mk.injEq] at hmatching
          obtain ⟨⟨-, hfirstBits, -⟩, ⟨-, hbestBits, -⟩, -⟩ := hmatching
          omega
        · simp at hmatching

end Decoder

end RiscvMachine
