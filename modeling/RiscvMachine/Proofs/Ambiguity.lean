import Mathlib.Data.List.Permutation
import RiscvMachine.Proofs.Decoding
/-!
Ambiguity. A decoder is refused where two candidates are settled on one path and equally specific,
unless a third one that is settled there too is better. The open candidates of the path are not
asked, so they cannot decide between the two, even if one of them is better wherever both accept.
-/

namespace RiscvMachine

namespace Declaration

/-- The declaration fixes no bits but those that one of the two others fixes. -/
def Within (declaration first second : Declaration) : Prop :=
  declaration.mask &&& ~~~(first.mask ||| second.mask) = 0

instance (declaration first second : Declaration) : Decidable (declaration.Within first second) :=
  inferInstanceAs (Decidable (_ = _))

end Declaration

namespace Decoder

/-- The encoding has the value of a path in the bits that are decided there. -/
def Follows (decided value raw : Encoding) : Prop :=
  ∀ bit, decided.getLsbD bit = true → raw.getLsbD bit = value.getLsbD bit

/-- The candidates of a path are different ones, and they agree with its value, which has no bits
but decided ones. -/
structure OnPath (candidates : List Entry) (decided value : Encoding) : Prop where
  nodup : candidates.Nodup
  decided_of_value : ∀ bit, value.getLsbD bit = true → decided.getLsbD bit = true
  agrees : ∀ entry ∈ candidates, AgreesOn decided value entry

/-- Two candidates that accept a sample are equally specific, and no third one that accepts it is
better by bits of theirs alone. -/
structure Tied (candidates : List Entry) (sample : Encoding) (first second : Entry) : Prop where
  first_mem : first ∈ candidates
  second_mem : second ∈ candidates
  ne : first ≠ second
  first_accepts : first.declaration.accepts sample = true
  second_accepts : second.declaration.accepts sample = true
  specificity_eq : first.declaration.specificity = second.declaration.specificity
  specificity_le : ∀ other ∈ candidates, other.declaration.accepts sample = true →
    other.declaration.Within first.declaration second.declaration →
    other.declaration.specificity ≤ first.declaration.specificity

section Paths

variable {candidates others : List Entry} {decided value raw sample : Encoding}
  {first second entry : Entry} {error : BuildError}

theorem Tied.of_subset (htied : Tied others sample first second)
    (hsubset : ∀ entry ∈ others, entry ∈ candidates)
    (haccepting : ∀ entry ∈ candidates, entry.declaration.accepts sample = true → entry ∈ others) :
    Tied candidates sample first second :=
  { htied with
    first_mem := hsubset first htied.first_mem
    second_mem := hsubset second htied.second_mem
    specificity_le := fun other hmem haccepts =>
      htied.specificity_le other (haccepting other hmem haccepts) haccepts }

theorem Follows.agreesOn (hfollows : Follows decided value raw)
    (hagrees : AgreesOn decided value entry) : AgreesOn decided raw entry :=
  ⟨hagrees.1, fun bit hdecided hfixed =>
    (hfollows bit hdecided).trans (hagrees.2 bit hdecided hfixed)⟩

theorem Follows.of_or {mask longer : Encoding} (hlonger : Follows (decided ||| mask) longer raw)
    (hfollows : Follows decided value longer) : Follows decided value raw := by
  intro bit hdecided
  have hor : (decided ||| mask).getLsbD bit = true := by
    rw [BitVec.getLsbD_or, hdecided, Bool.true_or]
  exact (hlonger bit hor).trans (hfollows bit hdecided)

/-! ### Leaves -/

/-- What a settled candidate of a path fixes is in the value already. -/
theorem value_or_pattern (hpath : OnPath candidates decided value)
    (hsettled : entry ∈ settledOf decided candidates) :
    value ||| entry.declaration.pattern = value := by
  obtain ⟨hmem, hsettled⟩ := mem_settledOf.mp hsettled
  obtain ⟨hpattern, hagrees⟩ := hpath.agrees entry hmem
  apply BitVec.eq_of_getLsbD_eq
  intro bit _
  rw [BitVec.getLsbD_or]
  cases hset : entry.declaration.pattern.getLsbD bit with
  | false => rw [Bool.or_false]
  | true =>
      have hfixed := hpattern bit hset
      rw [hagrees bit (isSettled_iff.mp hsettled bit hfixed) hfixed, hset, Bool.or_true]

/-- A candidate that fixes bits of settled ones alone is settled as well. -/
theorem isSettled_of_within (hfirst : isSettled decided first = true)
    (hsecond : isSettled decided second = true)
    (hwithin : entry.declaration.Within first.declaration second.declaration) :
    isSettled decided entry = true := by
  refine isSettled_iff.mpr fun bit hfixed => ?_
  have heither := and_not_eq_zero_iff.mp hwithin bit hfixed
  rw [BitVec.getLsbD_or, Bool.or_eq_true] at heither
  rcases heither with hmask | hmask
  · exact isSettled_iff.mp hfirst bit hmask
  · exact isSettled_iff.mp hsecond bit hmask

theorem leaf_eq_error {settled : List Entry} (hleaf : leaf settled value = .error error) :
    ∃ first second rest, (settled.filter fun entry =>
        entry.declaration.specificity = topSpecificity settled) = first :: second :: rest ∧
      error = .ambiguous first.declaration.mnemonic second.declaration.mnemonic
        (value ||| first.declaration.pattern) := by
  rw [leaf] at hleaf
  split at hleaf
  · cases hleaf
  · rename_i winner _
    cases hkind : winner.declaration.kind <;> rw [hkind] at hleaf <;> cases hleaf
  · rename_i first second rest hfilter
    cases hleaf
    exact ⟨first, second, rest, hfilter, rfl⟩

theorem tied_of_leaf (hpath : OnPath candidates decided value)
    (hleaf : leaf (settledOf decided candidates) value = .error error) :
    ∃ first second,
      error = .ambiguous first.declaration.mnemonic second.declaration.mnemonic value ∧
        Tied candidates value first second := by
  obtain ⟨first, second, rest, hfilter, herror⟩ := leaf_eq_error hleaf
  have htop : ∀ entry ∈ [first, second], entry ∈ settledOf decided candidates ∧
      entry.declaration.specificity = topSpecificity (settledOf decided candidates) := by
    intro entry hmem
    have hmem : entry ∈ first :: second :: rest := by
      simp only [List.mem_cons, List.not_mem_nil, or_false] at hmem ⊢
      tauto
    rw [← hfilter] at hmem
    simpa using hmem
  obtain ⟨hfirst, hfirstTop⟩ := htop first (by simp)
  obtain ⟨hsecond, hsecondTop⟩ := htop second (by simp)
  have hnodup := (hpath.nodup.filter (isSettled decided)).filter fun entry =>
    entry.declaration.specificity = topSpecificity (settledOf decided candidates)
  rw [← settledOf, hfilter] at hnodup
  have haccepts := accepts_of_mem_settledOf hpath.agrees
  refine ⟨first, second, ?_, ?_⟩
  · rw [herror, value_or_pattern hpath hfirst]
  · exact {
      first_mem := (mem_settledOf.mp hfirst).1
      second_mem := (mem_settledOf.mp hsecond).1
      ne := fun heq => (List.nodup_cons.mp hnodup).1 (heq ▸ List.mem_cons_self)
      first_accepts := haccepts first hfirst
      second_accepts := haccepts second hsecond
      specificity_eq := hfirstTop.trans hsecondTop.symm
      specificity_le := by
        intro other hmem _ hwithin
        have hsettled := isSettled_of_within (mem_settledOf.mp hfirst).2
          (mem_settledOf.mp hsecond).2 hwithin
        rw [hfirstTop]
        exact specificity_le_topSpecificity (mem_settledOf.mpr ⟨hmem, hsettled⟩) }

/-! ### Cases of a switch -/

theorem shared_of_key {shared key : Encoding} (hkey : key ∈ keys shared candidates) {bit : Nat}
    (hset : key.getLsbD bit = true) : shared.getLsbD bit = true := by
  obtain ⟨entry, -, rfl⟩ := mem_keys.mp hkey
  rw [BitVec.getLsbD_and, Bool.and_eq_true] at hset
  exact hset.2

section Case

variable {shared key : Encoding} (hshared : shared = sharedMask decided (openOf decided candidates))
  (hkey : key ∈ keys shared (openOf decided candidates))
include hshared hkey

theorem follows_or_key : Follows decided value (value ||| key) := by
  intro bit hdecided
  rw [BitVec.getLsbD_or]
  cases hset : key.getLsbD bit with
  | false => rw [Bool.or_false]
  | true =>
      have hfree := shared_of_key hkey hset
      rw [hshared, getLsbD_sharedMask, mem_undecidedBits] at hfree
      exact absurd (hfree.1.2.symm.trans hdecided) Bool.false_ne_true

theorem or_key_and_shared (hpath : OnPath candidates decided value) :
    (value ||| key) &&& shared = key := by
  apply BitVec.eq_of_getLsbD_eq
  intro bit _
  rw [BitVec.getLsbD_and, BitVec.getLsbD_or]
  cases hfree : shared.getLsbD bit with
  | false =>
      have hclear := fun hset => Bool.false_ne_true (hfree.symm.trans (shared_of_key hkey hset))
      rw [Bool.and_false, Bool.eq_false_iff.mpr hclear]
  | true =>
      rw [hshared, getLsbD_sharedMask, mem_undecidedBits] at hfree
      have hclear := fun hset =>
        Bool.false_ne_true (hfree.1.2.symm.trans (hpath.decided_of_value bit hset))
      rw [Bool.eq_false_iff.mpr hclear, Bool.false_or, Bool.and_true]

theorem OnPath.case (hpath : OnPath candidates decided value) :
    OnPath (caseCandidates decided shared key candidates) (decided ||| shared) (value ||| key) where
  nodup := by
    refine List.nodup_append'.mpr ⟨(hpath.nodup.filter _).filter _, hpath.nodup.filter _, ?_⟩
    intro entry hopen hsettled
    have hopen := (mem_openOf.mp (List.mem_filter.mp hopen).1).2
    exact Bool.false_ne_true (hopen.symm.trans (mem_settledOf.mp hsettled).2)
  decided_of_value := by
    intro bit hset
    rw [BitVec.getLsbD_or, Bool.or_eq_true] at hset ⊢
    exact hset.imp (hpath.decided_of_value bit) (shared_of_key hkey)
  agrees := by
    have hagrees : ∀ entry ∈ candidates, AgreesOn decided (value ||| key) entry :=
      fun entry hmem => (follows_or_key hshared hkey).agreesOn (hpath.agrees entry hmem)
    have hcase := agreesOn_of_mem_caseCandidates shared hagrees
    rwa [or_key_and_shared hshared hkey hpath] at hcase

/-- A candidate that accepts an encoding of the case is one of its candidates. -/
theorem mem_caseCandidates_of_accepts (hpath : OnPath candidates decided value)
    (hfollows : Follows (decided ||| shared) (value ||| key) sample) (hmem : entry ∈ candidates)
    (haccepts : entry.declaration.accepts sample = true) :
    entry ∈ caseCandidates decided shared key candidates := by
  have hsample : sample &&& shared = (value ||| key) &&& shared := by
    refine and_eq_and_iff.mpr fun bit hbit => hfollows bit ?_
    rw [BitVec.getLsbD_or, hbit, Bool.or_true]
  rw [← or_key_and_shared hshared hkey hpath, ← hsample]
  exact mem_caseCandidates_of_key hmem (hpath.agrees entry hmem).1 haccepts hshared

end Case

/-! ### Halves of a branch -/

/-- The value of a path after a further bit. -/
def withFlag (value : Encoding) (bit : Nat) (set : Bool) : Encoding :=
  if set then value ||| (1 : Encoding) <<< bit else value

theorem getLsbD_withFlag {bit other : Nat} {set : Bool} (hbit : bit < 32)
    (hclear : value.getLsbD bit = false) :
    (withFlag value bit set).getLsbD other = if other = bit then set else value.getLsbD other := by
  cases set with
  | false =>
      rw [withFlag, if_neg Bool.false_ne_true]
      split
      · rename_i heq
        rw [heq, hclear]
      · rfl
  | true =>
      have hflag : ((1 : Encoding) <<< bit).getLsbD other = Decidable.decide (other = bit) := by
        rw [Bool.eq_iff_iff, getLsbD_flag, decide_eq_true_iff]
        exact and_iff_left hbit
      rw [withFlag, if_pos rfl, BitVec.getLsbD_or, hflag]
      split <;> simp [*]

section Branch

variable {bit : Nat} {set : Bool} (hpath : OnPath candidates decided value)
  (hbit : bit ∈ undecidedBits decided)
include hpath hbit

theorem clear_of_undecided : value.getLsbD bit = false := by
  refine Bool.eq_false_iff.mpr fun hset => ?_
  have hdecided := hpath.decided_of_value bit hset
  exact Bool.false_ne_true ((mem_undecidedBits.mp hbit).2.symm.trans hdecided)

theorem follows_withFlag : Follows decided value (withFlag value bit set) := by
  intro other hdecided
  have hne : other ≠ bit := by
    rintro rfl
    exact Bool.false_ne_true ((mem_undecidedBits.mp hbit).2.symm.trans hdecided)
  rw [getLsbD_withFlag (mem_undecidedBits.mp hbit).1 (clear_of_undecided hpath hbit), if_neg hne]

theorem getLsbD_withFlag_self : (withFlag value bit set).getLsbD bit = set := by
  rw [getLsbD_withFlag (mem_undecidedBits.mp hbit).1 (clear_of_undecided hpath hbit), if_pos rfl]

theorem OnPath.branch : OnPath (withBit candidates bit set) (decided ||| (1 : Encoding) <<< bit)
    (withFlag value bit set) where
  nodup := hpath.nodup.filter _
  decided_of_value := by
    intro other hset
    rw [getLsbD_withFlag (mem_undecidedBits.mp hbit).1 (clear_of_undecided hpath hbit)] at hset
    rw [BitVec.getLsbD_or, Bool.or_eq_true]
    split at hset
    · rename_i heq
      exact .inr (getLsbD_flag.mpr ⟨heq, (mem_undecidedBits.mp hbit).1⟩)
    · exact .inl (hpath.decided_of_value other hset)
  agrees := by
    have hagrees : ∀ entry ∈ candidates, AgreesOn decided (withFlag value bit set) entry :=
      fun entry hmem => (follows_withFlag hpath hbit).agreesOn (hpath.agrees entry hmem)
    have hhalf := agreesOn_of_mem_withBit bit hagrees
    rwa [getLsbD_withFlag_self hpath hbit] at hhalf

theorem mem_withBit_of_accepts
    (hfollows : Follows (decided ||| (1 : Encoding) <<< bit) (withFlag value bit set) sample)
    (hmem : entry ∈ candidates) (haccepts : entry.declaration.accepts sample = true) :
    entry ∈ withBit candidates bit set := by
  have hdecided : (decided ||| (1 : Encoding) <<< bit).getLsbD bit = true := by
    rw [BitVec.getLsbD_or, getLsbD_flag.mpr ⟨rfl, (mem_undecidedBits.mp hbit).1⟩, Bool.or_true]
  have hsample : sample.getLsbD bit = set :=
    (hfollows bit hdecided).trans (getLsbD_withFlag_self hpath hbit)
  rw [← hsample]
  exact mem_withBit_getLsbD hmem (hpath.agrees entry hmem).1 haccepts bit

end Branch

/-! ### Splits -/

/-- Where the failure of a split comes from. -/
inductive SplitFails (fuel : Nat) (candidates : List Entry) (decided value : Encoding)
    (error : BuildError) : Prop
  | leaf (hleaf : leaf (settledOf decided candidates) value = .error error)
  | case {shared key : Encoding} (hshared : shared = sharedMask decided (openOf decided candidates))
      (hkey : key ∈ keys shared (openOf decided candidates))
      (hchild : split fuel (caseCandidates decided shared key candidates) (decided ||| shared)
        (value ||| key) = .error error)
  | branch {bit : Nat} (set : Bool) (hbit : bit ∈ undecidedBits decided)
      (hchild : split fuel (withBit candidates bit set) (decided ||| (1 : Encoding) <<< bit)
        (withFlag value bit set) = .error error)

theorem splitFails_of_split {fuel : Nat}
    (hsplit : split (fuel + 1) candidates decided value = .error error) :
    SplitFails fuel candidates decided value error := by
  rw [split_succ] at hsplit
  split at hsplit
  · cases hsplit
  · split at hsplit
    · exact .leaf hsplit
    · rename_i hopen
      have hopen : openOf decided candidates ≠ [] := fun hnil => hopen (List.isEmpty_iff.mpr hnil)
      split at hsplit
      · rcases error_of_bind hsplit with hleaf | ⟨otherwise, -, hsplit⟩
        · exact .leaf hleaf
        · rcases error_of_bind hsplit with hcases | ⟨cases, -, hsplit⟩
          · obtain ⟨key, hkey, hcase⟩ := exists_error_of_mapM hcases
            rcases error_of_bind hcase with hchild | ⟨child, -, hcase⟩
            · exact .case rfl hkey hchild
            · cases hcase
          · cases hsplit
      · have hbit := splitBit_openOf_mem hopen
        rcases error_of_bind hsplit with hzero | ⟨zero, -, hsplit⟩
        · exact .branch false hbit hzero
        · rcases error_of_bind hsplit with hone | ⟨one, -, hsplit⟩
          · exact .branch true hbit hone
          · cases hsplit

/-- A split fails with a tie, on the sample that the path to it leads to. -/
theorem tied_of_split {fuel : Nat} (hpath : OnPath candidates decided value)
    (hsplit : split fuel candidates decided value = .error error) :
    ∃ sample first second, Follows decided value sample ∧
      error = .ambiguous first.declaration.mnemonic second.declaration.mnemonic sample ∧
      Tied candidates sample first second := by
  induction fuel generalizing candidates decided value with
  | zero => cases hsplit
  | succ fuel ih =>
      cases splitFails_of_split hsplit with
      | leaf hleaf =>
          obtain ⟨first, second, herror, htied⟩ := tied_of_leaf hpath hleaf
          exact ⟨value, first, second, fun _ _ => rfl, herror, htied⟩
      | case hshared hkey hchild =>
          obtain ⟨sample, first, second, hfollows, herror, htied⟩ :=
            ih (hpath.case hshared hkey) hchild
          refine ⟨sample, first, second, hfollows.of_or (follows_or_key hshared hkey), herror, ?_⟩
          refine htied.of_subset (fun entry hmem => (mem_caseCandidates.mp hmem).1) ?_
          exact fun entry => mem_caseCandidates_of_accepts hshared hkey hpath hfollows
      | branch set hbit hchild =>
          obtain ⟨sample, first, second, hfollows, herror, htied⟩ := ih (hpath.branch hbit) hchild
          refine ⟨sample, first, second, hfollows.of_or (follows_withFlag hpath hbit), herror, ?_⟩
          refine htied.of_subset (fun entry hmem => (mem_withBit.mp hmem).1) ?_
          exact fun entry => mem_withBit_of_accepts hpath hbit hfollows

end Paths

/-! ### Decoders -/

/-- The declarations that hold for a register width. -/
def included (xlen : Xlen) (declarations : List Declaration) : List Declaration :=
  declarations.filter fun declaration => declaration.variant.includes xlen

theorem mem_matching {xlen : Xlen} {declarations : List Declaration} {raw : Encoding}
    {declaration : Declaration} :
    declaration ∈ matching xlen declarations raw ↔
      declaration ∈ included xlen declarations ∧ declaration.accepts raw = true := by
  simp only [matching, included, List.mem_filter, Bool.and_eq_true]
  tauto

theorem nodup_entriesOf (declarations : List Declaration) : (entriesOf declarations).Nodup := by
  have hids : (entriesOf declarations).map Entry.id = List.range' 0 declarations.length := by
    rw [← List.zipIdx_map_snd, entriesOf, List.map_map]
    rfl
  refine List.Nodup.of_map Entry.id ?_
  rw [hids]
  exact List.nodup_range'

theorem onPath_entriesOf {declarations : List Declaration}
    (hcheck : check [] declarations = .ok ()) : OnPath (entriesOf declarations) 0 0 where
  nodup := nodup_entriesOf declarations
  decided_of_value := by simp
  agrees := by
    intro entry hmem
    have hsound := defect?_eq_none_of_check hcheck entry.declaration
      (List.mem_of_getElem? (mem_entriesOf.mp hmem))
    refine ⟨Declaration.patternInMask_of_defect?_eq_none hsound, ?_⟩
    intro bit hdecided
    simp at hdecided

theorem nodup_mnemonics_of_check {seen : List String} {declarations : List Declaration}
    (hcheck : check seen declarations = .ok ()) :
    (declarations.map Declaration.mnemonic).Nodup ∧
      ∀ declaration ∈ declarations, declaration.mnemonic ∉ seen := by
  induction declarations generalizing seen with
  | nil => simp
  | cons first rest ih =>
      rw [check] at hcheck
      split at hcheck
      · cases hcheck
      · split at hcheck
        · cases hcheck
        · rename_i hnew
          rw [List.contains_iff_mem] at hnew
          obtain ⟨hnodup, hfresh⟩ := ih hcheck
          refine ⟨List.nodup_cons.mpr ⟨?_, hnodup⟩, ?_⟩
          · intro hmem
            obtain ⟨declaration, hdeclaration, heq⟩ := List.mem_map.mp hmem
            exact hfresh declaration hdeclaration (heq ▸ List.mem_cons_self)
          · intro declaration hmem
            rcases List.mem_cons.mp hmem with rfl | hrest
            · exact hnew
            · exact fun hseen => hfresh declaration hrest (List.mem_cons_of_mem _ hseen)

theorem mnemonic_ne_of_check {declarations : List Declaration}
    (hcheck : check [] declarations = .ok ()) {first second : Entry}
    (hfirst : first ∈ entriesOf declarations) (hsecond : second ∈ entriesOf declarations)
    (hne : first ≠ second) : first.declaration.mnemonic ≠ second.declaration.mnemonic := by
  intro hmnemonic
  have hget : ∀ entry ∈ entriesOf declarations,
      (declarations.map Declaration.mnemonic)[entry.id]? = some entry.declaration.mnemonic := by
    intro entry hmem
    rw [List.getElem?_map, mem_entriesOf.mp hmem, Option.map_some]
  have hid : first.id = second.id := by
    have hlt := (List.getElem?_eq_some_iff.mp (hget first hfirst)).1
    refine (List.getElem?_inj hlt (nodup_mnemonics_of_check hcheck).1).mp ?_
    rw [hget first hfirst, hget second hsecond, hmnemonic]
  exact hne (eq_of_id_eq hfirst hsecond hid)

theorem defect?_ne_ambiguous (declaration : Declaration) (first second : String)
    (sample : Encoding) : declaration.defect? ≠ some (.ambiguous first second sample) := by
  rw [Declaration.defect?]
  split_ifs <;> simp

theorem check_ne_ambiguous (seen : List String) (declarations : List Declaration)
    (first second : String) (sample : Encoding) :
    check seen declarations ≠ .error (.ambiguous first second sample) := by
  induction declarations generalizing seen with
  | nil => simp [check]
  | cons declaration rest ih =>
      rw [check]
      split
      · rename_i defect hdefect
        rintro heq
        cases heq
        exact defect?_ne_ambiguous declaration first second sample hdefect
      · split
        · simp
        · exact ih _

/-- Declarations that are sound by themselves have a decoder, unless they cannot be split. -/
theorem build_cases {xlen : Xlen} {declarations : List Declaration}
    (hnonempty : included xlen declarations ≠ [])
    (hcheck : check [] (included xlen declarations) = .ok ()) :
    (∃ decoder, build xlen declarations = .ok decoder) ∨
      ∃ error, build xlen declarations = .error error ∧
        split 33 (entriesOf (included xlen declarations)) 0 0 = .error error := by
  have hempty : ¬(included xlen declarations).isEmpty = true :=
    fun hnil => hnonempty (List.isEmpty_iff.mp hnil)
  rw [included] at hempty hcheck ⊢
  rw [build]
  dsimp only
  rw [if_neg hempty, hcheck]
  cases hsplit : split 33 (entriesOf (declarations.filter fun declaration =>
      declaration.variant.includes xlen)) 0 0 with
  | ok tree => exact .inl ⟨_, rfl⟩
  | error error => exact .inr ⟨error, rfl, rfl⟩

theorem check_of_build_ambiguous {xlen : Xlen} {declarations : List Declaration}
    {name other : String} {sample : Encoding}
    (hbuild : build xlen declarations = .error (.ambiguous name other sample)) :
    included xlen declarations ≠ [] ∧ check [] (included xlen declarations) = .ok () := by
  rw [build] at hbuild
  dsimp only at hbuild
  rw [← included] at hbuild
  split at hbuild
  · cases hbuild
  · rename_i hnonempty
    refine ⟨fun hnil => hnonempty (List.isEmpty_iff.mpr hnil), ?_⟩
    rcases error_of_bind hbuild with hcheck | ⟨_, hcheck, -⟩
    · exact absurd hcheck (check_ne_ambiguous _ _ _ _ _)
    · exact hcheck

/-- Between two equally specific declarations that accept an encoding a third one decides, and it
fixes no bits but theirs. -/
def Arbitrated (xlen : Xlen) (declarations : List Declaration) : Prop :=
  ∀ raw, ∀ first ∈ matching xlen declarations raw, ∀ second ∈ matching xlen declarations raw,
    first ≠ second → first.specificity = second.specificity →
      ∃ better ∈ matching xlen declarations raw, first.specificity < better.specificity ∧
        better.Within first second

/-- What a refused decoder says of the declarations that it names. -/
structure Conflict (xlen : Xlen) (declarations : List Declaration) (sample : Encoding)
    (first second : Declaration) : Prop where
  first_mem : first ∈ matching xlen declarations sample
  second_mem : second ∈ matching xlen declarations sample
  mnemonic_ne : first.mnemonic ≠ second.mnemonic
  specificity_eq : first.specificity = second.specificity
  specificity_le : ∀ other ∈ matching xlen declarations sample, other.Within first second →
    other.specificity ≤ first.specificity

theorem mem_matching_of_entry {xlen : Xlen} {declarations : List Declaration} {entry : Entry}
    {sample : Encoding} (hmem : entry ∈ entriesOf (included xlen declarations))
    (haccepts : entry.declaration.accepts sample = true) :
    entry.declaration ∈ matching xlen declarations sample :=
  mem_matching.mpr ⟨List.mem_of_getElem? (mem_entriesOf.mp hmem), haccepts⟩

theorem conflict_of_split {xlen : Xlen} {declarations : List Declaration} {error : BuildError}
    (hcheck : check [] (included xlen declarations) = .ok ())
    (hsplit : split 33 (entriesOf (included xlen declarations)) 0 0 = .error error) :
    ∃ sample first second, error = .ambiguous first.mnemonic second.mnemonic sample ∧
      Conflict xlen declarations sample first second := by
  obtain ⟨sample, first, second, -, herror, htied⟩ := tied_of_split (onPath_entriesOf hcheck) hsplit
  refine ⟨sample, first.declaration, second.declaration, herror, ?_⟩
  exact {
    first_mem := mem_matching_of_entry htied.first_mem htied.first_accepts
    second_mem := mem_matching_of_entry htied.second_mem htied.second_accepts
    mnemonic_ne := mnemonic_ne_of_check hcheck htied.first_mem htied.second_mem htied.ne
    specificity_eq := htied.specificity_eq
    specificity_le := by
      intro other hmem hwithin
      obtain ⟨hincluded, haccepts⟩ := mem_matching.mp hmem
      obtain ⟨id, hid⟩ := List.mem_iff_getElem?.mp hincluded
      exact htied.specificity_le ⟨id, other⟩ (mem_entriesOf.mpr hid) haccepts hwithin }

/-- Sound declarations between which all ties are decided have a decoder. Where one is refused as
ambiguous, the two declarations that are named are different and equally specific and both accept
the sample, and none that accepts it is better by bits of theirs alone. -/
theorem build_of_arbitrated (xlen : Xlen) (declarations : List Declaration) :
    (included xlen declarations ≠ [] → check [] (included xlen declarations) = .ok () →
      Arbitrated xlen declarations → ∃ decoder, build xlen declarations = .ok decoder) ∧
    ∀ name other sample, build xlen declarations = .error (.ambiguous name other sample) →
      ∃ first second, first.mnemonic = name ∧ second.mnemonic = other ∧
        Conflict xlen declarations sample first second := by
  constructor
  · intro hnonempty hcheck harbitrated
    rcases build_cases hnonempty hcheck with hok | ⟨error, -, hsplit⟩
    · exact hok
    · obtain ⟨sample, first, second, -, hconflict⟩ := conflict_of_split hcheck hsplit
      have hne : first ≠ second := fun heq => hconflict.mnemonic_ne (congrArg _ heq)
      obtain ⟨better, hbetter, hmore, hwithin⟩ := harbitrated sample first hconflict.first_mem
        second hconflict.second_mem hne hconflict.specificity_eq
      exact absurd hmore (Nat.not_lt_of_le (hconflict.specificity_le better hbetter hwithin))
  · intro name other sample hbuild
    obtain ⟨hnonempty, hcheck⟩ := check_of_build_ambiguous hbuild
    rcases build_cases hnonempty hcheck with ⟨decoder, hok⟩ | ⟨error, herror, hsplit⟩
    · rw [hok] at hbuild
      cases hbuild
    · obtain ⟨sample', first, second, rfl, hconflict⟩ := conflict_of_split hcheck hsplit
      rw [herror] at hbuild
      cases hbuild
      exact ⟨first, second, rfl, rfl, hconflict⟩

/-- Two declarations that overlap in part, and a third one for the part that they share. -/
def overlapping : List Declaration := [
  .define "LEFT" 0x7 0x3 [],
  .define "RIGHT" 0xB 0x3 [],
  .define "BOTH" 0xF 0x3 []]

theorem arbitrated_overlapping : Arbitrated .x64 overlapping := by
  intro raw first hfirst second hsecond hne heq
  have hincluded : included .x64 overlapping = overlapping := by decide
  rw [mem_matching, hincluded] at hfirst hsecond
  obtain ⟨hfirst, hfirstAccepts⟩ := hfirst
  obtain ⟨hsecond, hsecondAccepts⟩ := hsecond
  have hboth : raw &&& 0x7 = 0x3 → raw &&& 0xB = 0x3 →
      .define "BOTH" 0xF 0x3 [] ∈ matching .x64 overlapping raw := by
    intro hleft hright
    have hsplit : raw &&& 0xF = (raw &&& 0x7) ||| (raw &&& 0xB) := by
      rw [← BitVec.and_or_distrib_left]
      rfl
    refine mem_matching.mpr ⟨by decide, ?_⟩
    rw [Declaration.accepts, beq_iff_eq]
    exact hsplit.trans (by rw [hleft, hright]; rfl)
  simp only [overlapping, List.mem_cons, List.not_mem_nil, or_false] at hfirst hsecond
  -- of all pairs only the two that overlap in part are equally specific
  rcases hfirst with rfl | rfl | rfl <;> rcases hsecond with rfl | rfl | rfl
  · exact absurd rfl hne
  · exact ⟨_, hboth (beq_iff_eq.mp hfirstAccepts) (beq_iff_eq.mp hsecondAccepts),
      by decide, by decide⟩
  · exact absurd heq (by decide)
  · exact ⟨_, hboth (beq_iff_eq.mp hsecondAccepts) (beq_iff_eq.mp hfirstAccepts),
      by decide, by decide⟩
  · exact absurd rfl hne
  · exact absurd heq (by decide)
  · exact absurd heq (by decide)
  · exact absurd heq (by decide)
  · exact absurd rfl hne

/-- With the third declaration there is a decoder, and without it the first two conflict. -/
theorem build_overlapping :
    Arbitrated .x64 overlapping ∧ (∃ decoder, build .x64 overlapping = .ok decoder) ∧
      build .x64 (overlapping.take 2) = .error (.ambiguous "RIGHT" "LEFT" 0x3) ∧
      ∃ first second, first.mnemonic = "RIGHT" ∧ second.mnemonic = "LEFT" ∧
        Conflict .x64 (overlapping.take 2) 0x3 first second := by
  have hrefused : build .x64 (overlapping.take 2) = .error (.ambiguous "RIGHT" "LEFT" 0x3) := by
    cbv
  refine ⟨arbitrated_overlapping, ?_, hrefused, ?_⟩
  · exact (build_of_arbitrated .x64 overlapping).1 (by decide) (by decide) arbitrated_overlapping
  · exact (build_of_arbitrated .x64 (overlapping.take 2)).2 _ _ _ hrefused

/-- Two declarations of one pattern, and two that share out all that it accepts. -/
def shadowed : List Declaration := [
  .define "FIRST" 0x3 0x3 [],
  .define "SECOND" 0x3 0x3 [],
  .define "LOW" 0x7 0x3 [],
  .define "HIGH" 0x7 0x7 []]

/-- What matches and is not the better one of the last two is one of the first two. -/
theorem specificity_lt_of_shadowed {raw : Encoding} {best other : Declaration}
    (hbest : best ∈ shadowed.drop 2)
    (hrival : ∀ rival ∈ shadowed.drop 2, rival ≠ best → rival.accepts raw = false)
    (hother : other ∈ matching .x64 shadowed raw) (hne : other ≠ best) :
    other.specificity < best.specificity := by
  have hfew : ∀ worse ∈ shadowed.take 2, ∀ better ∈ shadowed.drop 2,
      worse.specificity < better.specificity := by
    decide
  have hincluded : included .x64 shadowed = shadowed.take 2 ++ shadowed.drop 2 := by decide
  rw [mem_matching, hincluded, List.mem_append] at hother
  obtain ⟨hfirst | hlast, haccepts⟩ := hother
  · exact hfew other hfirst best hbest
  · rw [hrival other hlast hne] at haccepts
    cases haccepts

theorem and_mask_of_shadowed {raw : Encoding} (hmatching : matching .x64 shadowed raw ≠ []) :
    raw &&& 0x7 = 0x3 ∨ raw &&& 0x7 = 0x7 := by
  obtain ⟨declaration, hdeclaration⟩ := List.exists_mem_of_ne_nil _ hmatching
  have hincluded : included .x64 shadowed = shadowed := by decide
  rw [mem_matching, hincluded] at hdeclaration
  obtain ⟨hmem, haccepts⟩ := hdeclaration
  have hsplit : raw &&& 0x7 = (raw &&& 0x3) ||| (raw &&& 0x4) := by
    rw [← BitVec.and_or_distrib_left]
    rfl
  have hbit : raw &&& 0x4 = if raw.getLsbD 2 then 0x4 else 0x0 := BitVec.and_twoPow raw 2
  have hlow : raw &&& 0x3 = 0x3 → raw &&& 0x7 = 0x3 ∨ raw &&& 0x7 = 0x7 := by
    intro hlow
    rw [hsplit, hlow, hbit]
    cases raw.getLsbD 2 with
    | false => exact .inl rfl
    | true => exact .inr rfl
  simp only [shadowed, List.mem_cons, List.not_mem_nil, or_false] at hmem
  rcases hmem with rfl | rfl | rfl | rfl
  · exact hlow (beq_iff_eq.mp haccepts)
  · exact hlow (beq_iff_eq.mp haccepts)
  · exact .inl (beq_iff_eq.mp haccepts)
  · exact .inr (beq_iff_eq.mp haccepts)

/-- Every encoding has one best declaration, and yet two that are best for none are refused, with a
sample for which a third one is better. -/
theorem build_shadowed :
    included .x64 shadowed ≠ [] ∧ check [] (included .x64 shadowed) = .ok () ∧
      (∀ raw, matching .x64 shadowed raw ≠ [] → ∃ best ∈ matching .x64 shadowed raw,
        ∀ other ∈ matching .x64 shadowed raw, other ≠ best →
          other.specificity < best.specificity) ∧
      build .x64 shadowed = .error (.ambiguous "FIRST" "SECOND" 0x3) ∧
      ∃ better ∈ matching .x64 shadowed 0x3, ∀ named ∈ shadowed.take 2,
        named.specificity < better.specificity := by
  refine ⟨by decide, by decide, ?_, rfl, .define "LOW" 0x7 0x3 [], by decide, by decide⟩
  intro raw hmatching
  -- the two that share out the pattern, and their masked values
  obtain ⟨best, hbest, hvalue⟩ : ∃ best ∈ shadowed.drop 2, raw &&& 0x7 = best.pattern := by
    rcases and_mask_of_shadowed hmatching with hlow | hhigh
    · exact ⟨.define "LOW" 0x7 0x3 [], by decide, hlow⟩
    · exact ⟨.define "HIGH" 0x7 0x7 [], by decide, hhigh⟩
  have hmask : ∀ declaration ∈ shadowed.drop 2, declaration.mask = 0x7 := by decide
  have haccepts : ∀ declaration ∈ shadowed.drop 2,
      (declaration.accepts raw = true ↔ best.pattern = declaration.pattern) := by
    intro declaration hmem
    rw [Declaration.accepts, hmask declaration hmem, hvalue, beq_iff_eq]
  have hdistinct : ∀ first ∈ shadowed.drop 2, ∀ second ∈ shadowed.drop 2,
      first.pattern = second.pattern → second = first := by
    decide
  refine ⟨best, mem_matching.mpr ⟨?_, (haccepts best hbest).mpr rfl⟩, fun other hother hne =>
    specificity_lt_of_shadowed hbest (fun rival hrival hrivalNe => ?_) hother hne⟩
  · have hincluded : included .x64 shadowed = shadowed := by decide
    rw [hincluded]
    exact List.mem_of_mem_drop hbest
  · refine Bool.eq_false_iff.mpr fun hrivalAccepts => hrivalNe ?_
    exact hdistinct best hbest rival hrival ((haccepts rival hrival).mp hrivalAccepts)

end Decoder

end RiscvMachine
