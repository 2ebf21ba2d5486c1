import Mathlib.Tactic.ByContra
import Mathlib.Tactic.Tauto
import RiscvMachine.Decoder.Build
/-!
The keys of a switch and the search among them. The keys are put into ascending order as they are
collected, and in a range of ascending keys the middle one tells on which side a key is.
-/

namespace RiscvMachine.Decoder

variable {key other : Encoding} {keys : List Encoding}

/-! ### Collecting keys -/

theorem mem_insertKey : other ∈ insertKey key keys ↔ other = key ∨ other ∈ keys := by
  induction keys with
  | nil => simp [insertKey]
  | cons first rest ih =>
      rw [insertKey]
      split
      · simp
      · split
        · rename_i _ heq
          simp [heq]
        · simp only [List.mem_cons, ih]
          tauto

theorem pairwise_insertKey (hascending : keys.Pairwise (· < ·)) :
    (insertKey key keys).Pairwise (· < ·) := by
  induction keys with
  | nil => simp [insertKey]
  | cons first rest ih =>
      obtain ⟨hfirst, hrest⟩ := List.pairwise_cons.mp hascending
      rw [insertKey]
      split
      · rename_i hless
        refine List.pairwise_cons.mpr ⟨?_, hascending⟩
        intro other hother
        rcases List.mem_cons.mp hother with rfl | hother
        · exact hless
        · exact BitVec.lt_trans hless (hfirst other hother)
      · rename_i hnot
        split
        · exact hascending
        · rename_i hne
          refine List.pairwise_cons.mpr ⟨?_, ih hrest⟩
          intro other hother
          rcases mem_insertKey.mp hother with rfl | hother
          · exact BitVec.lt_of_le_ne (BitVec.not_lt.mp hnot) (Ne.symm hne)
          · exact hfirst other hother

theorem mem_keys {mask : Encoding} {candidates : List Entry} :
    key ∈ Decoder.keys mask candidates ↔
      ∃ entry ∈ candidates, entry.declaration.pattern &&& mask = key := by
  induction candidates with
  | nil => simp [Decoder.keys]
  | cons first rest ih =>
      have hstep : Decoder.keys mask (first :: rest) =
          insertKey (first.declaration.pattern &&& mask) (Decoder.keys mask rest) := rfl
      rw [hstep, mem_insertKey, ih]
      simp [eq_comm]

theorem pairwise_keys (mask : Encoding) (candidates : List Entry) :
    (Decoder.keys mask candidates).Pairwise (· < ·) := by
  induction candidates with
  | nil => exact .nil
  | cons first rest ih => exact pairwise_insertKey ih

/-! ### Searching keys -/

theorem lt_of_getElem? (hascending : keys.Pairwise (· < ·)) {index middle : Nat}
    {candidate : Encoding} (hindex : keys[index]? = some key)
    (hmiddle : keys[middle]? = some candidate) (hless : index < middle) : key < candidate := by
  obtain ⟨hindexLt, rfl⟩ := List.getElem?_eq_some_iff.mp hindex
  obtain ⟨hmiddleLt, rfl⟩ := List.getElem?_eq_some_iff.mp hmiddle
  exact List.pairwise_iff_getElem.mp hascending index middle hindexLt hmiddleLt hless

/-- The invariant of the search: the key stays inside of the range. -/
theorem narrow_eq (hascending : keys.Pairwise (· < ·)) {index : Nat}
    (hindex : keys[index]? = some key) {fuel base size : Nat} (hfuel : size ≤ fuel + 1)
    (hbase : base ≤ index) (hsize : index < base + size) :
    narrow keys key fuel base size = index := by
  induction fuel generalizing base size with
  | zero =>
      rw [narrow]
      omega
  | succ fuel ih =>
      rw [narrow]
      split
      · omega
      · rename_i hlarge
        dsimp only
        split
        · rename_i candidate hmiddle
          split
          · rename_i hbelow
            have hindexLt : index < base + size / 2 := by
              by_contra hnot
              rcases Nat.eq_or_lt_of_le (Nat.le_of_not_lt hnot) with heq | hless
              · rw [heq, hindex] at hmiddle
                cases hmiddle
                exact BitVec.lt_irrefl key hbelow
              · exact BitVec.lt_asymm hbelow (lt_of_getElem? hascending hmiddle hindex hless)
            exact ih (by omega) hbase (by omega)
          · rename_i habove
            have hmiddleLe : base + size / 2 ≤ index := by
              by_contra hnot
              exact habove (lt_of_getElem? hascending hindex hmiddle (Nat.lt_of_not_le hnot))
            have hrange : index < base + size / 2 + (size - size / 2) := by omega
            exact ih (by omega) hmiddleLe hrange
        · -- no key is so far up, and the lower half goes on
          rename_i hmissing
          have hbeyond := List.getElem?_eq_none_iff.mp hmissing
          have hindexLt := (List.getElem?_eq_some_iff.mp hindex).1
          exact ih (by omega) hbase (by omega)

theorem search_eq_some (hascending : keys.Pairwise (· < ·)) {index : Nat}
    (hindex : keys[index]? = some key) : search keys key = some index := by
  have hindexLt := (List.getElem?_eq_some_iff.mp hindex).1
  have hnarrow : narrow keys key keys.length 0 keys.length = index :=
    narrow_eq hascending hindex (Nat.le_succ _) (Nat.zero_le _) (by omega)
  rw [search, hnarrow]
  exact if_pos hindex

theorem getElem?_of_search {position : Nat} (hsearch : search keys key = some position) :
    keys[position]? = some key := by
  rw [search] at hsearch
  split at hsearch
  · rename_i hfound
    cases hsearch
    exact hfound
  · cases hsearch

theorem search_eq_none (hmissing : key ∉ keys) : search keys key = none := by
  rw [search]
  exact if_neg fun hfound => hmissing (List.mem_of_getElem? hfound)

end RiscvMachine.Decoder
