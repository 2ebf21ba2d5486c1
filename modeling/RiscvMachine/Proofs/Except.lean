import Mathlib.Init
/-!
Computations that may fail: what a result of a sequence of them says about each.
-/

namespace RiscvMachine

variable {ε ε' α β : Type}

theorem exists_ok_of_bind {first : Except ε α} {next : α → Except ε β} {result : β}
    (hbind : (first >>= next) = .ok result) :
    ∃ value, first = .ok value ∧ next value = .ok result := by
  cases first with
  | error error => cases hbind
  | ok value => exact ⟨value, rfl, hbind⟩

theorem error_of_bind {first : Except ε α} {next : α → Except ε β} {error : ε}
    (hbind : (first >>= next) = .error error) :
    first = .error error ∨ ∃ value, first = .ok value ∧ next value = .error error := by
  cases first with
  | error error =>
      cases hbind
      exact .inl rfl
  | ok value => exact .inr ⟨value, rfl, hbind⟩

theorem exists_ok_of_toBool {outcome : Except ε α} (hbool : outcome.toBool = true) :
    ∃ value, outcome = .ok value := by
  cases outcome with
  | error error => cases hbool
  | ok value => exact ⟨value, rfl⟩

theorem ok_of_mapError {outcome : Except ε α} {rename : ε → ε'} {result : α}
    (hmap : outcome.mapError rename = .ok result) : outcome = .ok result := by
  cases outcome with
  | error error => cases hmap
  | ok value => cases hmap; rfl

theorem mapError_eq_ok_iff {outcome : Except ε α} {rename : ε → ε'} {result : α} :
    outcome.mapError rename = .ok result ↔ outcome = .ok result := by
  refine ⟨ok_of_mapError, ?_⟩
  rintro rfl
  rfl

/-- Computations in a row succeed exactly when each of them does. -/
theorem exists_mapM_eq_ok_iff {function : α → Except ε β} {elements : List α} :
    (∃ results, elements.mapM function = .ok results) ↔
      ∀ element ∈ elements, ∃ result, function element = .ok result := by
  induction elements with
  | nil => simp [pure, Except.pure]
  | cons first rest ih =>
      rw [List.forall_mem_cons, ← ih]
      constructor
      · rintro ⟨results, hmap⟩
        rw [List.mapM_cons] at hmap
        obtain ⟨firstResult, hfirst, hmap⟩ := exists_ok_of_bind hmap
        obtain ⟨restResults, hrest, -⟩ := exists_ok_of_bind hmap
        exact ⟨⟨firstResult, hfirst⟩, restResults, hrest⟩
      · rintro ⟨⟨firstResult, hfirst⟩, restResults, hrest⟩
        exact ⟨firstResult :: restResults, by rw [List.mapM_cons, hfirst, hrest]; rfl⟩

/-- Results come in the order of the elements they belong to. -/
theorem getElem?_of_mapM {function : α → Except ε β} {elements : List α} {results : List β}
    (hmap : elements.mapM function = .ok results) {index : Nat} {element : α}
    (helement : elements[index]? = some element) :
    ∃ result, function element = .ok result ∧ results[index]? = some result := by
  induction elements generalizing results index with
  | nil => simp at helement
  | cons first rest ih =>
      rw [List.mapM_cons] at hmap
      obtain ⟨firstResult, hfirst, hmap⟩ := exists_ok_of_bind hmap
      obtain ⟨restResults, hrest, hmap⟩ := exists_ok_of_bind hmap
      cases hmap
      cases index with
      | zero =>
          cases helement
          exact ⟨firstResult, hfirst, rfl⟩
      | succ index => exact ih hrest helement

/-- Every result is that of one of the elements. -/
theorem exists_of_mem_mapM {function : α → Except ε β} {elements : List α} {results : List β}
    (hmap : elements.mapM function = .ok results) {result : β} (hresult : result ∈ results) :
    ∃ element ∈ elements, function element = .ok result := by
  induction elements generalizing results with
  | nil =>
      rw [List.mapM_nil] at hmap
      cases hmap
      cases hresult
  | cons first rest ih =>
      rw [List.mapM_cons] at hmap
      obtain ⟨firstResult, hfirst, hmap⟩ := exists_ok_of_bind hmap
      obtain ⟨restResults, hrest, hmap⟩ := exists_ok_of_bind hmap
      cases hmap
      rcases List.mem_cons.mp hresult with rfl | hresult
      · exact ⟨first, List.mem_cons_self, hfirst⟩
      · obtain ⟨element, hmem, helement⟩ := ih hrest hresult
        exact ⟨element, List.mem_cons_of_mem _ hmem, helement⟩

/-- Where one computation succeeds another does, and so do they in a row. -/
theorem mapM_eq_ok_map {γ : Type} {function : α → Except ε β} {other : α → Except ε γ}
    {convert : β → γ} {elements : List α} {results : List β}
    (helement : ∀ element result, function element = .ok result →
      other element = .ok (convert result))
    (hmap : elements.mapM function = .ok results) :
    elements.mapM other = .ok (results.map convert) := by
  induction elements generalizing results with
  | nil =>
      rw [List.mapM_nil] at hmap
      cases hmap
      rfl
  | cons first rest ih =>
      rw [List.mapM_cons] at hmap
      obtain ⟨firstResult, hfirst, hmap⟩ := exists_ok_of_bind hmap
      obtain ⟨restResults, hrest, hmap⟩ := exists_ok_of_bind hmap
      cases hmap
      rw [List.mapM_cons, helement first firstResult hfirst, ih hrest]
      rfl

/-- A failure is that of one of the elements. -/
theorem exists_error_of_mapM {function : α → Except ε β} {elements : List α} {error : ε}
    (hmap : elements.mapM function = .error error) :
    ∃ element ∈ elements, function element = .error error := by
  induction elements with
  | nil =>
      rw [List.mapM_nil] at hmap
      cases hmap
  | cons first rest ih =>
      rw [List.mapM_cons] at hmap
      rcases error_of_bind hmap with hfirst | ⟨result, -, hmap⟩
      · exact ⟨first, List.mem_cons_self, hfirst⟩
      · rcases error_of_bind hmap with hrest | ⟨results, -, hmap⟩
        · obtain ⟨element, hmem, helement⟩ := ih hrest
          exact ⟨element, List.mem_cons_of_mem _ hmem, helement⟩
        · cases hmap

/-- What is computed for a key is kept beside it. -/
theorem map_fst_of_mapM {function : α → Except ε β} {keys : List α} {results : List (α × β)}
    (hmap : (keys.mapM fun key => do
      let result ← function key
      return (key, result)) = .ok results) :
    results.map Prod.fst = keys := by
  induction keys generalizing results with
  | nil =>
      rw [List.mapM_nil] at hmap
      cases hmap
      rfl
  | cons first rest ih =>
      rw [List.mapM_cons] at hmap
      obtain ⟨case, hcase, hmap⟩ := exists_ok_of_bind hmap
      obtain ⟨restResults, hrest, hmap⟩ := exists_ok_of_bind hmap
      obtain ⟨result, -, hcase⟩ := exists_ok_of_bind hcase
      cases hcase
      cases hmap
      rw [List.map_cons, ih hrest]

end RiscvMachine
