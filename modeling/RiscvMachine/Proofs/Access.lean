import Mathlib.Tactic.Tauto
import RiscvMachine.Hart.Access
/-!
Accesses to memory leave a hart as it is, up to the translations it remembers and the bytes that a
store writes. What they report is a fault of the kind of access.
-/

namespace RiscvMachine

def TrapCause.faults (access : Access) : List TrapCause :=
  [.addressMisaligned access, .accessFault access, .pageFault access]

namespace TrapCause

theorem ofMemory_mem_faults (error : MemoryError) (access : Access) :
    ofMemory error access ∈ faults access := by
  cases error <;> simp [ofMemory, faults]

end TrapCause

theorem Translation.translate_eq_error {translation : Translation} {memory : MemoryMap}
    {address : Word} {access : Access} {error : TranslationError}
    (herror : (translation.translate memory address access).1 = .error error) :
    TrapCause.ofTranslation error ∈ TrapCause.faults access := by
  cases translation with
  | identity cache =>
      simp only [translate, PageCache.translate] at herror
      split at herror
      · cases herror
      · split at herror <;> cases herror
        simp [TrapCause.ofTranslation, TrapCause.faults]
  | paged pageMap =>
      simp only [translate, PageMap.translate] at herror
      split at herror
      · cases herror
        simp [TrapCause.ofTranslation, TrapCause.faults]
      · split at herror <;> cases herror
        simp [TrapCause.ofTranslation, TrapCause.faults]

namespace Hart

/-- The second hart may remember other translations, and is the same otherwise. -/
def Retranslated (before after : Hart) : Prop :=
  ∃ translation, after = { before with translation := translation }

variable {hart after : Hart} {address value : Word}

theorem translate_spec {access : Access} {result : Except TrapCause Word}
    (htranslate : hart.translate address access = (result, after)) :
    Retranslated hart after ∧
      ∀ cause, result = .error cause → cause ∈ TrapCause.faults access := by
  rw [translate] at htranslate
  cases houtcome : hart.translation.translate hart.memory address access with
  | mk outcome translation =>
      rw [houtcome] at htranslate
      cases htranslate
      refine ⟨⟨translation, rfl⟩, fun cause hcause => ?_⟩
      cases outcome with
      | ok physical => cases hcause
      | error error =>
          cases hcause
          exact Translation.translate_eq_error (congrArg Prod.fst houtcome)

theorem fetchHalf_eq_error {cause : TrapCause} (hfetch : hart.fetchHalf address = .error cause) :
    cause ∈ TrapCause.faults .fetch := by
  rw [fetchHalf] at hfetch
  split at hfetch <;> cases hfetch
  exact TrapCause.ofMemory_mem_faults _ _

theorem fetchHigh_spec {pc : Word} {result : Except TrapCause Encoding}
    (hfetch : hart.fetchHigh pc address = (result, after)) :
    Retranslated hart after ∧
      ∀ cause, result = .error cause → cause ∈ TrapCause.faults .fetch := by
  rw [fetchHigh] at hfetch
  split at hfetch
  · split at hfetch <;> cases hfetch <;> rename_i htranslate
    · obtain ⟨hframe, hfault⟩ := translate_spec htranslate
      exact ⟨hframe, fun cause hcause => by cases hcause; exact hfault _ rfl⟩
    · obtain ⟨⟨translation, rfl⟩, -⟩ := translate_spec htranslate
      exact ⟨⟨translation, rfl⟩, fun cause hcause => fetchHalf_eq_error hcause⟩
  · cases hfetch
    exact ⟨⟨hart.translation, rfl⟩, fun cause hcause => fetchHalf_eq_error hcause⟩

theorem fetch_spec {pc : Word} {result : Except TrapCause Encoding}
    (hfetch : hart.fetch pc = (result, after)) :
    Retranslated hart after ∧
      ∀ cause, result = .error cause → cause ∈ TrapCause.faults .fetch := by
  rw [fetch] at hfetch
  split at hfetch <;> rename_i htranslate
  · cases hfetch
    obtain ⟨hframe, hfault⟩ := translate_spec htranslate
    exact ⟨hframe, fun cause hcause => by cases hcause; exact hfault _ rfl⟩
  · obtain ⟨⟨translation, rfl⟩, -⟩ := translate_spec htranslate
    split at hfetch <;> rename_i hlow
    · cases hfetch
      exact ⟨⟨translation, rfl⟩, fun cause hcause => by
        cases hcause; exact fetchHalf_eq_error hlow⟩
    · split at hfetch
      · cases hfetch
        exact ⟨⟨translation, rfl⟩, fun cause hcause => by cases hcause⟩
      · split at hfetch <;> rename_i hhigh <;> cases hfetch
        · obtain ⟨⟨translation, rfl⟩, hfault⟩ := fetchHigh_spec hhigh
          exact ⟨⟨translation, rfl⟩, fun cause hcause => by cases hcause; exact hfault _ rfl⟩
        · obtain ⟨⟨translation, rfl⟩, -⟩ := fetchHigh_spec hhigh
          exact ⟨⟨translation, rfl⟩, fun cause hcause => by cases hcause⟩

/-- A load changes nothing but remembered translations, and a failed one reports its address. -/
theorem load_spec {size : AccessSize} {result : Except Exception Word}
    (hload : hart.load address size = (result, after)) :
    Retranslated hart after ∧
      ∀ exception, result = .error exception →
        exception.cause ∈ TrapCause.faults .load ∧ exception.value = hart.xlen.address address := by
  rw [load] at hload
  split at hload <;> rename_i htranslate
  · cases hload
    obtain ⟨hframe, hfault⟩ := translate_spec htranslate
    exact ⟨hframe, fun exception hexception => by
      cases hexception; exact ⟨hfault _ rfl, rfl⟩⟩
  · obtain ⟨⟨translation, rfl⟩, -⟩ := translate_spec htranslate
    split at hload <;> cases hload
    · exact ⟨⟨translation, rfl⟩, fun exception hexception => by
        cases hexception; exact ⟨TrapCause.ofMemory_mem_faults _ _, rfl⟩⟩
    · exact ⟨⟨translation, rfl⟩, fun exception hexception => by cases hexception⟩

theorem store_eq_error {size : AccessSize} {exception : Exception}
    (hstore : hart.store address value size = (.error exception, after)) :
    Retranslated hart after ∧
      exception.cause ∈ TrapCause.faults .store ∧ exception.value = hart.xlen.address address := by
  rw [store] at hstore
  split at hstore <;> rename_i htranslate
  · cases hstore
    obtain ⟨hframe, hfault⟩ := translate_spec htranslate
    exact ⟨hframe, hfault _ rfl, rfl⟩
  · obtain ⟨⟨translation, rfl⟩, -⟩ := translate_spec htranslate
    split at hstore <;> cases hstore
    exact ⟨⟨translation, rfl⟩, TrapCause.ofMemory_mem_faults _ _, rfl⟩

/-- A store that succeeds changes remembered translations and memory at the physical address. -/
theorem store_eq_ok {size : AccessSize}
    (hstore : hart.store address value size = (.ok (), after)) :
    ∃ translation memory physical,
      after = { hart with translation := translation, memory := memory } ∧
      hart.translate (hart.xlen.address address) .store =
        (.ok physical, { hart with translation := translation }) ∧
      hart.memory.store physical value size = .ok memory := by
  rw [store] at hstore
  split at hstore
  · cases hstore
  · rename_i physical translated htranslate
    obtain ⟨⟨translation, rfl⟩, -⟩ := translate_spec htranslate
    split at hstore <;> cases hstore
    rename_i memory hmemory
    exact ⟨translation, memory, physical, rfl, htranslate, hmemory⟩

theorem retranslated_load (hart : Hart) (address : Word) (size : AccessSize) :
    Retranslated hart (hart.load address size).2 :=
  (load_spec rfl).1

theorem store_frame (hart : Hart) (address value : Word) (size : AccessSize) :
    ∃ translation memory, (hart.store address value size).2 =
      { hart with translation := translation, memory := memory } := by
  rcases hstore : hart.store address value size with ⟨exception | stored, after⟩
  · obtain ⟨translation, hframe⟩ := (store_eq_error hstore).1
    exact ⟨translation, hart.memory, hframe⟩
  · obtain ⟨translation, memory, physical, hframe, -, -⟩ := store_eq_ok hstore
    exact ⟨translation, memory, hframe⟩

end Hart

end RiscvMachine
