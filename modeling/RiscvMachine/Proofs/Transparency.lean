import RiscvMachine.Proofs.Standard
import RiscvMachine.Proofs.Surroundings
/-!
Transparency of the page cache. The identity translation may remember any pages, also such that are
not in memory: what it would have refused is then refused by the memory itself, with the same cause
and value. So no run depends on what is remembered.
-/

namespace RiscvMachine

namespace MemoryMap

variable {memory : MemoryMap} {address : Word}

theorem load_of_not_contains (hmissing : memory.contains address = false) (size : AccessSize) :
    memory.load address size = .error (.outOfRange address size) := by
  have hfind : memory.find? address = none := by
    rw [find?, List.find?_eq_none]
    rw [contains, List.any_eq_false] at hmissing
    exact hmissing
  rw [load, hfind]

theorem updateFirst_of_not_contains {regions : List Region} {size : AccessSize}
    {update : Region → Except MemoryError Region}
    (hmissing : ∀ region ∈ regions, ¬region.contains address = true) :
    updateFirst address size update regions = .error (.outOfRange address size) := by
  induction regions with
  | nil => rfl
  | cons region rest ih =>
      rw [updateFirst, if_neg (hmissing region List.mem_cons_self),
        ih fun other hother => hmissing other (List.mem_cons_of_mem _ hother)]
      rfl

theorem store_of_not_contains (hmissing : memory.contains address = false) (value : Word)
    (size : AccessSize) : memory.store address value size = .error (.outOfRange address size) := by
  rw [contains, List.any_eq_false] at hmissing
  rw [store, updateFirst_of_not_contains hmissing]
  rfl

end MemoryMap

/-- The same memory, whatever pages the identity translations remember. -/
def Surroundings.SameMemory (first second : Surroundings) : Prop :=
  second.memory = first.memory ∧ (∃ cache, first.translation = .identity cache) ∧
    ∃ cache, second.translation = .identity cache

namespace Hart

/-- The hart with the identity translation and some pages remembered. -/
def withTags (hart : Hart) (cache : PageCache) : Hart :=
  { hart with translation := .identity cache }

/-- Whatever is remembered, the result is the same, and so is the hart up to what it remembers. -/
def Transparent {α : Type} (run : Hart → α × Hart) (hart : Hart) : Prop :=
  ∃ (result : α) (after : Hart), ∀ cache, ∃ cache',
    run (hart.withTags cache) = (result, after.withTags cache')

variable {hart : Hart} {cache : PageCache}

@[simp]
theorem xlen_withTags : (hart.withTags cache).xlen = hart.xlen := rfl

@[simp]
theorem memory_withTags : (hart.withTags cache).memory = hart.memory := rfl

@[simp]
theorem fetchHalf_withTags (address : Word) :
    (hart.withTags cache).fetchHalf address = hart.fetchHalf address := rfl

/-! ### Accesses -/

/-- An address is its own translation, unless it is neither remembered nor in memory. -/
theorem translate_withTags (hart : Hart) (cache : PageCache) (address : Word) (access : Access) :
    ∃ cache', (hart.withTags cache).translate address access = (.ok address, hart.withTags cache') ∨
      hart.memory.contains address = false ∧ (hart.withTags cache).translate address access =
        (.error (.accessFault access), hart.withTags cache') := by
  by_cases hholds : cache.holds (pageOf address) = true
  · refine ⟨cache, .inl ?_⟩
    simp [translate, withTags, Translation.translate, PageCache.translate, hholds, Except.mapError]
  · by_cases hcontains : hart.memory.contains address = true
    · refine ⟨cache.insert (pageOf address), .inl ?_⟩
      simp [translate, withTags, Translation.translate, PageCache.translate, hholds, hcontains,
        Except.mapError]
    · refine ⟨cache, .inr ⟨Bool.eq_false_of_not_eq_true hcontains, ?_⟩⟩
      simp [translate, withTags, Translation.translate, PageCache.translate, hholds, hcontains,
        Except.mapError, TrapCause.ofTranslation]

theorem fetchHalf_of_not_contains {address : Word} (hmissing : hart.memory.contains address = false) :
    hart.fetchHalf address = .error (.accessFault .fetch) := by
  rw [fetchHalf, MemoryMap.load_of_not_contains hmissing]
  rfl

theorem fetchHigh_transparent (hart : Hart) (pc : Word) :
    Transparent (fun hart => hart.fetchHigh pc pc) hart := by
  by_cases hpage : pageOffset (hart.xlen.address (pc + 2)) = 0
  · refine ⟨hart.fetchHalf (hart.xlen.address (pc + 2)), hart, fun cache => ?_⟩
    obtain ⟨cache', htranslate | ⟨hmissing, htranslate⟩⟩ :=
      translate_withTags hart cache (hart.xlen.address (pc + 2)) .fetch
    · refine ⟨cache', ?_⟩
      simp only [fetchHigh, xlen_withTags, if_pos hpage, htranslate]
      rfl
    · refine ⟨cache', ?_⟩
      simp only [fetchHigh, xlen_withTags, if_pos hpage, htranslate,
        fetchHalf_of_not_contains hmissing]
  · refine ⟨hart.fetchHalf (pc + 2), hart, fun cache => ⟨cache, ?_⟩⟩
    exact if_neg hpage

theorem fetch_transparent (hart : Hart) (pc : Word) :
    Transparent (fun hart => hart.fetch pc) hart := by
  cases hlow : hart.fetchHalf pc with
  | error cause =>
      refine ⟨.error cause, hart, fun cache => ?_⟩
      obtain ⟨cache', htranslate | ⟨hmissing, htranslate⟩⟩ := translate_withTags hart cache pc .fetch
      · refine ⟨cache', ?_⟩
        simp only [fetch, htranslate, fetchHalf_withTags, hlow]
      · refine ⟨cache', ?_⟩
        rw [fetchHalf_of_not_contains hmissing] at hlow
        cases hlow
        simp only [fetch, htranslate]
  | ok low =>
      -- what can be fetched is in memory, so it is never refused
      have htranslated : ∀ cache, ∃ cache',
          (hart.withTags cache).translate pc .fetch = (.ok pc, hart.withTags cache') := by
        intro cache
        obtain ⟨cache', htranslate | ⟨hmissing, -⟩⟩ := translate_withTags hart cache pc .fetch
        · exact ⟨cache', htranslate⟩
        · rw [fetchHalf_of_not_contains hmissing] at hlow
          cases hlow
      cases hlength : EncodedLength.of low with
      | compressed =>
          refine ⟨.ok low, hart, fun cache => ?_⟩
          obtain ⟨cache', htranslate⟩ := htranslated cache
          refine ⟨cache', ?_⟩
          simp only [fetch, htranslate, fetchHalf_withTags, hlow, hlength]
      | full =>
          obtain ⟨high, after, hhigh⟩ := fetchHigh_transparent hart pc
          refine ⟨high.map fun (high : Encoding) => low ||| (high <<< 16), after, fun cache => ?_⟩
          obtain ⟨cache', htranslate⟩ := htranslated cache
          obtain ⟨cache'', hhigh⟩ := hhigh cache'
          refine ⟨cache'', ?_⟩
          simp only [fetch, htranslate, fetchHalf_withTags, hlow, hlength, hhigh]
          cases high <;> rfl

theorem load_transparent (hart : Hart) (address : Word) (size : AccessSize) :
    Transparent (fun hart => hart.load address size) hart := by
  refine ⟨(hart.memory.load (hart.xlen.address address) size).mapError
    fun error => ⟨.ofMemory error .load, hart.xlen.address address⟩, hart, fun cache => ?_⟩
  obtain ⟨cache', htranslate | ⟨hmissing, htranslate⟩⟩ :=
    translate_withTags hart cache (hart.xlen.address address) .load
  · refine ⟨cache', ?_⟩
    simp only [load, xlen_withTags, htranslate, memory_withTags]
    cases hart.memory.load (hart.xlen.address address) size <;> rfl
  · refine ⟨cache', ?_⟩
    simp only [load, xlen_withTags, htranslate, MemoryMap.load_of_not_contains hmissing]
    rfl

theorem store_transparent (hart : Hart) (address value : Word) (size : AccessSize) :
    Transparent (fun hart => hart.store address value size) hart := by
  cases hstore : hart.memory.store (hart.xlen.address address) value size with
  | error error =>
      refine ⟨.error ⟨.ofMemory error .store, hart.xlen.address address⟩, hart, fun cache => ?_⟩
      obtain ⟨cache', htranslate | ⟨hmissing, htranslate⟩⟩ :=
        translate_withTags hart cache (hart.xlen.address address) .store
      · refine ⟨cache', ?_⟩
        simp only [store, xlen_withTags, htranslate, memory_withTags, hstore]
      · refine ⟨cache', ?_⟩
        rw [MemoryMap.store_of_not_contains hmissing] at hstore
        cases hstore
        simp only [store, xlen_withTags, htranslate]
        rfl
  | ok memory =>
      refine ⟨.ok (), { hart with memory := memory }, fun cache => ?_⟩
      obtain ⟨cache', htranslate | ⟨hmissing, htranslate⟩⟩ :=
        translate_withTags hart cache (hart.xlen.address address) .store
      · refine ⟨cache', ?_⟩
        simp only [store, xlen_withTags, htranslate, memory_withTags, hstore]
        rfl
      · rw [MemoryMap.store_of_not_contains hmissing] at hstore
        cases hstore

/-! ### Two harts -/

/-- The harts use the identity translation and are equal, up to the pages that they remember. -/
def SameButTags (first second : Hart) : Prop :=
  ∃ (hart : Hart) (cache cache' : PageCache),
    first = hart.withTags cache ∧ second = hart.withTags cache'

def SameResult {α : Type} (first second : α × Hart) : Prop :=
  first.1 = second.1 ∧ SameButTags first.2 second.2

/-- What changes the remembered pages: a hart as it would be otherwise, and as it is. -/
inductive CacheEffect (hart : Hart) : Hart → Hart → Prop
  | invalidate : CacheEffect hart hart hart.invalidate
  | fence (operands : Operands) :
      CacheEffect hart hart (Operation.translationFence.execute operands hart).2
  | writeRoot (value : Word) :
      CacheEffect hart
        { hart with controls := hart.controls.write Csr.supervisorTranslation value }
        (hart.setCsr Csr.supervisorTranslation value)
  | fetch (pc : Word) : CacheEffect hart hart (hart.fetch pc).2
  | load (address : Word) (size : AccessSize) : CacheEffect hart hart (hart.load address size).2
  | store (address value : Word) (size : AccessSize) :
      CacheEffect hart { hart with memory := (hart.store address value size).2.memory }
        (hart.store address value size).2

theorem Transparent.sameResult {α : Type} {run : Hart → α × Hart} (hrun : Transparent run hart)
    (cache cache' : PageCache) : SameResult (run (hart.withTags cache)) (run (hart.withTags cache')) := by
  obtain ⟨result, after, hrun⟩ := hrun
  obtain ⟨left, hleft⟩ := hrun cache
  obtain ⟨right, hright⟩ := hrun cache'
  rw [hleft, hright]
  exact ⟨rfl, after, left, right, rfl, rfl⟩

/-- An access that changes nothing but the translation leaves an identity translation. -/
theorem sameButTags_of_retranslated {α : Type} {run : Hart → α × Hart}
    (hrun : Transparent run hart) (cache : PageCache)
    (hframe : Retranslated (hart.withTags cache) (run (hart.withTags cache)).2) :
    SameButTags (hart.withTags cache) (run (hart.withTags cache)).2 := by
  obtain ⟨result, after, hrun⟩ := hrun
  obtain ⟨cache', hcache⟩ := hrun cache
  rw [hcache] at hframe ⊢
  obtain ⟨translation, hframe⟩ := hframe
  refine ⟨hart, cache, cache', rfl, ?_⟩
  have htranslation : Translation.identity cache' = translation :=
    congrArg Hart.translation hframe
  rw [hframe, ← htranslation]
  rfl

theorem sameButTags_store (hart : Hart) (cache : PageCache) (address value : Word)
    (size : AccessSize) :
    let stored := ((hart.withTags cache).store address value size).2
    SameButTags { hart.withTags cache with memory := stored.memory } stored := by
  obtain ⟨result, after, hrun⟩ := store_transparent hart address value size
  obtain ⟨cache', hstore⟩ := hrun cache
  obtain ⟨translation, memory, hframe⟩ := (hart.withTags cache).store_frame address value size
  simp only [hstore] at hframe
  have htranslation : Translation.identity cache' = translation := congrArg Hart.translation hframe
  refine ⟨{ hart with memory := memory }, cache, cache', ?_, ?_⟩
  · simp only [hstore, hframe]
    rfl
  · simp only [hstore, hframe, ← htranslation]
    rfl

theorem sameButTags_fence (hart : Hart) (cache : PageCache) (operands : Operands) :
    SameButTags (hart.withTags cache)
      (Operation.translationFence.execute operands (hart.withTags cache)).2 := by
  rcases hfence : Operation.translationFence.execute operands (hart.withTags cache) with
    ⟨exception | flow, after⟩
  · obtain ⟨-, rfl⟩ := executeTranslationFence_eq_error hfence
    exact ⟨hart, cache, cache, rfl, rfl⟩
  · obtain ⟨-, rfl⟩ := executeTranslationFence_eq_ok hfence
    exact ⟨hart, cache, .empty, rfl, rfl⟩

theorem sameButTags_of_cacheEffect {cache : PageCache} {without touched : Hart}
    (heffect : CacheEffect (hart.withTags cache) without touched) : SameButTags without touched := by
  cases heffect with
  | invalidate => exact ⟨hart, cache, .empty, rfl, rfl⟩
  | fence operands => exact sameButTags_fence hart cache operands
  | writeRoot value =>
      exact ⟨{ hart with controls := hart.controls.write Csr.supervisorTranslation value },
        cache, .empty, rfl, rfl⟩
  | fetch pc =>
      exact sameButTags_of_retranslated (fetch_transparent hart pc) cache (fetch_spec rfl).1
  | load address size =>
      exact sameButTags_of_retranslated (load_transparent hart address size) cache (load_spec rfl).1
  | store address value size => exact sameButTags_store hart cache address value size

theorem sameButTags_iff {first second : Hart} :
    SameButTags first second ↔ Alike Surroundings.SameMemory first second := by
  constructor
  · rintro ⟨hart, cache, cache', rfl, rfl⟩
    exact ⟨⟨hart.memory, .identity cache'⟩, ⟨rfl, ⟨cache, rfl⟩, ⟨cache', rfl⟩⟩, rfl⟩
  · rintro ⟨⟨memory, translation⟩, ⟨hmemory, ⟨cache, hcache⟩, ⟨cache', hcache'⟩⟩, rfl⟩
    cases hmemory
    cases hcache'
    refine ⟨first, cache, cache', ?_, rfl⟩
    change first.translation = .identity cache at hcache
    rw [withTags, ← hcache]

theorem Transparent.mirrored {α : Type} {run : Hart → α × Hart} {first second : Hart}
    (hrun : ∀ hart, Transparent run hart) (halike : Alike Surroundings.SameMemory first second) :
    Mirrored Surroundings.SameMemory (run first) (run second) := by
  obtain ⟨hart, cache, cache', rfl, rfl⟩ := sameButTags_iff.mpr halike
  obtain ⟨hresult, hafter⟩ := (hrun hart).sameResult cache cache'
  exact ⟨hresult.symm, sameButTags_iff.mp hafter⟩

theorem indistinguishable_sameMemory : Indistinguishable Surroundings.SameMemory where
  fetch := fun halike pc => Transparent.mirrored (fun hart => fetch_transparent hart pc) halike
  load := fun halike address size =>
    Transparent.mirrored (fun hart => load_transparent hart address size) halike
  store := fun halike address value size =>
    Transparent.mirrored (fun hart => store_transparent hart address value size) halike
  invalidate := by
    rintro ⟨memory, -⟩ ⟨memory', -⟩ ⟨hmemory, ⟨cache, rfl⟩, ⟨cache', rfl⟩⟩
    exact ⟨hmemory, ⟨.empty, rfl⟩, ⟨.empty, rfl⟩⟩

theorem sameResult_step {first second : Hart} (hsame : SameButTags first second) (count : Nat) :
    SameResult (first.step count) (second.step count) := by
  obtain ⟨houtcome, hended⟩ :=
    indistinguishable_sameMemory.step (sameButTags_iff.mp hsame) count
  exact ⟨houtcome.symm, sameButTags_iff.mpr hended⟩

/-- What is remembered about pages never changes the result of a run or an access, so neither does
whatever makes a hart remember or forget them. -/
theorem sameResult_of_sameButTags {first second : Hart} (hsame : SameButTags first second) :
    (∀ count, SameResult (first.step count) (second.step count)) ∧
    (∀ address size, SameResult (first.load address size) (second.load address size)) ∧
    (∀ address value size,
      SameResult (first.store address value size) (second.store address value size)) ∧
    ∀ without touched, CacheEffect first without touched →
      ∀ count, SameResult (without.step count) (touched.step count) := by
  refine ⟨sameResult_step hsame, ?_⟩
  obtain ⟨hart, cache, cache', rfl, rfl⟩ := hsame
  refine ⟨fun address size => (load_transparent hart address size).sameResult cache cache',
    fun address value size => (store_transparent hart address value size).sameResult cache cache',
    fun without touched heffect => sameResult_step (sameButTags_of_cacheEffect heffect)⟩

/-- A page is remembered of which nothing is in memory, and `lw x6, 8(x5)` reads there. -/
theorem sameResult_staleTag :
    let hart := { facing 0x0082A303 with registers := (RegisterFile.zero 32).write 5 0x5000 }
    let stale := hart.withTags (PageCache.empty.insert (pageOf 0x5000))
    let fresh := hart.withTags .empty
    SameButTags stale fresh ∧
      (stale.translate 0x5008 .load).1 = .ok 0x5008 ∧
      (fresh.translate 0x5008 .load).1 = .error .loadAccessFault ∧
      SameResult (stale.load 0x5008 .word) (fresh.load 0x5008 .word) ∧
      SameResult (stale.step 3) (fresh.step 3) := by
  intro hart stale fresh
  have hsame : SameButTags stale fresh := ⟨hart, _, _, rfl, rfl⟩
  obtain ⟨hstep, hload, -⟩ := sameResult_of_sameButTags hsame
  refine ⟨hsame, ?_, ?_, hload _ _, hstep _⟩
  · decide +kernel
  · decide +kernel

end Hart

end RiscvMachine
