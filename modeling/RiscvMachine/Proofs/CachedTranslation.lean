import Mathlib.Control.Monad.Basic
import RiscvMachine.Proofs.Regions
import RiscvMachine.Translation
/-!
The identity translation over time. A page is remembered as soon as one of its addresses was found in
memory, until it loses its slot to another such page or all is forgotten. No address of a remembered
page is looked up, which makes no difference where pages are in memory as a whole.
-/

namespace RiscvMachine

namespace MemoryMap

/-- The identity translation of an address, looked up in memory. -/
def lookUp (memory : MemoryMap) (address : Word) (access : Access) : Except TranslationError Word :=
  if memory.contains address then .ok address else .error (.accessFault address access)

/-- All addresses of the page are in memory, or none is. -/
def Whole (memory : MemoryMap) (page : Word) : Prop :=
  ∀ address other, pageOf address = page → pageOf other = page →
    memory.contains address = memory.contains other

variable {memory : MemoryMap} {address : Word}

theorem lookUp_of_contains (hcontains : memory.contains address = true) (access : Access) :
    memory.lookUp address access = .ok address :=
  if_pos hcontains

theorem contains_attach (hcontains : memory.contains address = true) (region : Region) :
    (memory.attach region).contains address = true := by
  rcases add_cases memory region with ⟨-, hadd⟩ | ⟨-, hadd⟩
  · rwa [attach_of_overlap hadd]
  · rw [attach, hadd, contains, List.any_append, Bool.or_eq_true]
    exact .inl hcontains

/-- Regions that begin and end with pages share no page with what is outside of them. -/
theorem whole_of_aligned
    (haligned : ∀ region ∈ memory.regions, region.base.toNat % 4096 = 0 ∧ region.size % 4096 = 0)
    (page : Word) : memory.Whole page := by
  intro address other haddress hother
  have hpage : address.toNat / 4096 = other.toNat / 4096 := by
    have hsame := congrArg BitVec.toNat (haddress.trans hother.symm)
    rwa [toNat_pageOf, toNat_pageOf] at hsame
  rw [Bool.eq_iff_iff, contains, contains, List.any_eq_true, List.any_eq_true]
  refine exists_congr fun region => and_congr_right fun hmem => ?_
  obtain ⟨hbase, hsize⟩ := haligned region hmem
  rw [Region.contains_iff, Region.contains_iff]
  omega

end MemoryMap

/-! ### Remembered pages -/

/-- The page is the latest one of those that belong in its slot. -/
def LatestInSlot (pages : List Word) (page : Word) : Prop :=
  pages.find? (fun other => PageCache.slot other = PageCache.slot page) = some page

instance (pages : List Word) (page : Word) : Decidable (LatestInSlot pages page) :=
  inferInstanceAs (Decidable (_ = _))

namespace PageCache

/-- Each slot holds the latest page that belongs there, and each page has an address in memory. -/
structure Remembers (cache : PageCache) (memory : MemoryMap) (pages : List Word) : Prop where
  tags : ∀ index : Fin 256, cache.tags[index] = pages.find? fun page => slot page = index
  seen : ∀ page ∈ pages, ∃ address, pageOf address = page ∧ memory.contains address = true

variable {cache : PageCache} {memory : MemoryMap} {pages : List Word}

theorem remembers_empty (memory : MemoryMap) : empty.Remembers memory [] where
  tags := fun index => by simp [empty]
  seen := fun page hmem => by cases hmem

theorem Remembers.holds_iff (hremembers : cache.Remembers memory pages) (page : Word) :
    cache.holds page = true ↔ LatestInSlot pages page := by
  rw [holds, hremembers.tags, LatestInSlot, beq_iff_eq]

theorem tags_insert (cache : PageCache) (page : Word) (index : Fin 256) :
    (cache.insert page).tags[index] = if slot page = index then some page else cache.tags[index] := by
  simp only [insert, Fin.getElem_fin, Vector.getElem_set, Fin.ext_iff]

/-- A slot takes the page that was found in memory, unless it holds that page already. -/
theorem tags_translate (cache : PageCache) (memory : MemoryMap) (address : Word) (access : Access)
    (index : Fin 256) :
    (cache.translate memory address access).2.tags[index] =
      if memory.contains address ∧ slot (pageOf address) = index then some (pageOf address)
      else cache.tags[index] := by
  by_cases hcontains : memory.contains address = true
  · by_cases hholds : cache.holds (pageOf address) = true
    · simp only [translate, if_pos hholds, hcontains, true_and]
      split
      · rename_i hslot
        rw [holds, beq_iff_eq] at hholds
        rw [← hslot, hholds]
      · rfl
    · simp only [translate, if_neg hholds, hcontains, if_true, true_and, tags_insert]
  · have hkept : (cache.translate memory address access).2 = cache := by
      simp only [translate, if_neg hcontains]
      split <;> rfl
    rw [hkept, if_neg fun hseen => hcontains hseen.1]

end PageCache

/-! ### Requests -/

namespace Translation

/-- What is asked of a translation, or done to the memory under it. -/
inductive Request where
  | translate (address : Word) (access : Access)
  | invalidate
  | attach (region : Region)

namespace Request

def memory (memory : MemoryMap) : Request → MemoryMap
  | translate _ _ | invalidate => memory
  | attach region => memory.attach region

def translation (translation : Translation) (memory : MemoryMap) : Request → Translation
  | translate address access => (translation.translate memory address access).2
  | invalidate => translation.invalidate
  | attach _ => translation

/-- The pages with an address that was found in memory since all was forgotten, the last one first. -/
def seen (memory : MemoryMap) (pages : List Word) : Request → List Word
  | translate address _ => if memory.contains address then pageOf address :: pages else pages
  | invalidate => []
  | attach _ => pages

end Request

/-- The translation and its memory after some requests. -/
def serve (translation : Translation) (memory : MemoryMap) : List Request → Translation × MemoryMap
  | [] => (translation, memory)
  | request :: rest => (request.translation translation memory).serve (request.memory memory) rest

/-- The pages seen in memory after some requests, and those of before. -/
def seenPages (memory : MemoryMap) (pages : List Word) : List Request → List Word
  | [] => pages
  | request :: rest => seenPages (request.memory memory) (request.seen memory pages) rest

end Translation

namespace PageCache

open Translation

variable {cache : PageCache} {memory : MemoryMap} {pages : List Word}

theorem translate_fst (hremembers : cache.Remembers memory pages) (address : Word) (access : Access) :
    (cache.translate memory address access).1 =
      if LatestInSlot pages (pageOf address) then .ok address else memory.lookUp address access := by
  simp only [translate, hremembers.holds_iff, MemoryMap.lookUp]
  split
  · rfl
  · split <;> rfl

theorem Remembers.translate (hremembers : cache.Remembers memory pages) (address : Word)
    (access : Access) :
    (cache.translate memory address access).2.Remembers memory
      ((Request.translate address access).seen memory pages) := by
  rw [Request.seen]
  constructor
  · intro index
    rw [tags_translate, hremembers.tags]
    by_cases hcontains : memory.contains address = true
    · simp only [hcontains, if_true, true_and, List.find?_cons]
      by_cases hslot : slot (pageOf address) = index
      · simp only [hslot, if_true, decide_true]
      · simp only [hslot, if_false, decide_false]
    · rw [if_neg hcontains, if_neg fun hseen => hcontains hseen.1]
  · intro page hmem
    split at hmem
    · rename_i hcontains
      rcases List.mem_cons.mp hmem with rfl | hearlier
      · exact ⟨address, rfl, hcontains⟩
      · exact hremembers.seen page hearlier
    · exact hremembers.seen page hmem

theorem Remembers.attach (hremembers : cache.Remembers memory pages) (region : Region) :
    cache.Remembers (memory.attach region) pages where
  tags := hremembers.tags
  seen := fun page hmem => by
    obtain ⟨address, hpage, hcontains⟩ := hremembers.seen page hmem
    exact ⟨address, hpage, MemoryMap.contains_attach hcontains region⟩

theorem Remembers.request (hremembers : cache.Remembers memory pages) (request : Request) :
    ∃ after : PageCache, request.translation (identity cache) memory = identity after ∧
      after.Remembers (request.memory memory) (request.seen memory pages) := by
  cases request with
  | translate address access => exact ⟨_, rfl, hremembers.translate address access⟩
  | invalidate => exact ⟨empty, rfl, remembers_empty memory⟩
  | attach region => exact ⟨cache, rfl, hremembers.attach region⟩

theorem Remembers.serve (hremembers : cache.Remembers memory pages) (requests : List Request) :
    ∃ (after : PageCache) (grown : MemoryMap),
      (identity cache).serve memory requests = (identity after, grown) ∧
        after.Remembers grown (seenPages memory pages requests) := by
  induction requests generalizing cache memory pages with
  | nil => exact ⟨cache, memory, rfl, hremembers⟩
  | cons request rest ih =>
      obtain ⟨next, hnext, hremembersNext⟩ := hremembers.request request
      rw [Translation.serve, hnext]
      exact ih hremembersNext

/-- What is in memory as a whole may be remembered by one of its addresses. -/
theorem Remembers.contains (hremembers : cache.Remembers memory pages) {address : Word}
    (hwhole : memory.Whole (pageOf address)) (hlatest : LatestInSlot pages (pageOf address)) :
    memory.contains address = true := by
  obtain ⟨other, hpage, hcontains⟩ := hremembers.seen _ (List.mem_of_find?_eq_some hlatest)
  rw [hwhole address other rfl hpage, hcontains]

end PageCache

namespace Translation

/-- After any requests an address is looked up in memory, unless its page is the latest one of its
slot that was seen there. Where the page is in memory as a whole, a fresh translation says the same. -/
theorem translate_serve (memory : MemoryMap) (requests : List Request) (address : Word)
    (access : Access) :
    let served := (identity .empty).serve memory requests
    let result := (served.1.translate served.2 address access).1
    let fresh := ((identity .empty).translate served.2 address access).1
    result = (if LatestInSlot (seenPages memory [] requests) (pageOf address) then .ok address
      else served.2.lookUp address access) ∧
    fresh = served.2.lookUp address access ∧
    (served.2.Whole (pageOf address) → result = fresh) := by
  intro served result fresh
  obtain ⟨cache, grown, hserved, hremembers⟩ := (PageCache.remembers_empty memory).serve requests
  have hresult : result = if LatestInSlot (seenPages memory [] requests) (pageOf address) then
      .ok address else grown.lookUp address access := by
    simp only [result, served, hserved]
    exact PageCache.translate_fst hremembers address access
  have hfresh : fresh = grown.lookUp address access := by
    simp only [fresh, served, hserved]
    exact PageCache.translate_fst (PageCache.remembers_empty grown) address access
  simp only [served, hserved]
  refine ⟨hresult, hfresh, fun hwhole => ?_⟩
  rw [hresult, hfresh]
  split
  · rename_i hlatest
    rw [MemoryMap.lookUp_of_contains (hremembers.contains hwhole hlatest)]
  · rfl

/-- Two pages of one slot, the second one added later, and a page without memory. -/
theorem translate_serve_aligned :
    let served := (identity .empty).serve (.withRegion 0x1000 0x1000)
      [.translate 0x1800 .load, .attach (.zeroed 0x101000 0x1000), .translate 0x101004 .fetch,
        .translate 0x1FFC .store, .translate 0x2000 .load]
    served.2.Whole 0x101 ∧ served.2.Whole 0x2 ∧
      (served.1.translate served.2 0x101008 .load).1 = .ok 0x101008 ∧
      (served.1.translate served.2 0x2008 .load).1 = .error (.accessFault 0x2008 .load) := by
  intro served
  have hwhole : ∀ page, served.2.Whole page := MemoryMap.whole_of_aligned (by decide +kernel)
  obtain ⟨-, hinside, hsameInside⟩ := translate_serve _ _ 0x101008 .load
  obtain ⟨-, houtside, hsameOutside⟩ := translate_serve _ _ 0x2008 .load
  exact ⟨hwhole _, hwhole _, (hsameInside (hwhole _)).trans (hinside.trans (by decide +kernel)),
    (hsameOutside (hwhole _)).trans (houtside.trans (by decide +kernel))⟩

/-- One access to the memory at the start of a page is enough for addresses behind the memory. -/
theorem translate_serve_partial :
    let served := (identity .empty).serve (.withRegion 0x1000 16) [.translate 0x1000 .load]
    served.2.contains 0x1800 = false ∧
      (served.1.translate served.2 0x1800 .load).1 = .ok 0x1800 ∧
      ((identity .empty).translate served.2 0x1800 .load).1 = .error (.accessFault 0x1800 .load) := by
  decide +kernel

end Translation

end RiscvMachine
