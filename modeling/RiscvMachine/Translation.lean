import RiscvMachine.Memory.Map
/-!
Translation of virtual to physical addresses, page by page. The identity translation remembers
the pages that it has seen in memory; a page map holds an explicit physical page for each virtual
one.
-/

namespace RiscvMachine

inductive Access where
  | fetch
  | load
  | store
  deriving DecidableEq, Repr

def Access.name : Access → String
  | fetch => "Fetch"
  | load => "Load"
  | store => "Store"

inductive TranslationError where
  | pageFault (address : Word) (access : Access)
  /-- There is no memory at the physical address. -/
  | accessFault (address : Word) (access : Access)
  deriving DecidableEq

namespace TranslationError

def address : TranslationError → Word
  | pageFault address _ | accessFault address _ => address

def message : TranslationError → String
  | pageFault address access => "page fault on " ++ access.name ++ " at " ++ hexPadded 16 address.toNat
  | accessFault address access =>
      "access fault on " ++ access.name ++ " at " ++ hexPadded 16 address.toNat

end TranslationError

def pageOf (address : Word) : Word :=
  address >>> 12

def pageOffset (address : Word) : Word :=
  address &&& 0xFFF

theorem toNat_pageOf (address : Word) : (pageOf address).toNat = address.toNat / 4096 := by
  rw [pageOf, BitVec.toNat_ushiftRight, Nat.shiftRight_eq_div_pow]

theorem toNat_pageOffset (address : Word) : (pageOffset address).toNat = address.toNat % 4096 := by
  rw [pageOffset, BitVec.toNat_and]
  exact Nat.and_two_pow_sub_one_eq_mod address.toNat 12

/-- The pages that the identity translation has seen in memory, each in the slot that its number
selects. -/
structure PageCache where
  tags : Vector (Option Word) 256

namespace PageCache

def empty : PageCache :=
  ⟨Vector.replicate 256 none⟩

def slot (page : Word) : Fin 256 :=
  ⟨page.toNat % 256, Nat.mod_lt _ (by decide)⟩

def holds (cache : PageCache) (page : Word) : Bool :=
  cache.tags[slot page] == some page

def insert (cache : PageCache) (page : Word) : PageCache :=
  ⟨cache.tags.set (slot page) (some page)⟩

/-- Any address of a remembered page is its own translation; any other must be in memory. -/
def translate (cache : PageCache) (memory : MemoryMap) (address : Word) (access : Access) :
    Except TranslationError Word × PageCache :=
  let page := pageOf address
  if cache.holds page then (.ok address, cache)
  else if memory.contains address then (.ok address, cache.insert page)
  else (.error (.accessFault address access), cache)

end PageCache

structure PageMap where
  pages : Std.TreeMap Word Word

namespace PageMap

def empty : PageMap :=
  ⟨∅⟩

/-- Maps the page of one address to the page of another. -/
def map (pageMap : PageMap) (virtual physical : Word) : PageMap :=
  ⟨pageMap.pages.insert (pageOf virtual) (pageOf physical)⟩

def unmap (pageMap : PageMap) (virtual : Word) : PageMap :=
  ⟨pageMap.pages.erase (pageOf virtual)⟩

/-- The address keeps its distance from the start of the page. -/
def translate (pageMap : PageMap) (memory : MemoryMap) (address : Word) (access : Access) :
    Except TranslationError Word :=
  match pageMap.pages[pageOf address]? with
  | none => .error (.pageFault address access)
  | some page =>
      let physical := (page <<< 12) ||| pageOffset address
      if memory.contains physical then .ok physical else .error (.accessFault address access)

end PageMap

inductive Translation where
  | identity (cache : PageCache)
  | paged (pageMap : PageMap)

namespace Translation

def translate (translation : Translation) (memory : MemoryMap) (address : Word) (access : Access) :
    Except TranslationError Word × Translation :=
  match translation with
  | identity cache =>
      let (result, cache) := cache.translate memory address access
      (result, identity cache)
  | paged pageMap => (pageMap.translate memory address access, translation)

/-- Forgets what was remembered; explicit mappings stay. -/
def invalidate : Translation → Translation
  | identity _ => identity .empty
  | paged pageMap => paged pageMap

/-- Maps a page, where pages are mapped explicitly. -/
def map (translation : Translation) (virtual physical : Word) : Translation :=
  match translation with
  | identity cache => identity cache
  | paged pageMap => paged (pageMap.map virtual physical)

def unmap (translation : Translation) (virtual : Word) : Translation :=
  match translation with
  | identity cache => identity cache
  | paged pageMap => paged (pageMap.unmap virtual)

end Translation

end RiscvMachine
