import RiscvMachine.Proofs.ByteStore
import RiscvMachine.Proofs.Surroundings
/-!
Memories of the same bytes. Where the regions of two memories lie in the same places and hold the same
bytes, no run can tell the memories apart, however the bytes came to be there.
-/

namespace RiscvMachine

namespace Region

/-- The regions lie in the same place and hold the same bytes. -/
structure SameBytes (first second : Region) : Prop where
  base : second.base = first.base
  size : second.size = first.size
  byte : ∀ address, first.contains address = true → second.byte address = first.byte address

variable {first second : Region} {address value : Word} {size : AccessSize}

theorem SameBytes.contains_eq (hsame : first.SameBytes second) (address : Word) :
    second.contains address = first.contains address := by
  rw [contains, contains, hsame.base, hsame.size]

theorem SameBytes.locate_eq (hsame : first.SameBytes second) (address : Word) (size : AccessSize) :
    second.locate address size = first.locate address size := by
  simp only [locate, offset?, hsame.base, hsame.size]

theorem SameBytes.bytesFrom_eq (hsame : first.SameBytes second) {count : Nat}
    (hholds : first.Holds address count) (hrange : address.toNat + count ≤ wordCount)
    (hbase : first.base.toNat ≤ address.toNat) :
    second.bytesFrom (address.toNat - first.base.toNat) count =
      first.bytesFrom (address.toNat - first.base.toNat) count := by
  refine List.ext_getElem? fun distance => ?_
  by_cases hdistance : distance < count
  · have hbyte := hsame.byte _ (hholds distance hdistance)
    simp only [Region.byte, hsame.base] at hbyte
    rw [toNat_add_ofNat (by omega)] at hbyte
    have hplace : address.toNat + distance - first.base.toNat =
        address.toNat - first.base.toNat + distance := by omega
    rw [getElem?_bytesFrom hdistance, getElem?_bytesFrom hdistance, ← hplace, hbyte]
  · rw [List.getElem?_eq_none (by simpa using hdistance),
      List.getElem?_eq_none (by simpa using hdistance)]

theorem SameBytes.load_eq (hsame : first.SameBytes second) (address : Word) (size : AccessSize) :
    second.load address size = first.load address size := by
  rw [load, load, hsame.locate_eq]
  cases hlocate : first.locate address size with
  | error error => rfl
  | ok offset =>
      obtain ⟨haligned, hholds, rfl⟩ := locate_eq_ok_iff.mp hlocate
      have hrange := AccessSize.range_le haligned
      have hbase := ((holds_iff size.bytes_pos hrange).mp hholds).1
      change Except.ok _ = Except.ok _
      rw [hsame.bytesFrom_eq hholds hrange hbase]

theorem SameBytes.overwrite (hsame : first.SameBytes second) {bytes : List Byte}
    (hcontains : first.contains address = true) (hrange : address.toNat + bytes.length ≤ wordCount) :
    (first.overwrite (address.toNat - first.base.toNat) bytes).SameBytes
      (second.overwrite (address.toNat - first.base.toNat) bytes) where
  base := by rw [base_overwrite, base_overwrite, hsame.base]
  size := by rw [size_overwrite, size_overwrite, hsame.size]
  byte := by
    intro other hother
    rw [contains_overwrite] at hother
    rw [byte_overwrite hrange hcontains hother, ← hsame.byte other hother, ← hsame.base]
    exact byte_overwrite hrange ((hsame.contains_eq address).trans hcontains)
      ((hsame.contains_eq other).trans hother)

theorem SameBytes.store (hsame : first.SameBytes second)
    (hcontains : first.contains address = true) (value : Word) (size : AccessSize) :
    EndAlike SameBytes (first.store address value size) (second.store address value size) := by
  rw [Region.store, Region.store, hsame.locate_eq]
  cases hlocate : first.locate address size with
  | error error => exact .error error
  | ok offset =>
      obtain ⟨haligned, -, rfl⟩ := locate_eq_ok_iff.mp hlocate
      refine .ok (hsame.overwrite hcontains ?_)
      rw [length_bytesOf]
      exact AccessSize.range_le haligned

end Region

namespace MemoryMap

def SameBytes (first second : MemoryMap) : Prop :=
  List.Forall₂ Region.SameBytes first.regions second.regions

variable {first second : MemoryMap} {address : Word} {size : AccessSize}

theorem SameBytes.contains_eq (hsame : first.SameBytes second) (address : Word) :
    second.contains address = first.contains address := by
  rw [contains, contains]
  rw [SameBytes] at hsame
  generalize first.regions = regions, second.regions = regions' at hsame ⊢
  induction hsame with
  | nil => rfl
  | cons hregion _ ih => rw [List.any_cons, List.any_cons, ih, hregion.contains_eq]

/-- An address is looked up in regions of the same bytes. -/
theorem SameBytes.load_eq (hsame : first.SameBytes second) (address : Word) (size : AccessSize) :
    second.load address size = first.load address size := by
  rw [load, load, find?, find?]
  rw [SameBytes] at hsame
  generalize first.regions = regions, second.regions = regions' at hsame ⊢
  induction hsame with
  | nil => rfl
  | @cons region region' rest rest' hregion _ ih =>
      rw [List.find?_cons, List.find?_cons, hregion.contains_eq]
      cases region.contains address with
      | true => exact hregion.load_eq address size
      | false => exact ih

theorem endAlike_updateFirst {update : Region → Except MemoryError Region}
    {regions regions' : List Region} (hregions : List.Forall₂ Region.SameBytes regions regions')
    (hupdate : ∀ region region', region.SameBytes region' → region.contains address = true →
      EndAlike Region.SameBytes (update region) (update region')) :
    EndAlike (List.Forall₂ Region.SameBytes) (updateFirst address size update regions)
      (updateFirst address size update regions') := by
  induction hregions with
  | nil => exact .error _
  | @cons region region' rest rest' hregion hrest ih =>
      rw [updateFirst, updateFirst, hregion.contains_eq]
      split
      · rename_i hcontains
        exact (hupdate region region' hregion hcontains).bind fun _ _ hupdated =>
          .ok (.cons hupdated hrest)
      · exact ih.bind fun _ _ hupdated => .ok (.cons hregion hupdated)

theorem SameBytes.store (hsame : first.SameBytes second) (address value : Word)
    (size : AccessSize) :
    EndAlike SameBytes (first.store address value size) (second.store address value size) :=
  (endAlike_updateFirst hsame fun _ _ hregion hcontains => hregion.store hcontains value size).bind
    fun _ _ hregions => .ok hregions

end MemoryMap

theorem Translation.translate_of_sameBytes {first second : MemoryMap} (hsame : first.SameBytes second)
    (translation : Translation) (address : Word) (access : Access) :
    translation.translate second address access = translation.translate first address access := by
  cases translation with
  | identity cache => simp only [translate, PageCache.translate, hsame.contains_eq]
  | paged pageMap => simp only [translate, PageMap.translate, hsame.contains_eq]

/-- The same translation, and memories of the same bytes. -/
def Surroundings.SameBytes (first second : Surroundings) : Prop :=
  first.memory.SameBytes second.memory ∧ second.translation = first.translation

namespace Hart

def withMemory (hart : Hart) (memory : MemoryMap) : Hart :=
  { hart with memory := memory }

/-- The harts are equal, up to how their memories came to hold the same bytes. -/
def SameBytes : Hart → Hart → Prop :=
  Alike Surroundings.SameBytes

theorem sameBytes_withMemory {first second : MemoryMap} (hsame : first.SameBytes second)
    (hart : Hart) : (hart.withMemory first).SameBytes (hart.withMemory second) :=
  ⟨⟨second, hart.translation⟩, ⟨hsame, rfl⟩, rfl⟩

/-! ### Accesses -/

namespace SameBytes

variable {first second : Hart} (hsame : first.SameBytes second)
include hsame

theorem translate (address : Word) (access : Access) :
    Mirrored Surroundings.SameBytes (first.translate address access)
      (second.translate address access) := by
  obtain ⟨surroundings, ⟨hmemory, htranslation⟩, rfl⟩ := hsame
  have htranslate :
      surroundings.translation.translate surroundings.memory address access =
        first.translation.translate first.memory address access := by
    rw [htranslation]
    exact Translation.translate_of_sameBytes hmemory _ address access
  simp only [Hart.translate, within, htranslate]
  generalize first.translation.translate first.memory address access = translated
  exact ⟨rfl, ⟨surroundings.memory, translated.2⟩, ⟨hmemory, rfl⟩, rfl⟩

theorem fetchHalf_eq (physical : Word) : second.fetchHalf physical = first.fetchHalf physical := by
  obtain ⟨surroundings, ⟨hmemory, -⟩, rfl⟩ := hsame
  have hload : surroundings.memory.load physical .half = first.memory.load physical .half :=
    hmemory.load_eq physical .half
  simp only [fetchHalf, within, hload]

theorem fetchHigh (pc physical : Word) :
    Mirrored Surroundings.SameBytes (first.fetchHigh pc physical) (second.fetchHigh pc physical) := by
  rw [Hart.fetchHigh, Hart.fetchHigh, hsame.xlen_eq]
  split
  · obtain ⟨result, after, after', hfirst, hsecond, hafter⟩ :=
      (hsame.translate (first.xlen.address (pc + 2)) .fetch).exists_eq
    rw [hfirst, hsecond]
    cases result with
    | error cause => exact ⟨rfl, hafter⟩
    | ok physical => exact ⟨fetchHalf_eq hafter physical, hafter⟩
  · exact ⟨hsame.fetchHalf_eq (physical + 2), hsame⟩

theorem fetch (pc : Word) :
    Mirrored Surroundings.SameBytes (first.fetch pc) (second.fetch pc) := by
  obtain ⟨result, after, after', hfirst, hsecond, hafter⟩ := (hsame.translate pc .fetch).exists_eq
  rw [Hart.fetch, Hart.fetch, hfirst, hsecond]
  cases result with
  | error cause => exact ⟨rfl, hafter⟩
  | ok physical =>
      have hhalf := fetchHalf_eq hafter physical
      obtain ⟨result, fetched, fetched', hhigh, hhigh', hfetched⟩ :=
        (fetchHigh hafter pc physical).exists_eq
      simp only [hhalf, hhigh, hhigh']
      cases after.fetchHalf physical with
      | error cause => exact ⟨rfl, hafter⟩
      | ok low =>
          dsimp only
          cases EncodedLength.of low with
          | compressed => exact ⟨rfl, hafter⟩
          | full => cases result <;> exact ⟨rfl, hfetched⟩

theorem load (address : Word) (size : AccessSize) :
    Mirrored Surroundings.SameBytes (first.load address size) (second.load address size) := by
  obtain ⟨result, after, after', hfirst, hsecond, hafter⟩ :=
    (hsame.translate (first.xlen.address address) .load).exists_eq
  simp only [Hart.load, hsame.xlen_eq, hfirst, hsecond]
  cases result with
  | error cause => exact ⟨rfl, hafter⟩
  | ok physical =>
      have hload : after'.memory.load physical size = after.memory.load physical size := by
        obtain ⟨surroundings, ⟨hmemory, -⟩, rfl⟩ := hafter
        exact hmemory.load_eq physical size
      simp only [hload]
      cases after.memory.load physical size <;> exact ⟨rfl, hafter⟩

theorem store (address value : Word) (size : AccessSize) :
    Mirrored Surroundings.SameBytes (first.store address value size)
      (second.store address value size) := by
  obtain ⟨result, after, after', hfirst, hsecond, hafter⟩ :=
    (hsame.translate (first.xlen.address address) .store).exists_eq
  simp only [Hart.store, hsame.xlen_eq, hfirst, hsecond]
  cases result with
  | error cause => exact ⟨rfl, hafter⟩
  | ok physical =>
      obtain ⟨surroundings, ⟨hmemory, htranslation⟩, rfl⟩ := hafter
      have hstored := hmemory.store physical value size
      simp only [within]
      generalize surroundings.memory.store physical value size = stored' at hstored ⊢
      change EndAlike _ (after.memory.store physical value size) _ at hstored
      generalize after.memory.store physical value size = stored at hstored ⊢
      cases hstored with
      | error error => exact ⟨rfl, surroundings, ⟨hmemory, htranslation⟩, rfl⟩
      | ok hrelated => exact ⟨rfl, ⟨_, surroundings.translation⟩, ⟨hrelated, htranslation⟩, rfl⟩

end SameBytes

theorem indistinguishable_sameBytes : Indistinguishable Surroundings.SameBytes where
  fetch := SameBytes.fetch
  load := SameBytes.load
  store := SameBytes.store
  invalidate := fun hsame => ⟨hsame.1, congrArg Translation.invalidate hsame.2⟩

end Hart

end RiscvMachine
