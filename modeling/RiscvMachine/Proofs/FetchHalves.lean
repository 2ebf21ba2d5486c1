import RiscvMachine.Proofs.ByteStore
import RiscvMachine.Proofs.Multiplication
import RiscvMachine.Proofs.Standard
import RiscvMachine.Proofs.Transparency
/-!
The two halves of an instruction. A fetch translates the address of the first half-word and takes the
second one from behind it, unless that is on another page; here it is compared with a fetch that
translates both addresses.
-/

namespace RiscvMachine

/-! ### Pages -/

theorem pageOffset_eq_iff {address offset : Word} :
    pageOffset address = offset ↔ address.toNat % 4096 = offset.toNat := by
  rw [← BitVec.toNat_inj, toNat_pageOffset]

theorem pageOffset_eq_zero_iff {address : Word} :
    pageOffset address = 0 ↔ address.toNat % 4096 = 0 := pageOffset_eq_iff

/-- The last half-word of a page. -/
theorem pageOffset_eq_last_iff {address : Word} :
    pageOffset address = 0xFFE ↔ address.toNat % 4096 = 4094 := pageOffset_eq_iff

/-- The address at a distance from the start of a page. -/
theorem toNat_shiftLeft_or_pageOffset (page address : Word) :
    ((page <<< 12) ||| pageOffset address).toNat =
      4096 * (page.toNat % 2 ^ 52) + address.toNat % 4096 := by
  have hstart : (page <<< 12).toNat = 2 ^ 12 * (page.toNat % 2 ^ 52) := by
    rw [BitVec.toNat_shiftLeft, Nat.shiftLeft_eq]
    omega
  have hoffset : address.toNat % 4096 < 2 ^ 12 := Nat.mod_lt _ (by decide)
  rw [BitVec.toNat_or, hstart, toNat_pageOffset, ← Nat.two_pow_add_eq_or_of_lt hoffset]

section Inside

/-! Some bytes further, where the page goes on. -/

variable {address : Word} {distance : Nat} (hinside : address.toNat % 4096 + distance < 4096)
include hinside

theorem toNat_add_inside :
    (address + BitVec.ofNat 64 distance).toNat = address.toNat + distance := by
  have hbound := address.isLt
  apply toNat_add_ofNat
  rw [wordCount]
  omega

theorem pageOf_add_inside : pageOf (address + BitVec.ofNat 64 distance) = pageOf address := by
  apply BitVec.eq_of_toNat_eq
  rw [toNat_pageOf, toNat_pageOf, toNat_add_inside hinside]
  omega

theorem shiftLeft_or_pageOffset_add_inside (page : Word) :
    (page <<< 12) ||| pageOffset (address + BitVec.ofNat 64 distance) =
      ((page <<< 12) ||| pageOffset address) + BitVec.ofNat 64 distance := by
  have hplace := toNat_shiftLeft_or_pageOffset page address
  have hplaceInside : ((page <<< 12) ||| pageOffset address).toNat % 4096 + distance < 4096 := by
    omega
  apply BitVec.eq_of_toNat_eq
  rw [toNat_add_inside hplaceInside, hplace, toNat_shiftLeft_or_pageOffset,
    toNat_add_inside hinside]
  omega

end Inside

/-! ### Translations -/

theorem PageCache.holds_insert (cache : PageCache) (page : Word) :
    (cache.insert page).holds page = true := by
  simp [holds, insert]

section Translations

variable {memory : MemoryMap} {address physical : Word} {access : Access}

theorem PageMap.translate_eq_ok {pageMap : PageMap}
    (htranslate : pageMap.translate memory address access = .ok physical) :
    ∃ page, pageMap.pages[pageOf address]? = some page ∧
      physical = (page <<< 12) ||| pageOffset address := by
  simp only [translate] at htranslate
  split at htranslate
  · cases htranslate
  · rename_i page hpage
    split at htranslate <;> cases htranslate
    exact ⟨page, hpage, rfl⟩

/-- After a translation the identity remembers the page. -/
theorem PageCache.translate_eq_ok {cache after : PageCache}
    (htranslate : cache.translate memory address access = (.ok physical, after)) :
    physical = address ∧ after.holds (pageOf address) = true := by
  rw [translate] at htranslate
  split at htranslate <;> rename_i hholds
  · cases htranslate
    exact ⟨rfl, hholds⟩
  · split at htranslate <;> cases htranslate
    exact ⟨rfl, cache.holds_insert _⟩

namespace Translation

variable {translation after : Translation}

/-- A translated address keeps its distance from the start of the page. -/
theorem toNat_mod_of_translate
    (htranslate : translation.translate memory address access = (.ok physical, after)) :
    physical.toNat % 4096 = address.toNat % 4096 := by
  cases translation with
  | identity cache =>
      rcases hcache : cache.translate memory address access with ⟨result, cache'⟩
      simp only [translate, hcache] at htranslate
      cases htranslate
      obtain ⟨rfl, -⟩ := PageCache.translate_eq_ok hcache
      rfl
  | paged pageMap =>
      obtain ⟨page, -, rfl⟩ := PageMap.translate_eq_ok (congrArg Prod.fst htranslate)
      rw [toNat_shiftLeft_or_pageOffset]
      omega

/-- The rest of a translated page is translated along with it, as far as there is memory. -/
theorem translate_add_two
    (htranslate : translation.translate memory address access = (.ok physical, after))
    (hinside : address.toNat % 4096 + 2 < 4096) :
    after.translate memory (address + 2) access = (.ok (physical + 2), after) ∨
      memory.contains (physical + 2) = false ∧
        after.translate memory (address + 2) access =
          (.error (.accessFault (address + 2) access), after) := by
  have hsame : pageOf (address + 2) = pageOf address := pageOf_add_inside hinside
  cases translation with
  | identity cache =>
      rcases hcache : cache.translate memory address access with ⟨result, cache'⟩
      simp only [translate, hcache] at htranslate
      cases htranslate
      obtain ⟨rfl, hholds⟩ := PageCache.translate_eq_ok hcache
      left
      simp only [translate, PageCache.translate, hsame, hholds, if_true]
  | paged pageMap =>
      obtain ⟨page, hpage, rfl⟩ := PageMap.translate_eq_ok (congrArg Prod.fst htranslate)
      obtain rfl : paged pageMap = after := congrArg Prod.snd htranslate
      have hplace : (page <<< 12) ||| pageOffset (address + 2) =
          ((page <<< 12) ||| pageOffset address) + 2 :=
        shiftLeft_or_pageOffset_add_inside hinside page
      simp only [translate, PageMap.translate, hsame, hpage, hplace]
      cases memory.contains (((page <<< 12) ||| pageOffset address) + 2) with
      | true => exact .inl rfl
      | false => exact .inr ⟨rfl, rfl⟩

end Translation

end Translations

namespace Xlen

/-! ### The address of the second half-word, within the width -/

variable {xlen : Xlen} {pc : Word} (hpc : xlen.address pc = pc)

theorem toNat_next (xlen : Xlen) (pc : Word) :
    (xlen.address (pc + 2)).toNat = (pc.toNat + 2) % 2 ^ xlen.bits := by
  rw [xlen.toNat_address, xlen.unsigned_eq_mod, BitVec.toNat_add,
    Nat.mod_mod_of_dvd _ xlen.modulus_dvd]
  rfl

theorem toNat_next_mod (xlen : Xlen) (pc : Word) :
    (xlen.address (pc + 2)).toNat % 4096 = (pc.toNat + 2) % 4096 := by
  rw [toNat_next, Nat.mod_mod_of_dvd _ (by cases xlen <;> decide)]

include hpc

theorem toNat_lt_of_address : pc.toNat < 2 ^ xlen.bits := by
  rw [← hpc, xlen.toNat_address]
  exact xlen.unsigned_lt pc

theorem address_add_inside {distance : Nat} (hinside : pc.toNat % 4096 + distance < 4096) :
    xlen.address (pc + BitVec.ofNat 64 distance) = pc + BitVec.ofNat 64 distance := by
  have hbound := toNat_lt_of_address hpc
  apply BitVec.eq_of_toNat_eq
  rw [xlen.toNat_address, xlen.unsigned_eq_mod, toNat_add_inside hinside]
  cases xlen <;> simp only [bits] at * <;> omega

theorem toNat_pageOf_next (hlast : pc.toNat % 4096 = 4094) :
    (pageOf (xlen.address (pc + 2))).toNat = ((pageOf pc).toNat + 1) % 2 ^ (xlen.bits - 12) := by
  have hbound := toNat_lt_of_address hpc
  rw [toNat_pageOf, toNat_pageOf, toNat_next]
  cases xlen <;> simp only [bits] at * <;> omega

end Xlen

namespace Hart

variable {hart translated : Hart} {pc physical : Word} {low : Encoding}

/-! ### Half-words -/

/-- The half-word at a virtual address, by a translation of its own. -/
def fetchHalfAt (hart : Hart) (address : Word) : Except TrapCause Encoding × Hart :=
  match hart.translate address .fetch with
  | (.error cause, hart) => (.error cause, hart)
  | (.ok physical, hart) => (hart.fetchHalf physical, hart)

/-- The instruction at `pc` where each of its half-words is fetched by its virtual address. -/
def fetchByHalves (hart : Hart) (pc : Word) : Except TrapCause Encoding × Hart :=
  match hart.fetchHalfAt pc with
  | (.error cause, hart) => (.error cause, hart)
  | (.ok low, hart) =>
      if low &&& 3 ≠ 3 then (.ok low, hart)
      else
        match hart.fetchHalfAt (hart.xlen.address (pc + 2)) with
        | (.error cause, hart) => (.error cause, hart)
        | (.ok high, hart) => (.ok (low ||| (high <<< 16)), hart)

theorem translate_eq_ok (htranslate : hart.translate pc .fetch = (.ok physical, translated)) :
    hart.translation.translate translated.memory pc .fetch = (.ok physical, translated.translation) ∧
      translated.xlen = hart.xlen := by
  rw [translate] at htranslate
  rcases houtcome : hart.translation.translate hart.memory pc .fetch with ⟨_ | result, translation⟩
  · rw [houtcome] at htranslate
    cases htranslate
  · rw [houtcome] at htranslate
    cases htranslate
    exact ⟨houtcome, rfl⟩

/-- Only half-words at even addresses can be fetched. -/
theorem even_of_fetchHalf (hlow : hart.fetchHalf physical = .ok low) : physical.toNat % 2 = 0 := by
  rw [fetchHalf] at hlow
  split at hlow
  · rename_i value hload
    obtain ⟨region, offset, -, hlocate⟩ := MemoryMap.readable_iff.mp ⟨value, hload⟩
    exact (Region.locate_eq_ok_iff.mp hlocate).1
  · cases hlow

/-- On the page of the first half the translation of the second one adds nothing. -/
theorem fetchHalfAt_add_two
    (htranslate : hart.translate pc .fetch = (.ok physical, translated))
    (hinside : pc.toNat % 4096 + 2 < 4096) :
    translated.fetchHalfAt (pc + 2) = (translated.fetchHalf (physical + 2), translated) := by
  rcases Translation.translate_add_two (translate_eq_ok htranslate).1 hinside with
    hnext | ⟨hmissing, hnext⟩
  · simp only [fetchHalfAt, translate, hnext]
    rfl
  · rw [fetchHalf_of_not_contains hmissing]
    simp only [fetchHalfAt, translate, hnext]
    rfl

/-! ### Instructions -/

/-- Where the second half of the instruction at `pc` is, whose first half was read at `physical`. -/
structure HighPlace (hart : Hart) (pc physical : Word) : Prop where
  inside : pageOffset pc ≠ 0xFFE →
    physical.toNat + 2 < wordCount ∧ pageOf (physical + 2) = pageOf physical ∧
      hart.fetchHigh pc physical = (hart.fetchHalf (physical + 2), hart)
  across : pageOffset pc = 0xFFE →
    pageOffset (hart.xlen.address (pc + 2)) = 0 ∧
      (pageOf (hart.xlen.address (pc + 2))).toNat =
        ((pageOf pc).toNat + 1) % 2 ^ (hart.xlen.bits - 12) ∧
      hart.fetchHigh pc physical = hart.fetchHalfAt (hart.xlen.address (pc + 2))

theorem fetchHigh_inside (hinside : pc.toNat % 4096 + 2 < 4096) :
    hart.fetchHigh pc physical = (hart.fetchHalf (physical + 2), hart) := by
  refine if_neg fun hstart => ?_
  rw [pageOffset_eq_zero_iff, Xlen.toNat_next_mod] at hstart
  omega

theorem fetchHigh_across (hlast : pc.toNat % 4096 = 4094) :
    hart.fetchHigh pc physical = hart.fetchHalfAt (hart.xlen.address (pc + 2)) := by
  refine if_pos ?_
  rw [pageOffset_eq_zero_iff, Xlen.toNat_next_mod]
  omega

section Places

variable (htranslate : hart.translate pc .fetch = (.ok physical, translated))
  (hlow : translated.fetchHalf physical = .ok low)

include htranslate hlow

/-- The half-words have even addresses, the same distance from the starts of their pages. -/
theorem toNat_mod_of_fetchHalf :
    physical.toNat % 4096 = pc.toNat % 4096 ∧ pc.toNat % 2 = 0 := by
  have hoffset := Translation.toNat_mod_of_translate (translate_eq_ok htranslate).1
  have heven := even_of_fetchHalf hlow
  omega

variable (hpc : hart.xlen.address pc = pc)
include hpc

theorem highPlace : translated.HighPlace pc physical := by
  obtain ⟨hoffset, heven⟩ := toNat_mod_of_fetchHalf htranslate hlow
  rw [← (translate_eq_ok htranslate).2] at hpc
  constructor
  · intro hlast
    rw [ne_eq, pageOffset_eq_last_iff] at hlast
    have hinside : pc.toNat % 4096 + 2 < 4096 := by omega
    rw [← hoffset] at hinside
    have hbound := physical.isLt
    exact ⟨by rw [wordCount]; omega, pageOf_add_inside hinside, fetchHigh_inside (hoffset ▸ hinside)⟩
  · intro hlast
    rw [pageOffset_eq_last_iff] at hlast
    refine ⟨?_, Xlen.toNat_pageOf_next hpc hlast, fetchHigh_across hlast⟩
    rw [pageOffset_eq_zero_iff, Xlen.toNat_next_mod]
    omega

theorem fetchHigh_eq_fetchHalfAt :
    translated.fetchHigh pc physical = translated.fetchHalfAt (translated.xlen.address (pc + 2)) := by
  obtain ⟨hoffset, heven⟩ := toNat_mod_of_fetchHalf htranslate hlow
  rw [← (translate_eq_ok htranslate).2] at hpc
  by_cases hlast : pc.toNat % 4096 = 4094
  · exact fetchHigh_across hlast
  · have hinside : pc.toNat % 4096 + 2 < 4096 := by omega
    have hnext : translated.xlen.address (pc + 2) = pc + 2 := Xlen.address_add_inside hpc hinside
    rw [fetchHigh_inside hinside, hnext, fetchHalfAt_add_two htranslate hinside]

end Places

/-- A fetch gives what two fetches of half-words give; the second half is on the page of the first
one or at the start of the next, where the pages wrap with the addresses. -/
theorem fetch_eq_fetchByHalves (hart : Hart) (pc : Word) (hpc : hart.xlen.address pc = pc) :
    hart.fetch pc = hart.fetchByHalves pc ∧
      ∀ physical translated low, hart.translate pc .fetch = (.ok physical, translated) →
        translated.fetchHalf physical = .ok low → translated.HighPlace pc physical := by
  refine ⟨?_, fun physical translated low htranslate hlow => highPlace htranslate hlow hpc⟩
  rw [fetch, fetchByHalves, fetchHalfAt]
  rcases htranslate : hart.translate pc .fetch with ⟨cause | physical, translated⟩
  · rfl
  · cases hlow : translated.fetchHalf physical with
    | error cause => simp only [hlow]
    | ok low =>
        simp only [hlow, EncodedLength.of, fetchHigh_eq_fetchHalfAt htranslate hlow hpc]
        by_cases hfull : low &&& 3 = 3
        · rcases translated.fetchHalfAt (translated.xlen.address (pc + 2)) with
            ⟨cause | high, fetched⟩ <;>
          simp only [hfull, ne_eq, not_true_eq_false, if_true, if_false]
        · simp only [hfull, ne_eq, not_false_eq_true, if_true, if_false]

/-- The last half-word of a 32-bit address space, and the first one on another physical page. -/
theorem fetch_eq_fetchByHalves_wrapped :
    let region :=
      ((Region.zeroed 0 0x10000).overwrite 0x5FFE [0x93, 0x00]).overwrite 0x2000 [0xA0, 0x02]
    let pages := (PageMap.empty.map 0xFFFFF000 0x5000).map 0 0x2000
    let hart : Hart := .initial .standard ⟨[region]⟩ (.paged pages) .x32 0xFFFFFFFE
    hart.xlen.address hart.pc = hart.pc ∧ (hart.fetch hart.pc).1 = .ok 0x02A00093 ∧
      (hart.fetchByHalves hart.pc).1 = .ok 0x02A00093 ∧
      (hart.translate hart.pc .fetch).2.HighPlace hart.pc 0x5FFE := by
  intro region pages hart
  have hpc : hart.xlen.address hart.pc = hart.pc := by decide +kernel
  have htranslate : (hart.translate hart.pc .fetch).1 = .ok 0x5FFE := by decide +kernel
  have hlow : (hart.translate hart.pc .fetch).2.fetchHalf 0x5FFE = .ok 0x0093 := by decide +kernel
  have hword : (hart.fetchByHalves hart.pc).1 = .ok 0x02A00093 := by decide +kernel
  obtain ⟨hfetch, hplace⟩ := fetch_eq_fetchByHalves hart hart.pc hpc
  exact ⟨hpc, hfetch ▸ hword, hword, hplace _ _ _ (Prod.ext htranslate rfl) hlow⟩

end Hart

end RiscvMachine
