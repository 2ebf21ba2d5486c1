import RiscvMachine.Proofs.FetchHalves
/-!
Loads and stores through address translation. An access translates the address of its first byte
and goes on behind it in physical memory. An aligned access stays on its page, so this is where its
other bytes are translated to as well, whatever the pages around it are mapped to.
-/

namespace RiscvMachine

theorem AccessSize.inside_of_aligned {size : AccessSize} {address : Word} {index : Nat}
    (haligned : address.toNat % size.bytes = 0) (hindex : index < size.bytes) :
    address.toNat % 4096 + index < 4096 := by
  cases size <;> simp only [bytes] at haligned hindex <;> omega

theorem Xlen.address_address_add (xlen : Xlen) (value distance : Word) :
    xlen.address (xlen.address value + distance) = xlen.address (value + distance) := by
  apply BitVec.eq_of_toNat_eq
  simp only [toNat_address, unsigned_eq_mod, BitVec.toNat_add]
  rw [Nat.mod_mod_of_dvd _ xlen.modulus_dvd, Nat.mod_mod_of_dvd _ xlen.modulus_dvd, Nat.mod_add_mod]

namespace TrapCause

theorem pageFault_injective : Function.Injective pageFault := by
  intro kind access heq
  cases kind <;> cases access <;> first | rfl | cases heq

theorem ofMemory_ne_pageFault (error : MemoryError) (access kind : Access) :
    ofMemory error access ≠ pageFault kind := by
  cases error <;> cases access <;> cases kind <;> nofun

end TrapCause

namespace MemoryMap

variable {memory after : MemoryMap} {address other value : Word} {size : AccessSize}

theorem Disjoint.separate (hdisjoint : memory.Disjoint) : memory.Separate :=
  hdisjoint.imp fun hapart address _ hboth => hapart ⟨address, hboth⟩

theorem aligned_of_store (hstore : memory.store address value size = .ok after) :
    address.toNat % size.bytes = 0 :=
  (exists_store_iff_readable.mp ⟨after, hstore⟩).aligned

theorem contains_of_store (hstore : memory.store address value size = .ok after) :
    memory.contains address = true := by
  by_contra hmissing
  rw [store_of_not_contains (Bool.eq_false_iff.mpr hmissing)] at hstore
  cases hstore

theorem load_byte_of_store (hdisjoint : memory.Disjoint) (hbelow : memory.BelowLast)
    (hstore : memory.store address value size = .ok after)
    (hapart : memory.contains other = true →
      other.toNat < address.toNat ∨ address.toNat + size.bytes ≤ other.toNat) :
    after.load other .byte = memory.load other .byte := by
  rw [load_byte_eq_match, load_byte_eq_match]
  have hbyte : after.byte? other = memory.byte? other := by
    by_cases hcontains : memory.contains other = true
    · have hpast : (bytesOf size.bytes value.toNat)[(other - address).toNat]? = none := by
        rw [List.getElem?_eq_none_iff, length_bytesOf, ← Nat.not_lt,
          toNat_sub_lt_iff (AccessSize.range_le (aligned_of_store hstore))]
        have := hapart hcontains
        omega
      rw [(overwrites_of_store hstore).byte? hdisjoint.separate hbelow, hpast, Option.none_or]
    · have hmissing : memory.find? other = none := by
        rw [find?, List.find?_eq_none]
        rw [contains, List.any_eq_true] at hcontains
        exact fun region hregion hfound => hcontains ⟨region, hregion, hfound⟩
      rcases find?_store hstore other with hkept | ⟨region, -, hfound, -⟩
      · rw [byte?_eq_map, byte?_eq_map, hkept]
      · rw [hmissing] at hfound
        cases hfound
  rw [hbyte]

end MemoryMap

namespace Translation

/-- The physical address of a virtual one, whatever there is in memory. -/
def physical? (translation : Translation) (address : Word) : Option Word :=
  match translation with
  | identity _ => some address
  | paged pageMap =>
      pageMap.pages[pageOf address]?.map fun (page : Word) => (page <<< 12) ||| pageOffset address

variable {translation after : Translation} {memory : MemoryMap} {address physical : Word}
  {access : Access}

theorem physical?_translate (translation : Translation) (memory : MemoryMap) (address : Word)
    (access : Access) :
    (translation.translate memory address access).2.physical? = translation.physical? := by
  cases translation <;> rfl

theorem translate_of_unmapped (hphysical : translation.physical? address = none) :
    (translation.translate memory address access).1 = .error (.pageFault address access) := by
  cases translation with
  | identity cache => cases hphysical
  | paged pageMap =>
      rw [physical?, Option.map_eq_none_iff] at hphysical
      simp only [translate, PageMap.translate, hphysical]

/-- A translation that fails has no memory at its address. -/
theorem translate_of_physical? (hphysical : translation.physical? address = some physical)
    (memory : MemoryMap) (access : Access) :
    (translation.translate memory address access).1 = .ok physical ∨
      memory.contains physical = false ∧
        (translation.translate memory address access).1 = .error (.accessFault address access) := by
  cases translation with
  | identity cache =>
      obtain rfl := Option.some.inj hphysical
      have hresult : ((identity cache).translate memory address access).1 =
          (cache.translate memory address access).1 := rfl
      rw [hresult, PageCache.translate]
      by_cases hholds : cache.holds (pageOf address) = true
      · exact .inl (by rw [if_pos hholds])
      rw [if_neg hholds]
      by_cases hcontains : memory.contains address = true
      · exact .inl (by rw [if_pos hcontains])
      · exact .inr ⟨Bool.eq_false_iff.mpr hcontains, by rw [if_neg hcontains]⟩
  | paged pageMap =>
      rw [physical?, Option.map_eq_some_iff] at hphysical
      obtain ⟨page, hpage, rfl⟩ := hphysical
      simp only [translate, PageMap.translate, hpage]
      by_cases hcontains : memory.contains ((page <<< 12) ||| pageOffset address) = true
      · exact .inl (if_pos hcontains)
      · exact .inr ⟨Bool.eq_false_iff.mpr hcontains, if_neg hcontains⟩

theorem toNat_mod_of_physical? (hphysical : translation.physical? address = some physical) :
    physical.toNat % 4096 = address.toNat % 4096 := by
  cases translation with
  | identity cache =>
      obtain rfl := Option.some.inj hphysical
      rfl
  | paged pageMap =>
      obtain ⟨page, -, rfl⟩ := Option.map_eq_some_iff.mp hphysical
      rw [toNat_shiftLeft_or_pageOffset]
      omega

/-- Behind an address its page is mapped to the page behind the physical address. -/
theorem physical?_add_inside {index : Nat} (hinside : address.toNat % 4096 + index < 4096) :
    translation.physical? (address + BitVec.ofNat 64 index) =
      (translation.physical? address).map fun physical => physical + BitVec.ofNat 64 index := by
  cases translation with
  | identity cache => rfl
  | paged pageMap =>
      unfold physical?
      rw [pageOf_add_inside hinside, Option.map_map]
      have hplace :
          (fun page : Word => (page <<< 12) ||| pageOffset (address + BitVec.ofNat 64 index)) =
            (fun physical => physical + BitVec.ofNat 64 index) ∘
              fun page : Word => (page <<< 12) ||| pageOffset address := by
        funext page
        exact shiftLeft_or_pageOffset_add_inside hinside page
      rw [hplace]

end Translation

namespace Hart

/-- No page is mapped for the address. -/
def Unmapped (hart : Hart) (address : Word) : Prop :=
  ∃ pageMap, hart.translation = .paged pageMap ∧ pageMap.pages[pageOf address]? = none

/-- A byte is not among those of a store. -/
def ApartFrom (hart : Hart) (address : Word) (size : AccessSize) (other : Word) : Prop :=
  ∀ physical otherPhysical,
    (hart.translate (hart.xlen.address address) .store).1 = .ok physical →
    (hart.translate (hart.xlen.address other) .load).1 = .ok otherPhysical →
      otherPhysical.toNat < physical.toNat ∨ physical.toNat + size.bytes ≤ otherPhysical.toNat

/-- The bytes are loaded one by one, from an address on. -/
def LoadsBytes (hart : Hart) (address : Word) (bytes : List Byte) : Prop :=
  ∀ index byte, bytes[index]? = some byte →
    (hart.load (hart.xlen.address (address + BitVec.ofNat 64 index)) .byte).1 =
      .ok (byte.setWidth 64)

/-- A failed access leaves memory alone, and reports its address and its cause. -/
structure FailedAccess (access : Access) (address : Word) (before : Hart) (exception : Exception)
    (after : Hart) : Prop where
  memory : after.memory = before.memory
  value : exception.value = before.xlen.address address
  cause : ∀ kind, exception.cause = .pageFault kind ↔
    kind = access ∧ before.Unmapped (before.xlen.address address)

variable {hart after : Hart} {address value physical : Word} {size : AccessSize} {access : Access}

theorem unmapped_iff : hart.Unmapped address ↔ hart.translation.physical? address = none := by
  unfold Unmapped
  cases hart.translation with
  | identity cache => simp [Translation.physical?]
  | paged pageMap => simp [Translation.physical?]

/-- The second hart maps the same pages and may remember others; it is the same otherwise. -/
def SameMapping (before after : Hart) : Prop :=
  ∃ translation, translation.physical? = before.translation.physical? ∧
    after = { before with translation := translation }

theorem SameMapping.refl (hart : Hart) : SameMapping hart hart :=
  ⟨hart.translation, rfl, rfl⟩

theorem SameMapping.trans {first second third : Hart} (hfirst : SameMapping first second)
    (hsecond : SameMapping second third) : SameMapping first third := by
  obtain ⟨translation, hmapping, rfl⟩ := hfirst
  obtain ⟨translation', hmapping', rfl⟩ := hsecond
  exact ⟨translation', hmapping'.trans hmapping, rfl⟩

theorem sameMapping_translate {address : Word} {access : Access}
    {result : Except TrapCause Word}
    (htranslate : hart.translate address access = (result, after)) :
    SameMapping hart after := by
  obtain rfl : (hart.translate address access).2 = after := congrArg Prod.snd htranslate
  exact ⟨_, Translation.physical?_translate _ _ _ _, rfl⟩

/-! ### What an access gives -/

theorem translate_eq (hart : Hart) (address : Word) (access : Access) :
    ∃ after, SameMapping hart after ∧
      match hart.translation.physical? address with
      | none => hart.translate address access = (.error (.pageFault access), after)
      | some physical =>
          hart.translate address access = (.ok physical, after) ∨
            hart.memory.contains physical = false ∧
              hart.translate address access = (.error (.accessFault access), after) := by
  refine ⟨_, sameMapping_translate (Prod.eta (hart.translate address access)).symm, ?_⟩
  have named {outcome : Except TranslationError Word}
      (houtcome : (hart.translation.translate hart.memory address access).1 = outcome) :
      (hart.translate address access).1 = outcome.mapError .ofTranslation :=
    congrArg (Except.mapError TrapCause.ofTranslation) houtcome
  cases hphysical : hart.translation.physical? address with
  | none => exact Prod.ext (named (Translation.translate_of_unmapped hphysical)) rfl
  | some physical =>
      rcases Translation.translate_of_physical? hphysical hart.memory access with
        htranslate | ⟨hmissing, htranslate⟩
      · exact .inl (Prod.ext (named htranslate) rfl)
      · exact .inr ⟨hmissing, Prod.ext (named htranslate) rfl⟩

/-- What an operation on memory gives at the physical address of an access. -/
def atPhysical {α : Type} (hart : Hart) (access : Access) (address : Word)
    (operation : Word → Except MemoryError α) : Except Exception α :=
  match hart.translation.physical? (hart.xlen.address address) with
  | none => .error ⟨.pageFault access, hart.xlen.address address⟩
  | some physical => (operation physical).mapError fun error =>
      ⟨.ofMemory error access, hart.xlen.address address⟩

section AtPhysical

variable {α : Type} {operation : Word → Except MemoryError α}

theorem atPhysical_eq_ok_iff {result : α} :
    hart.atPhysical access address operation = .ok result ↔
      ∃ physical, hart.translation.physical? (hart.xlen.address address) = some physical ∧
        operation physical = .ok result := by
  unfold atPhysical
  cases hart.translation.physical? (hart.xlen.address address) with
  | none => simp
  | some physical => simp [mapError_eq_ok_iff]

/-- Memory that refuses an access does so for other reasons than a page that is not mapped. -/
theorem atPhysical_eq_error {exception : Exception}
    (herror : hart.atPhysical access address operation = .error exception) :
    exception.value = hart.xlen.address address ∧
      ∀ kind, exception.cause = .pageFault kind ↔
        kind = access ∧ hart.Unmapped (hart.xlen.address address) := by
  rw [unmapped_iff]
  unfold atPhysical at herror
  cases hphysical : hart.translation.physical? (hart.xlen.address address) with
  | none =>
      rw [hphysical] at herror
      cases herror
      refine ⟨rfl, fun kind => ⟨fun hcause => ⟨?_, rfl⟩, fun ⟨hkind, _⟩ => ?_⟩⟩
      · exact (TrapCause.pageFault_injective hcause).symm
      · exact congrArg TrapCause.pageFault hkind.symm
  | some physical =>
      simp only [hphysical] at herror
      cases hmemory : operation physical with
      | ok result =>
          rw [hmemory] at herror
          cases herror
      | error error =>
          rw [hmemory] at herror
          cases herror
          exact ⟨rfl, fun kind =>
            iff_of_false (TrapCause.ofMemory_ne_pageFault error access kind) nofun⟩

end AtPhysical

theorem load_eq (hart : Hart) (address : Word) (size : AccessSize) :
    ∃ after, SameMapping hart after ∧ hart.load address size =
      (hart.atPhysical .load address fun physical => hart.memory.load physical size, after) := by
  obtain ⟨after, hsame, htranslate⟩ := hart.translate_eq (hart.xlen.address address) .load
  refine ⟨after, hsame, ?_⟩
  obtain ⟨translation, -, rfl⟩ := hsame
  unfold load atPhysical
  cases hphysical : hart.translation.physical? (hart.xlen.address address) with
  | none =>
      rw [hphysical] at htranslate
      simp only [htranslate]
  | some physical =>
      rw [hphysical] at htranslate
      rcases htranslate with htranslate | ⟨hmissing, htranslate⟩
      · simp only [htranslate]
        cases hart.memory.load physical size <;> rfl
      · simp only [htranslate, MemoryMap.load_of_not_contains hmissing]
        rfl

theorem store_eq (hart : Hart) (address value : Word) (size : AccessSize) :
    ∃ after, SameMapping hart after ∧ hart.store address value size =
      match hart.atPhysical .store address fun physical => hart.memory.store physical value size with
      | .error exception => (.error exception, after)
      | .ok memory => (.ok (), { after with memory := memory }) := by
  obtain ⟨after, hsame, htranslate⟩ := hart.translate_eq (hart.xlen.address address) .store
  refine ⟨after, hsame, ?_⟩
  obtain ⟨translation, -, rfl⟩ := hsame
  unfold store atPhysical
  cases hphysical : hart.translation.physical? (hart.xlen.address address) with
  | none =>
      rw [hphysical] at htranslate
      simp only [htranslate]
  | some physical =>
      rw [hphysical] at htranslate
      rcases htranslate with htranslate | ⟨hmissing, htranslate⟩
      · simp only [htranslate]
        cases hart.memory.store physical value size <;> rfl
      · simp only [htranslate, MemoryMap.store_of_not_contains hmissing]
        rfl

theorem failedAccess_load {exception : Exception}
    (hload : hart.load address size = (.error exception, after)) :
    FailedAccess .load address hart exception after := by
  obtain ⟨translated, ⟨translation, -, rfl⟩, heq⟩ := hart.load_eq address size
  obtain ⟨hresult, rfl⟩ := Prod.mk.inj (heq.symm.trans hload)
  obtain ⟨hvalue, hcause⟩ := atPhysical_eq_error hresult
  exact ⟨rfl, hvalue, hcause⟩

theorem failedAccess_store {exception : Exception}
    (hstore : hart.store address value size = (.error exception, after)) :
    FailedAccess .store address hart exception after := by
  obtain ⟨translated, ⟨translation, -, rfl⟩, heq⟩ := hart.store_eq address value size
  rw [heq] at hstore
  split at hstore
  · rename_i hresult
    cases hstore
    obtain ⟨hvalue, hcause⟩ := atPhysical_eq_error hresult
    exact ⟨rfl, hvalue, hcause⟩
  · cases hstore

/-! ### What is read -/

theorem SameMapping.atPhysical {reader : Hart} (hsame : SameMapping hart reader)
    {α : Type} (operation : Word → Except MemoryError α) :
    reader.atPhysical access address operation = hart.atPhysical access address operation := by
  obtain ⟨translation, hmapping, rfl⟩ := hsame
  unfold Hart.atPhysical
  rw [hmapping]

theorem load_fst (hart : Hart) (address : Word) (size : AccessSize) :
    (hart.load address size).1 =
      hart.atPhysical .load address fun physical => hart.memory.load physical size := by
  obtain ⟨after, -, heq⟩ := hart.load_eq address size
  rw [heq]

/-- What is loaded does not depend on the pages that are remembered. -/
theorem SameMapping.load {reader : Hart} (hsame : SameMapping hart reader) (address : Word)
    (size : AccessSize) : (reader.load address size).1 = (hart.load address size).1 := by
  rw [load_fst, load_fst, hsame.atPhysical]
  obtain ⟨translation, -, rfl⟩ := hsame
  rfl

theorem LoadsBytes.sameMapping {reader : Hart} {bytes : List Byte}
    (hbytes : hart.LoadsBytes address bytes) (hsame : SameMapping hart reader) :
    reader.LoadsBytes address bytes := by
  intro index byte hbyte
  obtain ⟨translation, -, rfl⟩ := id hsame
  rw [hsame.load]
  exact hbytes index byte hbyte

/-- An aligned range of a page is mapped to a range of memory. -/
theorem physical?_address_add {index : Nat}
    (hphysical : hart.translation.physical? (hart.xlen.address address) = some physical)
    (haligned : physical.toNat % size.bytes = 0) (hindex : index < size.bytes) :
    hart.translation.physical? (hart.xlen.address (address + BitVec.ofNat 64 index)) =
      some (physical + BitVec.ofNat 64 index) := by
  have hinside : (hart.xlen.address address).toNat % 4096 + index < 4096 := by
    rw [← Translation.toNat_mod_of_physical? hphysical]
    exact AccessSize.inside_of_aligned haligned hindex
  rw [← Xlen.address_address_add, Xlen.address_add_inside (Xlen.address_address _ _) hinside,
    Translation.physical?_add_inside hinside, hphysical, Option.map_some]

theorem exists_bytes_of_load {loaded : Word} (hdisjoint : hart.memory.Disjoint)
    (hload : (hart.load address size).1 = .ok loaded) :
    ∃ bytes : List Byte, bytes.length = size.bytes ∧
      loaded = BitVec.ofNat 64 (littleEndian bytes) ∧ hart.LoadsBytes address bytes := by
  rw [load_fst, atPhysical_eq_ok_iff] at hload
  obtain ⟨physical, hphysical, hmemory⟩ := hload
  have haligned := MemoryMap.Readable.aligned ⟨loaded, hmemory⟩
  obtain ⟨bytes, hlength, hspells, rfl⟩ := hdisjoint.exists_spells_of_load hmemory
  refine ⟨bytes, hlength, rfl, fun index byte hbyte => ?_⟩
  obtain ⟨hindex, -⟩ := List.getElem?_eq_some_iff.mp hbyte
  have hplace := physical?_address_add hphysical haligned (hlength ▸ hindex)
  rw [load_fst, atPhysical_eq_ok_iff, Xlen.address_address]
  refine ⟨_, hplace, ?_⟩
  rw [MemoryMap.load_byte_eq_match, hspells index hindex, hbyte]

/-! ### What is written -/

theorem translate_of_contains (hphysical : hart.translation.physical? address = some physical)
    (hcontains : hart.memory.contains physical = true) (access : Access) :
    (hart.translate address access).1 = .ok physical := by
  obtain ⟨after, -, htranslate⟩ := hart.translate_eq address access
  rw [hphysical] at htranslate
  rcases htranslate with htranslate | ⟨hmissing, -⟩
  · rw [htranslate]
  · rw [hcontains] at hmissing
    cases hmissing

theorem exists_memory_of_store {stored : Hart}
    (hstore : hart.store address value size = (.ok (), stored)) :
    ∃ physical memory after,
      hart.translation.physical? (hart.xlen.address address) = some physical ∧
        hart.memory.store physical value size = .ok memory ∧ SameMapping hart after ∧
        stored = { after with memory := memory } := by
  obtain ⟨after, hsame, heq⟩ := hart.store_eq address value size
  rw [heq] at hstore
  split at hstore
  · cases hstore
  · rename_i memory hresult
    cases hstore
    obtain ⟨physical, hphysical, hmemory⟩ := atPhysical_eq_ok_iff.mp hresult
    exact ⟨physical, memory, after, hphysical, hmemory, hsame, rfl⟩

theorem load_of_store {stored : Hart}
    (hstore : hart.store address value size = (.ok (), stored)) :
    (stored.load address size).1 = .ok (BitVec.ofNat 64 (value.toNat % 2 ^ size.bits)) := by
  obtain ⟨physical, memory, after, hphysical, hmemory, ⟨translation, hmapping, rfl⟩, rfl⟩ :=
    exists_memory_of_store hstore
  rw [load_fst, atPhysical_eq_ok_iff]
  refine ⟨physical, ?_, MemoryMap.load_of_store hmemory⟩
  rwa [hmapping]

/-- A byte at another place in memory is as it was, whichever page it is loaded through. -/
theorem load_byte_of_store {stored : Hart} {other : Word} (hdisjoint : hart.memory.Disjoint)
    (hbelow : hart.memory.BelowLast) (hstore : hart.store address value size = (.ok (), stored))
    (hapart : hart.ApartFrom address size other) :
    (stored.load other .byte).1 = (hart.load other .byte).1 := by
  obtain ⟨physical, memory, after, hphysical, hmemory, ⟨translation, hmapping, rfl⟩, rfl⟩ :=
    exists_memory_of_store hstore
  rw [load_fst, load_fst]
  unfold atPhysical
  rw [hmapping]
  cases hother : hart.translation.physical? (hart.xlen.address other) with
  | none => rfl
  | some otherPhysical =>
      have hwritten := MemoryMap.contains_of_store hmemory
      have hloaded := MemoryMap.load_byte_of_store hdisjoint hbelow hmemory fun hcontains =>
        hapart physical otherPhysical (translate_of_contains hphysical hwritten .store)
          (translate_of_contains hother hcontains .load)
      exact congrArg (Except.mapError _) hloaded

/-- Loads and stores of any size through either translation, told by loads of single bytes. -/
theorem access_translated (hart : Hart) (address : Word) (size : AccessSize)
    (hdisjoint : hart.memory.Disjoint) (hbelow : hart.memory.BelowLast) :
    (∀ loaded after, hart.load address size = (.ok loaded, after) →
      ∃ bytes : List Byte, bytes.length = size.bytes ∧
        loaded = BitVec.ofNat 64 (littleEndian bytes) ∧
        hart.LoadsBytes address bytes ∧ after.LoadsBytes address bytes) ∧
    (∀ value stored, hart.store address value size = (.ok (), stored) →
      (stored.load address size).1 = .ok (BitVec.ofNat 64 (value.toNat % 2 ^ size.bits)) ∧
        ∀ other, hart.ApartFrom address size other →
          (stored.load other .byte).1 = (hart.load other .byte).1) ∧
    (∀ exception after, hart.load address size = (.error exception, after) →
      FailedAccess .load address hart exception after) ∧
    ∀ value exception after, hart.store address value size = (.error exception, after) →
      FailedAccess .store address hart exception after := by
  refine ⟨fun loaded after hload => ?_, fun value stored hstore => ?_,
    fun exception after => failedAccess_load, fun value exception after => failedAccess_store⟩
  · obtain ⟨bytes, hlength, hloaded, hbytes⟩ :=
      exists_bytes_of_load hdisjoint (congrArg Prod.fst hload)
    obtain ⟨translated, hsame, heq⟩ := hart.load_eq address size
    obtain rfl : translated = after := congrArg Prod.snd (heq.symm.trans hload)
    exact ⟨bytes, hlength, hloaded, hbytes, hbytes.sameMapping hsame⟩
  · exact ⟨load_of_store hstore,
      fun other => load_byte_of_store hdisjoint hbelow hstore⟩

/-- A store at the end of a page that is mapped twice, and a load from a page that is not mapped. -/
theorem access_translated_aliased :
    let memory := (MemoryMap.withRegion 0x8000 0x1000).attach (.zeroed 0x9000 0x800)
    let pages := (PageMap.empty.map 0x1000 0x8000).map 0x2000 0x8000
    let hart : Hart := .initial .standard memory (.paged pages) .x32 0
    let stored := (hart.store 0x100001FF8 0x1122334455667788 .double).2
    hart.memory.Disjoint ∧ hart.memory.BelowLast ∧
      hart.store 0x100001FF8 0x1122334455667788 .double = (.ok (), stored) ∧
      (stored.load 0x100001FF8 .double).1 = .ok 0x1122334455667788 ∧
      (stored.load 0x2000 .byte).1 = (hart.load 0x2000 .byte).1 ∧
      (stored.load 0x2FF9 .byte).1 = .ok 0x77 ∧
      ∃ exception after, hart.load 0x100003000 .word = (.error exception, after) ∧
        FailedAccess .load 0x100003000 hart exception after := by
  intro memory pages hart stored
  have hbelow : hart.memory.BelowLast := by decide +kernel
  have hassembled : hart.memory.Assembled := .attach (.single 0x8000 0x1000) (.zeroed 0x9000 0x800)
  have hdisjoint := hassembled.separate.disjoint hbelow
  have hstore : hart.store 0x100001FF8 0x1122334455667788 .double = (.ok (), stored) :=
    Prod.ext (by decide +kernel) rfl
  have hapart : hart.ApartFrom 0x100001FF8 .double 0x2000 := by
    have hstart : (hart.translate (hart.xlen.address 0x100001FF8) .store).1 = .ok 0x8FF8 := by
      decide +kernel
    have hother : (hart.translate (hart.xlen.address 0x2000) .load).1 = .ok 0x8000 := by
      decide +kernel
    intro physical otherPhysical hphysical hotherPhysical
    obtain rfl := Except.ok.inj (hstart.symm.trans hphysical)
    obtain rfl := Except.ok.inj (hother.symm.trans hotherPhysical)
    decide
  obtain ⟨-, hstored, -, -⟩ := access_translated hart 0x100001FF8 .double hdisjoint hbelow
  obtain ⟨hloaded, hkept⟩ := hstored _ stored hstore
  have hfault : (hart.load 0x100003000 .word).1 = .error ⟨.loadPageFault, 0x3000⟩ := by
    decide +kernel
  obtain ⟨-, -, hfailed, -⟩ := access_translated hart 0x100003000 .word hdisjoint hbelow
  exact ⟨hdisjoint, hbelow, hstore, hloaded, hkept _ hapart, by decide +kernel, _, _,
    Prod.ext hfault rfl, hfailed _ _ (Prod.ext hfault rfl)⟩

end Hart

end RiscvMachine
