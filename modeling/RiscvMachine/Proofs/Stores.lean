import Mathlib.Algebra.Group.Nat.Defs
import Mathlib.Logic.Relation
import RiscvMachine.Memory.Map
import RiscvMachine.Proofs.Except
/-!
Stores to memory, and what can be read after them. A store changes bytes of one region and leaves
all regions in their places.
-/

namespace RiscvMachine

theorem bytesOf_zero (count : Nat) : bytesOf count 0 = List.replicate count 0 := by
  induction count with
  | zero => rfl
  | succ count ih => rw [bytesOf, Nat.zero_div, ih]; rfl

theorem littleEndian_replicate_zero (count : Nat) : littleEndian (List.replicate count 0) = 0 := by
  induction count with
  | zero => rfl
  | succ count ih => rw [List.replicate_succ, littleEndian, ih]; rfl

theorem littleEndian_lt (bytes : List Byte) : littleEndian bytes < 256 ^ bytes.length := by
  induction bytes with
  | nil => decide
  | cons byte rest ih =>
      have hbyte : byte.toNat < 256 := byte.isLt
      rw [littleEndian, List.length_cons, Nat.pow_succ]
      omega

theorem littleEndian_bytesOf (count value : Nat) :
    littleEndian (bytesOf count value) = value % 256 ^ count := by
  induction count generalizing value with
  | zero => exact (Nat.mod_one value).symm
  | succ count ih =>
      calc littleEndian (bytesOf (count + 1) value)
          = value % 256 + 256 * (value / 256 % 256 ^ count) := by
            rw [bytesOf, littleEndian, ih, BitVec.toNat_ofNat]
        _ = value % (256 * 256 ^ count) := Nat.mod_mul.symm
        _ = value % 256 ^ (count + 1) := by rw [Nat.pow_succ']

namespace Region

variable {region updated : Region} {address value : Word} {size : AccessSize}

theorem contains_overwrite (region : Region) (offset : Nat) (bytes : List Byte) (address : Word) :
    (region.overwrite offset bytes).contains address = region.contains address := by
  rw [contains, contains, base_overwrite, size_overwrite]

theorem locate_overwrite (region : Region) (offset : Nat) (bytes : List Byte) (address : Word)
    (size : AccessSize) :
    (region.overwrite offset bytes).locate address size = region.locate address size := by
  simp only [locate, offset?, base_overwrite, size_overwrite]

theorem base_add_of_locate {offset : Nat} (hlocate : region.locate address size = .ok offset) :
    region.base.toNat + offset = address.toNat := by
  rw [locate] at hlocate
  split at hlocate
  · cases hlocate
  · split at hlocate <;> cases hlocate
    rename_i hoffset
    rw [offset?] at hoffset
    split at hoffset <;> cases hoffset
    rename_i hinside
    exact Nat.add_sub_cancel' (BitVec.le_def.mp hinside.1)

theorem locate_eq_ok {offset : Nat} (hlocate : region.locate address size = .ok offset) :
    offset = address.toNat - region.base.toNat := by
  rw [← base_add_of_locate hlocate, Nat.add_sub_cancel_left]

theorem store_eq_ok (hstore : region.store address value size = .ok updated) :
    ∃ offset, region.locate address size = .ok offset ∧
      updated = region.overwrite offset (bytesOf size.bytes value.toNat) := by
  obtain ⟨offset, hlocate, hupdated⟩ := exists_ok_of_bind hstore
  cases hupdated
  exact ⟨offset, hlocate, rfl⟩

theorem store_zero_eq_ok (hstore : region.store address 0 .word = .ok updated) :
    ∃ offset, region.locate address .word = .ok offset ∧
      updated = region.overwrite offset (List.replicate 4 0) := by
  obtain ⟨offset, hlocate, hupdated⟩ := store_eq_ok hstore
  have hbytes : bytesOf AccessSize.word.bytes (0 : Word).toNat = List.replicate 4 0 := bytesOf_zero 4
  rw [hbytes] at hupdated
  exact ⟨offset, hlocate, hupdated⟩

theorem contains_of_store (hstore : region.store address value size = .ok updated) (other : Word) :
    updated.contains other = region.contains other := by
  obtain ⟨offset, -, rfl⟩ := store_eq_ok hstore
  exact contains_overwrite region offset _ other

theorem byteAt_overwrite_replicate (region : Region) (offset count other : Nat) (byte : Byte) :
    (region.overwrite offset (List.replicate count byte)).byteAt other =
      if offset ≤ other ∧ other < offset + count then byte else region.byteAt other := by
  rw [byteAt_overwrite]
  by_cases hstart : offset ≤ other
  · by_cases hend : other < offset + count
    · have hinside : other - offset < count := by omega
      rw [if_pos hstart, if_pos ⟨hstart, hend⟩]
      simp [hinside]
    · have houtside : ¬other - offset < count := by omega
      rw [if_pos hstart, if_neg fun hboth => hend hboth.2]
      simp [houtside]
  · rw [if_neg hstart, if_neg fun hboth => hstart hboth.1]

theorem getElem?_bytesFrom {offset count distance : Nat} (hdistance : distance < count) :
    (region.bytesFrom offset count)[distance]? = some (region.byteAt (offset + distance)) := by
  induction count generalizing offset distance with
  | zero => exact absurd hdistance (Nat.not_lt_zero _)
  | succ count ih =>
      cases distance with
      | zero => rfl
      | succ distance =>
          rw [bytesFrom, List.getElem?_cons_succ, ih (Nat.lt_of_succ_lt_succ hdistance)]
          congr 2
          omega

theorem bytesFrom_overwrite (region : Region) (offset : Nat) (bytes : List Byte) :
    (region.overwrite offset bytes).bytesFrom offset bytes.length = bytes := by
  apply List.ext_getElem?
  intro index
  by_cases hindex : index < bytes.length
  · rw [getElem?_bytesFrom hindex, byteAt_overwrite, if_pos (Nat.le_add_right _ _),
      Nat.add_sub_cancel_left, List.getD_eq_getElem?_getD, List.getElem?_eq_getElem hindex,
      Option.getD_some]
  · have hend := Nat.le_of_not_lt hindex
    rw [List.getElem?_eq_none hend, List.getElem?_eq_none (by rwa [length_bytesFrom])]

/-- Bytes apart from the written ones stay as they are. -/
theorem bytesFrom_overwrite_of_apart (region : Region) {offset place count : Nat} {bytes : List Byte}
    (hapart : place + count ≤ offset ∨ offset + bytes.length ≤ place) :
    (region.overwrite offset bytes).bytesFrom place count = region.bytesFrom place count := by
  apply List.ext_getElem?
  intro index
  by_cases hindex : index < count
  · rw [getElem?_bytesFrom hindex, getElem?_bytesFrom hindex, byteAt_overwrite]
    split
    · have hpast : bytes[place + index - offset]? = none := List.getElem?_eq_none (by omega)
      rw [List.getD_eq_getElem?_getD, hpast, Option.getD_none]
    · rfl
  · have hend := Nat.le_of_not_lt hindex
    rw [List.getElem?_eq_none (by rwa [length_bytesFrom]),
      List.getElem?_eq_none (by rwa [length_bytesFrom])]

theorem bytesFrom_eq_replicate {offset count : Nat} {byte : Byte}
    (hbytes : ∀ distance < count, region.byteAt (offset + distance) = byte) :
    region.bytesFrom offset count = List.replicate count byte := by
  induction count generalizing offset with
  | zero => rfl
  | succ count ih =>
      have hfirst : region.byteAt offset = byte := hbytes 0 (Nat.succ_pos count)
      rw [bytesFrom, List.replicate_succ, hfirst, ih]
      intro distance hdistance
      rw [show offset + 1 + distance = offset + (distance + 1) by omega]
      exact hbytes (distance + 1) (Nat.succ_lt_succ hdistance)

end Region

namespace MemoryMap

/-- The second memory comes about from the first one by stores. -/
def Stored : MemoryMap → MemoryMap → Prop :=
  Relation.ReflTransGen fun before after =>
    ∃ address value size, before.store address value size = .ok after

def Readable (memory : MemoryMap) (address : Word) (size : AccessSize) : Prop :=
  ∃ value, memory.load address size = .ok value

/-- The 32-bit word at an address, or zero where there is none. -/
def wordAt (memory : MemoryMap) (address : Word) : BitVec 32 :=
  match memory.load address .word with
  | .error _ => 0
  | .ok value => value.setWidth 32

/-- The bytes of the word at an address are zero. -/
def Blank (memory : MemoryMap) (address : Word) : Prop :=
  ∀ region, memory.find? address = some region →
    ∀ distance < 4, region.byteAt (address.toNat - region.base.toNat + distance) = 0

variable {memory after : MemoryMap} {address other value : Word} {size : AccessSize}

/-- An update goes to the first region that contains the address. -/
theorem updateFirst_eq_ok {update : Region → Except MemoryError Region} {regions result : List Region}
    (hupdate : updateFirst address size update regions = .ok result) :
    ∃ earlier region updated later, regions = earlier ++ region :: later ∧
      (∀ region ∈ earlier, region.contains address = false) ∧ region.contains address = true ∧
      update region = .ok updated ∧ result = earlier ++ updated :: later := by
  induction regions generalizing result with
  | nil => cases hupdate
  | cons first rest ih =>
      rw [updateFirst] at hupdate
      split at hupdate
      · rename_i hcontains
        obtain ⟨updated, hfirst, hresult⟩ := exists_ok_of_bind hupdate
        cases hresult
        exact ⟨[], first, updated, rest, rfl, by simp, hcontains, hfirst, rfl⟩
      · rename_i hcontains
        obtain ⟨updatedRest, hrest, hresult⟩ := exists_ok_of_bind hupdate
        cases hresult
        obtain ⟨earlier, region, updated, later, rfl, hearlier, hregion, hupdated, rfl⟩ := ih hrest
        refine ⟨first :: earlier, region, updated, later, rfl, ?_, hregion, hupdated, rfl⟩
        exact List.forall_mem_cons.mpr ⟨Bool.eq_false_iff.mpr hcontains, hearlier⟩

theorem store_eq_ok (hstore : memory.store address value size = .ok after) :
    ∃ earlier region updated later, memory.regions = earlier ++ region :: later ∧
      (∀ region ∈ earlier, region.contains address = false) ∧ region.contains address = true ∧
      region.store address value size = .ok updated ∧ after.regions = earlier ++ updated :: later := by
  obtain ⟨regions, hregions, hafter⟩ := exists_ok_of_bind hstore
  cases hafter
  exact updateFirst_eq_ok hregions

/-- The first region that holds an address is found. -/
theorem find?_of_append {region : Region} {earlier later : List Region}
    (hregions : memory.regions = earlier ++ region :: later)
    (hearlier : ∀ region ∈ earlier, region.contains address = false)
    (hcontains : region.contains address = true) : memory.find? address = some region := by
  have hskip : earlier.find? (fun region => region.contains address) = none := by
    simpa [List.find?_eq_none] using hearlier
  simp only [find?, hregions, List.find?_append, hskip, Option.none_or, List.find?_cons, hcontains]

/-- The region of the address is found again, with the new bytes. -/
theorem find?_store_self (hstore : memory.store address value size = .ok after) :
    ∃ region updated, memory.find? address = some region ∧
      region.store address value size = .ok updated ∧ after.find? address = some updated := by
  obtain ⟨earlier, region, updated, later, hbefore, hearlier, hregion, hupdated, hafter⟩ :=
    store_eq_ok hstore
  exact ⟨region, updated, find?_of_append hbefore hearlier hregion, hupdated,
    find?_of_append hafter hearlier ((Region.contains_of_store hupdated address).trans hregion)⟩

/-- Any address is found in the region in which it was, and that has the new bytes or none. -/
theorem find?_store (hstore : memory.store address value size = .ok after) (other : Word) :
    after.find? other = memory.find? other ∨
      ∃ region updated, memory.find? other = some region ∧
        region.store address value size = .ok updated ∧ after.find? other = some updated := by
  obtain ⟨earlier, region, updated, later, hbefore, -, -, hupdated, hafter⟩ := store_eq_ok hstore
  have hcontains := Region.contains_of_store hupdated other
  rw [find?, find?, hbefore, hafter, List.find?_append, List.find?_append]
  cases hearlier : earlier.find? fun region => region.contains other with
  | some found => exact .inl rfl
  | none =>
      rw [Option.none_or, Option.none_or]
      cases hregion : region.contains other with
      | false =>
          rw [hregion] at hcontains
          left
          rw [List.find?_cons_of_neg (by simp [hcontains]), List.find?_cons_of_neg (by simp [hregion])]
      | true =>
          rw [hregion] at hcontains
          exact .inr ⟨region, updated, List.find?_cons_of_pos hregion, hupdated,
            List.find?_cons_of_pos hcontains⟩

theorem readable_iff :
    memory.Readable address size ↔
      ∃ region offset, memory.find? address = some region ∧
        region.locate address size = .ok offset := by
  rw [Readable, load]
  cases memory.find? address with
  | none => simp
  | some region =>
      simp only [Region.load]
      cases hlocate : region.locate address size with
      | error error => simp [hlocate, bind, Except.bind]
      | ok offset => simp [hlocate, bind, Except.bind, pure, Except.pure]

theorem Readable.store {read : AccessSize} (hreadable : memory.Readable other read)
    (hstore : memory.store address value size = .ok after) : after.Readable other read := by
  obtain ⟨region, offset, hfind, hlocate⟩ := readable_iff.mp hreadable
  refine readable_iff.mpr ?_
  rcases find?_store hstore other with hkept | ⟨found, updated, hfound, hupdated, hafter⟩
  · exact ⟨region, offset, hkept.trans hfind, hlocate⟩
  · obtain ⟨place, -, rfl⟩ := Region.store_eq_ok hupdated
    rw [hfind] at hfound
    cases hfound
    exact ⟨_, offset, hafter, (Region.locate_overwrite region place _ other read).trans hlocate⟩

theorem Readable.stored {read : AccessSize} (hreadable : memory.Readable other read)
    (hstored : memory.Stored after) : after.Readable other read := by
  induction hstored with
  | refl => exact hreadable
  | tail _ hstore ih =>
      obtain ⟨address, value, size, hstore⟩ := hstore
      exact ih.store hstore

theorem exists_updateFirst (size : AccessSize) (update : Region → Except MemoryError Region)
    {regions : List Region} {region updated : Region}
    (hfind : regions.find? (fun region => region.contains address) = some region)
    (hupdate : update region = .ok updated) :
    ∃ result, updateFirst address size update regions = .ok result := by
  induction regions with
  | nil => cases hfind
  | cons first rest ih =>
      rw [updateFirst]
      split
      · rename_i hcontains
        rw [List.find?_cons_of_pos (by simpa using hcontains)] at hfind
        cases hfind
        exact ⟨updated :: rest, by rw [hupdate]; rfl⟩
      · rename_i hcontains
        rw [List.find?_cons_of_neg (by simpa using hcontains)] at hfind
        obtain ⟨result, hresult⟩ := ih hfind
        exact ⟨first :: result, by rw [hresult]; rfl⟩

/-- What can be read can be written. -/
theorem Readable.exists_store (hreadable : memory.Readable address size) (value : Word) :
    ∃ after, memory.store address value size = .ok after := by
  obtain ⟨region, offset, hfind, hlocate⟩ := readable_iff.mp hreadable
  have hregion : region.store address value size =
      .ok (region.overwrite offset (bytesOf size.bytes value.toNat)) := by
    rw [Region.store, hlocate]
    rfl
  obtain ⟨regions, hregions⟩ :=
    exists_updateFirst size (fun region => region.store address value size) hfind hregion
  exact ⟨⟨regions⟩, by rw [MemoryMap.store, hregions]; rfl⟩

/-- A word that can be read is no wider than its bytes. -/
theorem load_eq_wordAt (hreadable : memory.Readable address .word) :
    memory.load address .word = .ok ((memory.wordAt address).setWidth 64) := by
  obtain ⟨region, offset, hfind, hlocate⟩ := readable_iff.mp hreadable
  have hload : memory.load address .word =
      .ok (BitVec.ofNat 64 (littleEndian (region.bytesFrom offset 4))) := by
    rw [load, hfind]
    simp only [Region.load, hlocate]
    rfl
  have hlt : littleEndian (region.bytesFrom offset 4) < 2 ^ 32 := by
    have hbytes := littleEndian_lt (region.bytesFrom offset 4)
    rwa [Region.length_bytesFrom] at hbytes
  rw [wordAt, hload]
  simp only [Except.ok.injEq]
  apply BitVec.eq_of_toNat_eq
  rw [BitVec.toNat_setWidth, BitVec.toNat_setWidth, BitVec.toNat_ofNat]
  omega

/-- A load gives back what was stored at its address. -/
theorem load_of_store (hstore : memory.store address value size = .ok after) :
    after.load address size = .ok (BitVec.ofNat 64 (value.toNat % 2 ^ size.bits)) := by
  obtain ⟨region, updated, -, hupdated, hafter⟩ := find?_store_self hstore
  obtain ⟨offset, hlocate, rfl⟩ := Region.store_eq_ok hupdated
  have hbytes := region.bytesFrom_overwrite offset (bytesOf size.bytes value.toNat)
  rw [length_bytesOf] at hbytes
  have hload : after.load address size = .ok (BitVec.ofNat 64 (littleEndian
      ((region.overwrite offset (bytesOf size.bytes value.toNat)).bytesFrom offset size.bytes))) := by
    rw [load, hafter]
    simp only [Region.load, Region.locate_overwrite, hlocate]
    rfl
  rw [hload, hbytes, littleEndian_bytesOf, AccessSize.bits, Nat.pow_mul]

theorem load_of_store_word {word : BitVec 32}
    (hstore : memory.store address (word.setWidth 64) .word = .ok after) :
    after.load address .word = .ok (word.setWidth 64) := by
  rw [load_of_store hstore]
  refine congrArg Except.ok (BitVec.eq_of_toNat_eq ?_)
  have hword := word.isLt
  simp only [BitVec.toNat_ofNat, BitVec.toNat_setWidth, AccessSize.bits, AccessSize.bytes]
  omega

/-- A load of bytes apart from the stored ones finds what it found before. -/
theorem load_of_store_of_apart (hstore : memory.store address value size = .ok after)
    {read : AccessSize} (hapart : other.toNat + read.bytes ≤ address.toNat ∨
      address.toNat + size.bytes ≤ other.toNat) :
    after.load other read = memory.load other read := by
  rcases find?_store hstore other with hkept | ⟨region, updated, hfound, hupdated, hafter⟩
  · rw [load, load, hkept]
  · obtain ⟨offset, hlocate, rfl⟩ := Region.store_eq_ok hupdated
    rw [load, load, hfound, hafter]
    simp only [Region.load, Region.locate_overwrite]
    cases hplace : region.locate other read with
    | error => rfl
    | ok place =>
        have hoffset := Region.base_add_of_locate hlocate
        have hbase := Region.base_add_of_locate hplace
        have hbytes : (region.overwrite offset (bytesOf size.bytes value.toNat)).bytesFrom place
            read.bytes = region.bytesFrom place read.bytes :=
          region.bytesFrom_overwrite_of_apart (by rw [length_bytesOf]; omega)
        exact congrArg (fun bytes => Except.ok (BitVec.ofNat 64 (littleEndian bytes))) hbytes

/-! ### Zero words -/

theorem Blank.wordAt_eq_zero (hblank : memory.Blank address) : memory.wordAt address = 0 := by
  rw [wordAt]
  split
  · rfl
  · rename_i value hload
    obtain ⟨region, offset, hfind, hlocate⟩ := readable_iff.mp ⟨value, hload⟩
    rw [load, hfind] at hload
    simp only [Region.load, hlocate] at hload
    cases hload
    have hbytes : region.bytesFrom offset AccessSize.word.bytes = List.replicate 4 0 := by
      rw [Region.locate_eq_ok hlocate]
      exact Region.bytesFrom_eq_replicate (hblank region hfind)
    rw [hbytes, littleEndian_replicate_zero]
    rfl

theorem blank_of_store_zero (hstore : memory.store address 0 .word = .ok after) :
    after.Blank address := by
  obtain ⟨region, updated, -, hupdated, hafter⟩ := find?_store_self hstore
  obtain ⟨offset, hlocate, rfl⟩ := Region.store_zero_eq_ok hupdated
  intro found hfound distance hdistance
  rw [hafter] at hfound
  cases hfound
  rw [Region.base_overwrite, ← Region.locate_eq_ok hlocate, Region.byteAt_overwrite_replicate,
    if_pos ⟨by omega, by omega⟩]

theorem Blank.store_zero (hblank : memory.Blank other)
    (hstore : memory.store address 0 .word = .ok after) : after.Blank other := by
  intro found hfound distance hdistance
  rcases find?_store hstore other with hkept | ⟨region, updated, hregion, hupdated, hafter⟩
  · exact hblank found (hkept.symm.trans hfound) distance hdistance
  · obtain ⟨offset, -, rfl⟩ := Region.store_zero_eq_ok hupdated
    rw [hafter] at hfound
    cases hfound
    rw [Region.base_overwrite, Region.byteAt_overwrite_replicate]
    split
    · rfl
    · exact hblank region hregion distance hdistance

end MemoryMap

end RiscvMachine
