import Mathlib.Data.List.Pairwise
import RiscvMachine.Proofs.Regions
import RiscvMachine.Proofs.Stores
/-!
Memory as a store of bytes. Where every region ends at the last address or below it, an address lies
in one region at most, and a memory is known by the byte at each address: accesses of all sizes read
and write these bytes, and each byte is the one that was written there last.
-/

namespace RiscvMachine

/-! ### Ranges of addresses -/

theorem toNat_add_ofNat {address : Word} {distance : Nat}
    (hrange : address.toNat + distance < wordCount) :
    (address + BitVec.ofNat 64 distance).toNat = address.toNat + distance := by
  rw [BitVec.toNat_add, BitVec.toNat_ofNat]
  simp only [wordCount] at hrange
  omega

/-- A range that ends in the address space is all that lies at a smaller distance from its start. -/
theorem toNat_sub_lt_iff {start address : Word} {count : Nat}
    (hrange : start.toNat + count ≤ wordCount) :
    (address - start).toNat < count ↔
      start.toNat ≤ address.toNat ∧ address.toNat < start.toNat + count := by
  have hstart := start.isLt
  have haddress := address.isLt
  rw [BitVec.toNat_sub]
  simp only [wordCount] at hrange
  omega

namespace AccessSize

theorem bytes_pos (size : AccessSize) : 0 < size.bytes := by
  cases size <;> decide

/-- An aligned access does not run past the last address. -/
theorem range_le {size : AccessSize} {address : Word} (haligned : address.toNat % size.bytes = 0) :
    address.toNat + size.bytes ≤ wordCount := by
  have haddress := address.isLt
  cases size <;> simp only [bytes, wordCount] at haligned ⊢ <;> omega

end AccessSize

namespace Region

variable {region : Region} {address : Word} {size : AccessSize} {bytes : List Byte}

def byte (region : Region) (address : Word) : Byte :=
  region.byteAt (address.toNat - region.base.toNat)

/-- The bytes at an address all lie in the region. -/
def Holds (region : Region) (address : Word) (count : Nat) : Prop :=
  ∀ distance < count, region.contains (address + BitVec.ofNat 64 distance) = true

/-- The region ends at the last address of all or below it. -/
def BelowLast (region : Region) : Prop :=
  region.base.toNat + region.size ≤ lastAddress.toNat

theorem BelowLast.lt_wordCount (hbelow : region.BelowLast) :
    region.base.toNat + region.size < wordCount :=
  Nat.lt_of_le_of_lt hbelow lastAddress.isLt

theorem BelowLast.ne_lastAddress (hbelow : region.BelowLast)
    (hcontains : region.contains address = true) : address ≠ lastAddress := by
  rintro rfl
  exact absurd (contains_iff.mp hcontains).2 (Nat.not_lt_of_le hbelow)

theorem Meets.symm {other : Region} (hmeets : region.Meets other) : other.Meets region := by
  obtain ⟨address, hregion, hother⟩ := hmeets
  exact ⟨address, hother, hregion⟩

theorem holds_iff {count : Nat} (hcount : 0 < count) (hrange : address.toNat + count ≤ wordCount) :
    region.Holds address count ↔ region.base.toNat ≤ address.toNat ∧
      address.toNat + count ≤ region.base.toNat + region.size := by
  have hplace : ∀ distance < count,
      (address + BitVec.ofNat 64 distance).toNat = address.toNat + distance :=
    fun distance hdistance => toNat_add_ofNat (by omega)
  constructor
  · intro hholds
    have hfirst := contains_iff.mp (hholds 0 hcount)
    have hlast := contains_iff.mp (hholds (count - 1) (by omega))
    rw [hplace 0 hcount] at hfirst
    rw [hplace (count - 1) (by omega)] at hlast
    omega
  · intro hinside distance hdistance
    rw [contains_iff, hplace distance hdistance]
    omega

theorem locate_eq_ok_iff {offset : Nat} :
    region.locate address size = .ok offset ↔
      address.toNat % size.bytes = 0 ∧ region.Holds address size.bytes ∧
        offset = address.toNat - region.base.toNat := by
  rw [locate]
  by_cases haligned : address.toNat % size.bytes = 0
  · rw [if_neg (not_not.mpr haligned), holds_iff size.bytes_pos (AccessSize.range_le haligned)]
    simp only [offset?, BitVec.le_def]
    split
    · rename_i hnone
      split at hnone
      · cases hnone
      · simp only [reduceCtorEq, false_iff]
        omega
    · rename_i found hfound
      split at hfound
      · cases hfound
        simp only [Except.ok.injEq]
        omega
      · cases hfound
  · rw [if_pos haligned]
    simp [haligned]

/-- Bytes that are written to a region are found at their addresses, and no other byte changes. -/
theorem byte_overwrite {other : Word} (hrange : address.toNat + bytes.length ≤ wordCount)
    (haddress : region.contains address = true) (hother : region.contains other = true) :
    (region.overwrite (address.toNat - region.base.toNat) bytes).byte other =
      (bytes[(other - address).toNat]?).getD (region.byte other) := by
  rw [contains_iff] at haddress hother
  rw [byte, base_overwrite, byteAt_overwrite, byte]
  by_cases hle : address.toNat ≤ other.toNat
  · have hdistance : other.toNat - region.base.toNat - (address.toNat - region.base.toNat) =
        (other - address).toNat := by
      rw [BitVec.toNat_sub_of_le (BitVec.le_def.mpr hle)]
      omega
    rw [if_pos (Nat.sub_le_sub_right hle _), hdistance, List.getD_eq_getElem?_getD]
  · -- the distance from a later address wraps around, past every byte of the range
    have hpast : bytes[(other - address).toNat]? = none := by
      rw [List.getElem?_eq_none_iff, ← Nat.not_lt, toNat_sub_lt_iff hrange]
      exact fun hinside => hle hinside.1
    rw [if_neg (by omega), hpast, Option.getD_none]

theorem locateBytes_eq_ok {count offset : Nat} (hcontains : region.contains address = true)
    (hlocate : region.locateBytes address count = .ok offset) :
    address.toNat + count ≤ region.base.toNat + region.size ∧
      (count = 0 ∨ offset = address.toNat - region.base.toNat) := by
  rw [contains_iff] at hcontains
  rw [locateBytes] at hlocate
  split at hlocate
  · rename_i hempty
    exact ⟨by omega, .inl hempty⟩
  · simp only [offset?, BitVec.le_def] at hlocate
    split at hlocate
    · cases hlocate
    · rename_i found hfound
      split at hfound
      · cases hfound
        cases hlocate
        exact ⟨by omega, .inr rfl⟩
      · cases hfound

theorem readBytes_eq_ok {count : Nat} (hcontains : region.contains address = true)
    (hread : region.readBytes address count = .ok bytes) :
    address.toNat + count ≤ region.base.toNat + region.size ∧
      bytes = region.bytesFrom (address.toNat - region.base.toNat) count := by
  obtain ⟨offset, hlocate, hbytes⟩ := exists_ok_of_bind hread
  cases hbytes
  obtain ⟨hfits, rfl | rfl⟩ := locateBytes_eq_ok hcontains hlocate
  · exact ⟨hfits, rfl⟩
  · exact ⟨hfits, rfl⟩

theorem writeBytes_eq_ok {updated : Region} (hcontains : region.contains address = true)
    (hwrite : region.writeBytes address bytes = .ok updated) :
    address.toNat + bytes.length ≤ region.base.toNat + region.size ∧
      updated = region.overwrite (address.toNat - region.base.toNat) bytes := by
  obtain ⟨offset, hlocate, hupdated⟩ := exists_ok_of_bind hwrite
  cases hupdated
  obtain ⟨hfits, hempty | rfl⟩ := locateBytes_eq_ok hcontains hlocate
  · rw [List.eq_nil_of_length_eq_zero hempty] at hfits ⊢
    exact ⟨hfits, rfl⟩
  · exact ⟨hfits, rfl⟩

/-- No byte of a write that fits a region is for an address outside of it. -/
theorem contains_of_getElem? {other : Word} {byte : Byte}
    (hrange : address.toNat + bytes.length ≤ wordCount) (haddress : region.contains address = true)
    (hfits : address.toNat + bytes.length ≤ region.base.toNat + region.size)
    (hbyte : bytes[(other - address).toNat]? = some byte) :
    region.contains other = true ∧ other.toNat < address.toNat + bytes.length := by
  have hdistance := (List.getElem?_eq_some_iff.mp hbyte).1
  rw [toNat_sub_lt_iff hrange] at hdistance
  rw [contains_iff] at haddress ⊢
  omega

end Region

namespace MemoryMap

variable {memory after : MemoryMap} {region : Region} {address other value : Word}
  {size : AccessSize} {bytes : List Byte}

/-! ### The byte at an address -/

/-- What a load of a single byte gives. -/
def byte? (memory : MemoryMap) (address : Word) : Option Byte :=
  (memory.load address .byte).toOption.map fun value => value.setWidth 8

def BelowLast (memory : MemoryMap) : Prop :=
  ∀ region ∈ memory.regions, region.BelowLast

instance : Decidable memory.BelowLast :=
  inferInstanceAs (Decidable (∀ region ∈ memory.regions, _ ≤ _))

/-- No two regions have an address in common. -/
def Disjoint (memory : MemoryMap) : Prop :=
  memory.regions.Pairwise fun region other => ¬region.Meets other

theorem Separate.disjoint (hseparate : memory.Separate) (hbelow : memory.BelowLast) :
    memory.Disjoint := by
  refine List.Pairwise.imp_of_mem ?_ hseparate
  rintro region other hregion - hapart ⟨address, hboth⟩
  exact hapart address ((hbelow region hregion).ne_lastAddress hboth.1) hboth

theorem contains_of_find? (hfind : memory.find? address = some region) :
    region.contains address = true := by
  simpa using List.find?_some hfind

theorem load_byte (memory : MemoryMap) (address : Word) :
    memory.load address .byte = match memory.find? address with
      | none => .error (.outOfRange address .byte)
      | some region => .ok ((region.byte address).setWidth 64) := by
  rw [load]
  cases hfind : memory.find? address with
  | none => rfl
  | some region =>
      have hcontains := contains_of_find? hfind
      have hlocate : region.locate address .byte = .ok (address.toNat - region.base.toNat) := by
        refine Region.locate_eq_ok_iff.mpr ⟨Nat.mod_one _, ?_, rfl⟩
        intro distance hdistance
        obtain rfl : distance = 0 := Nat.lt_one_iff.mp hdistance
        simpa using hcontains
      have hbytes : littleEndian (region.bytesFrom (address.toNat - region.base.toNat) 1) =
          (region.byte address).toNat := rfl
      have hload : region.load address .byte =
          .ok (BitVec.ofNat 64 (region.byte address).toNat) := by
        rw [Region.load, hlocate, ← hbytes]
        rfl
      rw [BitVec.ofNat_toNat] at hload
      exact hload

theorem byte?_eq_map (memory : MemoryMap) (address : Word) :
    memory.byte? address = (memory.find? address).map fun region => region.byte address := by
  rw [byte?, load_byte]
  cases memory.find? address with
  | none => rfl
  | some region =>
      exact congrArg some (BitVec.setWidth_setWidth_of_le (region.byte address) (by decide))

theorem load_byte_eq_match (memory : MemoryMap) (address : Word) :
    memory.load address .byte = match memory.byte? address with
      | none => .error (.outOfRange address .byte)
      | some byte => .ok (byte.setWidth 64) := by
  rw [load_byte, byte?_eq_map]
  cases memory.find? address <;> rfl

theorem Disjoint.find?_eq_some_iff (hdisjoint : memory.Disjoint) :
    memory.find? address = some region ↔
      region ∈ memory.regions ∧ region.contains address = true := by
  constructor
  · intro hfind
    exact ⟨List.mem_of_find?_eq_some hfind, contains_of_find? hfind⟩
  · rintro ⟨hmem, hcontains⟩
    have hsome : (memory.find? address).isSome = true :=
      List.find?_isSome.mpr ⟨region, hmem, by simpa using hcontains⟩
    obtain ⟨found, hfind⟩ := Option.isSome_iff_exists.mp hsome
    by_cases hsame : found = region
    · rwa [hsame] at hfind
    · have hsymm : Std.Symm fun region other : Region => ¬region.Meets other :=
        ⟨fun _ _ hapart hmeets => hapart hmeets.symm⟩
      have hapart := hdisjoint.forall (List.mem_of_find?_eq_some hfind) hmem hsame
      exact absurd ⟨address, contains_of_find? hfind, hcontains⟩ hapart

/-! ### What an access needs, and what is read -/

/-- The address is aligned, and all bytes from there on lie in one region. -/
def Covers (memory : MemoryMap) (address : Word) (size : AccessSize) : Prop :=
  address.toNat % size.bytes = 0 ∧ ∃ region ∈ memory.regions, region.Holds address size.bytes

theorem Disjoint.readable_iff_covers (hdisjoint : memory.Disjoint) :
    memory.Readable address size ↔ memory.Covers address size := by
  rw [readable_iff, Covers]
  simp only [hdisjoint.find?_eq_some_iff, Region.locate_eq_ok_iff]
  constructor
  · rintro ⟨region, offset, ⟨hmem, -⟩, haligned, hholds, -⟩
    exact ⟨haligned, region, hmem, hholds⟩
  · rintro ⟨haligned, region, hmem, hholds⟩
    have hfirst := hholds 0 size.bytes_pos
    rw [BitVec.add_zero] at hfirst
    exact ⟨region, _, ⟨hmem, hfirst⟩, haligned, hholds, rfl⟩

theorem Readable.aligned (hreadable : memory.Readable address size) :
    address.toNat % size.bytes = 0 := by
  obtain ⟨region, offset, -, hlocate⟩ := readable_iff.mp hreadable
  exact (Region.locate_eq_ok_iff.mp hlocate).1

theorem exists_store_iff_readable :
    (∃ after, memory.store address value size = .ok after) ↔ memory.Readable address size := by
  constructor
  · rintro ⟨after, hstore⟩
    obtain ⟨region, updated, hfind, hupdated, -⟩ := find?_store_self hstore
    obtain ⟨offset, hlocate, -⟩ := Region.store_eq_ok hupdated
    exact readable_iff.mpr ⟨region, offset, hfind, hlocate⟩
  · exact fun hreadable => hreadable.exists_store value

def Spells (contents : Word → Option Byte) (address : Word) (bytes : List Byte) : Prop :=
  ∀ distance < bytes.length, contents (address + BitVec.ofNat 64 distance) = bytes[distance]?

theorem Disjoint.spells_bytesFrom (hdisjoint : memory.Disjoint) {count : Nat}
    (hmem : region ∈ memory.regions) (hholds : region.Holds address count)
    (hrange : address.toNat + count ≤ wordCount) (hbase : region.base.toNat ≤ address.toNat) :
    Spells memory.byte? address (region.bytesFrom (address.toNat - region.base.toNat) count) := by
  intro distance hdistance
  rw [Region.length_bytesFrom] at hdistance
  rw [byte?_eq_map, hdisjoint.find?_eq_some_iff.mpr ⟨hmem, hholds distance hdistance⟩,
    Region.getElem?_bytesFrom hdistance, Option.map_some, Region.byte,
    toNat_add_ofNat (Nat.lt_of_lt_of_le (Nat.add_lt_add_left hdistance _) hrange)]
  congr 2
  omega

theorem Disjoint.exists_spells_of_load (hdisjoint : memory.Disjoint)
    (hload : memory.load address size = .ok value) :
    ∃ bytes : List Byte, bytes.length = size.bytes ∧ Spells memory.byte? address bytes ∧
      value = BitVec.ofNat 64 (littleEndian bytes) := by
  obtain ⟨region, offset, hfind, hlocate⟩ := readable_iff.mp ⟨value, hload⟩
  rw [load, hfind] at hload
  simp only [Region.load, hlocate] at hload
  cases hload
  obtain ⟨haligned, hholds, rfl⟩ := Region.locate_eq_ok_iff.mp hlocate
  obtain ⟨hmem, hcontains⟩ := hdisjoint.find?_eq_some_iff.mp hfind
  exact ⟨_, Region.length_bytesFrom _ _ _, hdisjoint.spells_bytesFrom hmem hholds
    (AccessSize.range_le haligned) (Region.contains_iff.mp hcontains).1, rfl⟩

theorem Disjoint.spells_of_readBytes (hdisjoint : memory.Disjoint) (hbelow : memory.BelowLast)
    {count : Nat} (hread : memory.readBytes address count = .ok bytes) :
    bytes.length = count ∧ Spells memory.byte? address bytes := by
  rw [readBytes] at hread
  cases hfind : memory.find? address with
  | none =>
      rw [hfind] at hread
      cases hread
  | some region =>
      rw [hfind] at hread
      obtain ⟨hmem, hcontains⟩ := hdisjoint.find?_eq_some_iff.mp hfind
      obtain ⟨hfits, rfl⟩ := Region.readBytes_eq_ok hcontains hread
      refine ⟨Region.length_bytesFrom _ _ _, ?_⟩
      have hrange : address.toNat + count ≤ wordCount :=
        Nat.le_trans hfits (Nat.le_of_lt (hbelow region hmem).lt_wordCount)
      have hbase := (Region.contains_iff.mp hcontains).1
      rcases Nat.eq_zero_or_pos count with rfl | hcount
      · exact fun distance hdistance => absurd hdistance (Nat.not_lt_zero _)
      · exact hdisjoint.spells_bytesFrom hmem
          ((Region.holds_iff hcount hrange).mpr ⟨hbase, hfits⟩) hrange hbase

/-! ### What a write changes -/

/-- One region has taken bytes from an address on, all of them inside of it. -/
inductive Overwrites (address : Word) (bytes : List Byte) : MemoryMap → MemoryMap → Prop
  | intro {earlier later : List Region} {region : Region}
      (hcontains : region.contains address = true)
      (hfits : address.toNat + bytes.length ≤ region.base.toNat + region.size) :
      Overwrites address bytes ⟨earlier ++ region :: later⟩
        ⟨earlier ++ region.overwrite (address.toNat - region.base.toNat) bytes :: later⟩

theorem overwrites_of_updateFirst {update : Region → Except MemoryError Region}
    {regions : List Region}
    (hupdate : updateFirst address size update memory.regions = .ok regions)
    (hregion : ∀ region updated, region.contains address = true → update region = .ok updated →
      address.toNat + bytes.length ≤ region.base.toNat + region.size ∧
        updated = region.overwrite (address.toNat - region.base.toNat) bytes) :
    Overwrites address bytes memory ⟨regions⟩ := by
  obtain ⟨earlier, region, updated, later, hregions, -, hcontains, hupdated, rfl⟩ :=
    updateFirst_eq_ok hupdate
  obtain ⟨hfits, rfl⟩ := hregion region updated hcontains hupdated
  obtain rfl : memory = ⟨earlier ++ region :: later⟩ := by rw [← hregions]
  exact .intro hcontains hfits

theorem overwrites_of_store (hstore : memory.store address value size = .ok after) :
    Overwrites address (bytesOf size.bytes value.toNat) memory after := by
  obtain ⟨regions, hregions, hafter⟩ := exists_ok_of_bind hstore
  cases hafter
  refine overwrites_of_updateFirst hregions fun region updated _ hupdated => ?_
  obtain ⟨offset, hlocate, rfl⟩ := Region.store_eq_ok hupdated
  obtain ⟨haligned, hholds, rfl⟩ := Region.locate_eq_ok_iff.mp hlocate
  rw [length_bytesOf]
  rw [Region.holds_iff size.bytes_pos (AccessSize.range_le haligned)] at hholds
  exact ⟨hholds.2, rfl⟩

theorem overwrites_of_writeBytes (hwrite : memory.writeBytes address bytes = .ok after) :
    Overwrites address bytes memory after := by
  obtain ⟨regions, hregions, hafter⟩ := exists_ok_of_bind hwrite
  cases hafter
  exact overwrites_of_updateFirst hregions fun region updated => Region.writeBytes_eq_ok

theorem Overwrites.belowLast (hover : Overwrites address bytes memory after) :
    after.BelowLast ↔ memory.BelowLast := by
  obtain ⟨-, -⟩ := hover
  simp only [BelowLast, Region.BelowLast, List.forall_mem_append, List.forall_mem_cons,
    Region.base_overwrite, Region.size_overwrite]

theorem Overwrites.separate (hover : Overwrites address bytes memory after) :
    after.Separate ↔ memory.Separate := by
  obtain ⟨-, -⟩ := hover
  simp [Separate, List.pairwise_append, List.pairwise_cons, Region.contains_overwrite]

/-- The bytes that are written are at their addresses afterwards, and the others as they were, if no
second region holds an address that is written to. -/
theorem Overwrites.byte?_of_apart (hover : Overwrites address bytes memory after)
    (hrange : address.toNat + bytes.length ≤ wordCount)
    (hapart : memory.regions.Pairwise fun region found => ∀ place : Word,
      place.toNat < address.toNat + bytes.length →
        ¬(region.contains place = true ∧ found.contains place = true)) (other : Word) :
    after.byte? other = (bytes[(other - address).toNat]?).or (memory.byte? other) := by
  obtain @⟨earlier, later, region, hcontains, hfits⟩ := hover
  have hwritten (byte : Byte) (hbyte : bytes[(other - address).toNat]? = some byte) :=
    Region.contains_of_getElem? hrange hcontains hfits hbyte
  rw [byte?_eq_map, byte?_eq_map, find?, find?, List.find?_append, List.find?_append]
  cases hearlier : earlier.find? fun region => region.contains other with
  | some found =>
      have hnone : bytes[(other - address).toNat]? = none := by
        refine Option.eq_none_iff_forall_ne_some.mpr fun byte hbyte => ?_
        obtain ⟨hregion, hlt⟩ := hwritten byte hbyte
        have hfound : found.contains other = true := by simpa using List.find?_some hearlier
        exact (List.pairwise_append.mp hapart).2.2 found (List.mem_of_find?_eq_some hearlier) region
          List.mem_cons_self other hlt ⟨hfound, hregion⟩
      rw [hnone, Option.none_or, Option.some_or]
      rfl
  | none =>
      rw [Option.none_or, Option.none_or]
      cases hother : region.contains other with
      | true =>
          simp only [List.find?_cons, Region.contains_overwrite, hother, Option.map_some]
          rw [Region.byte_overwrite hrange hcontains hother]
          cases bytes[(other - address).toNat]? <;> rfl
      | false =>
          have hnone : bytes[(other - address).toNat]? = none := by
            refine Option.eq_none_iff_forall_ne_some.mpr fun byte hbyte => ?_
            rw [(hwritten byte hbyte).1] at hother
            cases hother
          simp only [hnone, Option.none_or, List.find?_cons, Region.contains_overwrite, hother]

/-- A write that does not reach the last address of all needs no more than separate regions. -/
theorem Overwrites.byte?_of_lt (hover : Overwrites address bytes memory after)
    (hseparate : memory.Separate) (hrange : address.toNat + bytes.length < wordCount)
    (other : Word) :
    after.byte? other = (bytes[(other - address).toNat]?).or (memory.byte? other) := by
  refine hover.byte?_of_apart (Nat.le_of_lt hrange) (hseparate.imp ?_) other
  intro region found hapart place hplace
  exact hapart place (Region.ne_lastAddress_of_toNat_lt (by omega))

theorem Overwrites.byte?_of_disjoint (hover : Overwrites address bytes memory after)
    (hdisjoint : memory.Disjoint) (hrange : address.toNat + bytes.length ≤ wordCount)
    (other : Word) :
    after.byte? other = (bytes[(other - address).toNat]?).or (memory.byte? other) := by
  refine hover.byte?_of_apart hrange (hdisjoint.imp ?_) other
  intro region found hapart place _ hboth
  exact hapart ⟨place, hboth⟩

theorem Overwrites.byte? (hover : Overwrites address bytes memory after)
    (hseparate : memory.Separate) (hbelow : memory.BelowLast) (other : Word) :
    after.byte? other = (bytes[(other - address).toNat]?).or (memory.byte? other) := by
  refine hover.byte?_of_lt hseparate ?_ other
  obtain @⟨earlier, later, region, hcontains, hfits⟩ := hover
  exact Nat.lt_of_le_of_lt hfits (hbelow region (by simp)).lt_wordCount

theorem add_eq_ok (hadd : memory.add region = .ok after) :
    after = ⟨memory.regions ++ [region]⟩ := by
  rcases add_cases memory region with ⟨-, hrefused⟩ | ⟨-, hadded⟩
  · rw [hrefused] at hadd
    cases hadd
  · rw [hadded] at hadd
    cases hadd
    rfl

theorem Separate.add (hseparate : memory.Separate) (hadd : memory.add region = .ok after) :
    after.Separate := by
  have hattach : memory.attach region = after := by rw [MemoryMap.attach, hadd]
  rw [← hattach]
  exact hseparate.attach region

theorem byte?_add (hadd : memory.add region = .ok after) (other : Word) :
    after.byte? other = (memory.byte? other).or
      (if region.contains other then some (region.byte other) else none) := by
  rw [add_eq_ok hadd, byte?_eq_map, byte?_eq_map, find?, find?, List.find?_append]
  cases memory.regions.find? fun region => region.contains other with
  | some found => rfl
  | none =>
      cases hcontains : region.contains other <;> simp [hcontains]

theorem byte?_eq_none_of_add (hadd : memory.add region = .ok after) (hdisjoint : after.Disjoint)
    (hcontains : region.contains other = true) : memory.byte? other = none := by
  rw [add_eq_ok hadd] at hdisjoint
  obtain ⟨-, -, hapart⟩ := List.pairwise_append.mp hdisjoint
  have hnone : memory.find? other = none := by
    refine List.find?_eq_none.mpr fun found hmem hfound => ?_
    exact hapart found hmem region (List.mem_singleton_self region) ⟨other, hfound, hcontains⟩
  rw [byte?_eq_map, hnone, Option.map_none]

/-- A memory whose accesses are all told by single bytes. -/
structure IsByteStore (memory : MemoryMap) : Prop where
  load_byte : ∀ address, memory.load address .byte = match memory.byte? address with
    | none => .error (.outOfRange address .byte)
    | some byte => .ok (byte.setWidth 64)
  load_iff : ∀ address size,
    (∃ value, memory.load address size = .ok value) ↔ memory.Covers address size
  store_iff : ∀ address value size,
    (∃ after, memory.store address value size = .ok after) ↔ memory.Covers address size
  load : ∀ address size value, memory.load address size = .ok value →
    ∃ bytes : List Byte, bytes.length = size.bytes ∧ Spells memory.byte? address bytes ∧
      value = BitVec.ofNat 64 (littleEndian bytes)
  readBytes : ∀ address count bytes, memory.readBytes address count = .ok bytes →
    bytes.length = count ∧ Spells memory.byte? address bytes
  store : ∀ address value size after, memory.store address value size = .ok after →
    ∀ other, after.byte? other =
      ((bytesOf size.bytes value.toNat)[(other - address).toNat]?).or (memory.byte? other)
  writeBytes : ∀ address bytes after, memory.writeBytes address bytes = .ok after →
    ∀ other, after.byte? other = (bytes[(other - address).toNat]?).or (memory.byte? other)
  add : ∀ region after, memory.add region = .ok after →
    ∀ address byte, memory.byte? address = some byte → after.byte? address = some byte

theorem Separate.isByteStore (hseparate : memory.Separate) (hbelow : memory.BelowLast) :
    memory.IsByteStore where
  load_byte := memory.load_byte_eq_match
  load_iff := fun _ _ => (hseparate.disjoint hbelow).readable_iff_covers
  store_iff := fun _ _ _ =>
    exists_store_iff_readable.trans (hseparate.disjoint hbelow).readable_iff_covers
  load := fun _ _ _ hload => (hseparate.disjoint hbelow).exists_spells_of_load hload
  readBytes := fun _ _ _ hread => (hseparate.disjoint hbelow).spells_of_readBytes hbelow hread
  store := fun _ _ _ _ hstore => (overwrites_of_store hstore).byte? hseparate hbelow
  writeBytes := fun _ _ _ hwrite => (overwrites_of_writeBytes hwrite).byte? hseparate hbelow
  add := fun _ _ hadd address _ hbyte => by rw [byte?_add hadd, hbyte, Option.some_or]

/-! ### Sequences of changes -/

inductive Change where
  | store (address value : Word) (size : AccessSize)
  | write (address : Word) (bytes : List Byte)
  | add (region : Region)

namespace Change

def perform : Change → MemoryMap → Except MemoryError MemoryMap
  | store address value size, memory => memory.store address value size
  | write address bytes, memory => memory.writeBytes address bytes
  | add region, memory => memory.add region

/-- The byte that a change, where it succeeds, puts at an address. -/
def byte? : Change → Word → Option Byte
  | store address value size, other => (bytesOf size.bytes value.toNat)[(other - address).toNat]?
  | write address bytes, other => bytes[(other - address).toNat]?
  | add region, other => if region.contains other then some (region.byte other) else none

theorem cases_of_perform {change : Change} (hperform : change.perform memory = .ok after) :
    (∃ address bytes, Overwrites address bytes memory after ∧
      ∀ other, change.byte? other = bytes[(other - address).toNat]?) ∨
    ∃ region, change = .add region ∧ memory.add region = .ok after := by
  cases change with
  | store address value size =>
      exact .inl ⟨address, _, overwrites_of_store hperform, fun _ => rfl⟩
  | write address bytes =>
      exact .inl ⟨address, bytes, overwrites_of_writeBytes hperform, fun _ => rfl⟩
  | add region => exact .inr ⟨region, rfl, hperform⟩

end Change

/-- The byte that the first of some changes to put one at an address puts there. -/
def latest (changes : List Change) (address : Word) : Option Byte :=
  changes.findSome? fun change => change.byte? address

/-- The memory after a change, and as it was if the change fails. -/
def apply (memory : MemoryMap) (change : Change) : MemoryMap :=
  match change.perform memory with
  | .ok after => after
  | .error _ => memory

def applyAll (memory : MemoryMap) (changes : List Change) : MemoryMap :=
  changes.foldl apply memory

/-- The successful changes so far, the last one first. -/
def record (memory : MemoryMap) (earlier : List Change) (change : Change) : List Change :=
  match change.perform memory with
  | .ok _ => change :: earlier
  | .error _ => earlier

/-- The successful ones of some changes, the last one first, and those of before. -/
def history (memory : MemoryMap) (earlier : List Change) : List Change → List Change
  | [] => earlier
  | change :: rest => (memory.apply change).history (memory.record earlier change) rest

/-- The memory holds at each address what was last put there. -/
structure Records (memory : MemoryMap) (earlier : List Change) : Prop where
  separate : memory.Separate
  byte?_eq : memory.byte? = latest earlier

variable {earlier changes : List Change} {change : Change}

theorem belowLast_of_apply (hbelow : (memory.apply change).BelowLast) : memory.BelowLast := by
  rw [apply] at hbelow
  split at hbelow
  · rename_i after hperform
    rcases Change.cases_of_perform hperform with ⟨address, bytes, hover, -⟩ | ⟨region, rfl, hadd⟩
    · exact hover.belowLast.mp hbelow
    · rw [add_eq_ok hadd] at hbelow
      exact fun region hmem => hbelow region (List.mem_append_left _ hmem)
  · exact hbelow

theorem belowLast_of_applyAll (hbelow : (memory.applyAll changes).BelowLast) :
    memory.BelowLast := by
  induction changes generalizing memory with
  | nil => exact hbelow
  | cons change rest ih => exact belowLast_of_apply (ih hbelow)

/-- A change that succeeds is the last one for all the bytes that it puts down. -/
theorem Records.apply (hrecords : memory.Records earlier)
    (hbelow : (memory.apply change).BelowLast) :
    (memory.apply change).Records (memory.record earlier change) := by
  have hbefore := belowLast_of_apply hbelow
  rw [MemoryMap.apply] at hbelow
  rw [MemoryMap.apply, record]
  cases hperform : change.perform memory with
  | error error => exact hrecords
  | ok after =>
      simp only [hperform] at hbelow
      have hlatest : ∀ other,
          latest (change :: earlier) other = (change.byte? other).or (memory.byte? other) := by
        intro other
        rw [hrecords.byte?_eq, latest, latest, List.findSome?_cons]
        cases change.byte? other <;> rfl
      rcases Change.cases_of_perform hperform with
        ⟨address, bytes, hover, hbytes⟩ | ⟨region, rfl, hadd⟩
      · refine ⟨hover.separate.mpr hrecords.separate, funext fun other => ?_⟩
        rw [hover.byte? hrecords.separate hbefore, hlatest, hbytes]
      · have hseparate := hrecords.separate.add hadd
        refine ⟨hseparate, funext fun other => ?_⟩
        -- the region is searched last, and yet it is the latest change: no byte comes from both
        rw [byte?_add hadd, hlatest, Change.byte?]
        split
        · rename_i hcontains
          have hnone := byte?_eq_none_of_add hadd (hseparate.disjoint hbelow) hcontains
          rw [hnone, Option.none_or, Option.or_none]
        · rw [Option.or_none, Option.none_or]

theorem Records.applyAll (hrecords : memory.Records earlier)
    (hbelow : (memory.applyAll changes).BelowLast) :
    (memory.applyAll changes).Records (memory.history earlier changes) := by
  induction changes generalizing memory earlier with
  | nil => exact hrecords
  | cons change rest ih => exact ih (hrecords.apply (belowLast_of_applyAll hbelow)) hbelow

theorem records_withRegion (base : Word) (size : Nat) :
    (withRegion base size).Records [.add (.zeroed base size)] where
  separate := List.pairwise_singleton _ _
  byte?_eq := by
    funext address
    rw [byte?_eq_map, find?, withRegion, latest]
    cases hcontains : (Region.zeroed base size).contains address <;>
      simp [Change.byte?, hcontains]

/-- A memory that came about by changes to one region of zeros is a store of bytes, as long as all
regions end at the last address or below it: loads and stores of every size are told by single
bytes, changes that fail change no byte, and every byte is the one that was last put there. -/
theorem bytes_last_written (base : Word) (size : Nat) (changes : List Change)
    (hbelow : ((withRegion base size).applyAll changes).BelowLast) :
    let memory := (withRegion base size).applyAll changes
    memory.IsByteStore ∧
      (∀ change error, change.perform memory = .error error →
        (memory.apply change).byte? = memory.byte?) ∧
      memory.byte? = latest ((withRegion base size).history [.add (.zeroed base size)] changes) := by
  intro memory
  have hrecords := (records_withRegion base size).applyAll hbelow
  refine ⟨hrecords.separate.isByteStore hbelow, ?_, hrecords.byte?_eq⟩
  intro change error hfailed
  rw [apply, hfailed]

/-- Writes of different sizes over each other, at the border of two regions, and across it; the
third and the last two changes fail. -/
theorem bytes_last_written_overlapping :
    let changes : List Change := [.store 0x1008 0x1122334455667788 .double,
      .add (.zeroed 0x1011 7), .add (.zeroed 0x100F 4), .store 0x100A 0xAABB .half,
      .store 0x1011 0x77 .byte, .write 0x1010 [1, 2], .store 0x1012 0 .double]
    let memory := (withRegion 0x1001 0x10).applyAll changes
    memory.BelowLast ∧ memory.IsByteStore ∧
      memory.byte? = latest [.store 0x1011 0x77 .byte, .store 0x100A 0xAABB .half,
        .add (.zeroed 0x1011 7), .store 0x1008 0x1122334455667788 .double,
        .add (.zeroed 0x1001 0x10)] ∧
      (memory.load 0x1008 .double).toOption = some 0x11223344AABB7788 ∧
      (memory.load 0x1010 .half).toOption = none ∧ memory.byte? 0x1011 = some 0x77 := by
  intro changes memory
  have hbelow : memory.BelowLast := by decide +kernel
  obtain ⟨hstore, -, hlatest⟩ := bytes_last_written 0x1001 0x10 changes hbelow
  exact ⟨hbelow, hstore, hlatest, by decide +kernel, by decide +kernel, by decide +kernel⟩

end MemoryMap

end RiscvMachine
