import RiscvMachine.Memory.Access
import Std.Data.TreeMap
/-!
A region of memory: consecutive bytes from a base address, zero where nothing was written.
-/

namespace RiscvMachine

structure Region where
  base : Word
  size : Nat
  /-- The written bytes, by their distance from the base. -/
  written : Std.TreeMap Nat Byte

namespace Region

def zeroed (base : Word) (size : Nat) : Region :=
  ⟨base, size, ∅⟩

def contains (region : Region) (address : Word) : Bool :=
  region.base ≤ address && address.toNat - region.base.toNat < region.size

def byteAt (region : Region) (offset : Nat) : Byte :=
  region.written.getD offset 0

/-- The `count` bytes from a distance on. -/
def bytesFrom (region : Region) (offset : Nat) : (count : Nat) → List Byte
  | 0 => []
  | count + 1 => region.byteAt offset :: region.bytesFrom (offset + 1) count

/-- The region with `bytes` written from a distance on. -/
def overwrite (region : Region) (offset : Nat) : List Byte → Region
  | [] => region
  | byte :: rest =>
      { region with written := region.written.insert offset byte }.overwrite (offset + 1) rest

@[simp]
theorem length_bytesFrom (region : Region) (offset count : Nat) :
    (region.bytesFrom offset count).length = count := by
  induction count generalizing offset with
  | zero => rfl
  | succ count ih => simp [bytesFrom, ih]

@[simp]
theorem base_overwrite (region : Region) (offset : Nat) (bytes : List Byte) :
    (region.overwrite offset bytes).base = region.base := by
  induction bytes generalizing region offset with
  | nil => rfl
  | cons byte rest ih => rw [overwrite, ih]

@[simp]
theorem size_overwrite (region : Region) (offset : Nat) (bytes : List Byte) :
    (region.overwrite offset bytes).size = region.size := by
  induction bytes generalizing region offset with
  | nil => rfl
  | cons byte rest ih => rw [overwrite, ih]

/-- Inside the written range a region holds the new bytes, and outside of it the old ones. -/
theorem byteAt_overwrite (region : Region) (offset other : Nat) (bytes : List Byte) :
    (region.overwrite offset bytes).byteAt other =
      if offset ≤ other then bytes.getD (other - offset) (region.byteAt other)
      else region.byteAt other := by
  induction bytes generalizing region offset with
  | nil => simp [overwrite]
  | cons byte rest ih =>
      rw [overwrite, ih]
      rcases Nat.lt_trichotomy offset other with hlt | heq | hgt
      · obtain ⟨distance, rfl⟩ := Nat.exists_eq_add_of_lt hlt
        have hstep : offset + distance + 1 - offset = distance + 1 := by omega
        have hrest : offset + distance + 1 - (offset + 1) = distance := by omega
        have hne : offset ≠ offset + distance + 1 := by omega
        simp [byteAt, Std.TreeMap.getD_insert, hstep, hrest, hne,
          show offset ≤ offset + distance + 1 by omega]
      · subst heq
        simp [byteAt, show ¬offset + 1 ≤ offset by omega]
      · have hne : offset ≠ other := by omega
        simp [byteAt, Std.TreeMap.getD_insert, hne, show ¬offset ≤ other by omega,
          show ¬offset + 1 ≤ other by omega]

/-- The distance of `address` from the base, if `count` bytes from there on lie in the region. -/
def offset? (region : Region) (address : Word) (count : Nat) : Option Nat :=
  let offset := address.toNat - region.base.toNat
  if region.base ≤ address ∧ offset + count ≤ region.size then some offset else none

/-- The distance of an aligned access from the base. -/
def locate (region : Region) (address : Word) (size : AccessSize) : Except MemoryError Nat :=
  if address.toNat % size.bytes ≠ 0 then .error (.unaligned address size)
  else
    match region.offset? address size.bytes with
    | none => .error (.outOfRange address size)
    | some offset => .ok offset

def load (region : Region) (address : Word) (size : AccessSize) : Except MemoryError Word := do
  let offset ← region.locate address size
  return BitVec.ofNat 64 (littleEndian (region.bytesFrom offset size.bytes))

/-- The region with the lowest bytes of `value` at `address`. -/
def store (region : Region) (address value : Word) (size : AccessSize) :
    Except MemoryError Region := do
  let offset ← region.locate address size
  return region.overwrite offset (bytesOf size.bytes value.toNat)

/-- The distance of a byte sequence from the base; an empty one may lie anywhere. -/
def locateBytes (region : Region) (address : Word) (count : Nat) : Except MemoryError Nat :=
  if count = 0 then .ok 0
  else
    match region.offset? address count with
    | none => .error (.outOfRange address .byte)
    | some offset => .ok offset

def readBytes (region : Region) (address : Word) (count : Nat) : Except MemoryError (List Byte) := do
  let offset ← region.locateBytes address count
  return region.bytesFrom offset count

def writeBytes (region : Region) (address : Word) (bytes : List Byte) :
    Except MemoryError Region := do
  let offset ← region.locateBytes address bytes.length
  return region.overwrite offset bytes

/-- The region with `count` copies of a byte at `address`. -/
def fill (region : Region) (address : Word) (count : Nat) (byte : Byte) :
    Except MemoryError Region := do
  let offset ← region.locateBytes address count
  return region.overwrite offset (List.replicate count byte)

end Region

end RiscvMachine
