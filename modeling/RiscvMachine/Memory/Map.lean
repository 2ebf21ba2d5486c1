import RiscvMachine.Memory.Region
/-!
The physical address space: a list of regions, searched in the order in which they were added.
-/

namespace RiscvMachine

structure MemoryMap where
  regions : List Region

namespace MemoryMap

def empty : MemoryMap :=
  ⟨[]⟩

def withRegion (base : Word) (size : Nat) : MemoryMap :=
  ⟨[.zeroed base size]⟩

/-- The first address past a region, or the last address of all if the region reaches it. -/
def endOf (base : Word) (size : Nat) : Nat :=
  min (base.toNat + size) (wordCount - 1)

/-- The map with one more region, which must end before each old one starts or start after it. -/
def add (memory : MemoryMap) (region : Region) : Except MemoryError MemoryMap :=
  let collides (other : Region) : Bool :=
    region.base.toNat < endOf other.base other.size &&
      other.base.toNat < endOf region.base region.size
  if memory.regions.any collides then .error (.overlap region.base region.size)
  else .ok ⟨memory.regions ++ [region]⟩

def contains (memory : MemoryMap) (address : Word) : Bool :=
  memory.regions.any fun region => region.contains address

def find? (memory : MemoryMap) (address : Word) : Option Region :=
  memory.regions.find? fun region => region.contains address

/-- `update` applied to the first region that contains `address`. -/
def updateFirst (address : Word) (size : AccessSize) (update : Region → Except MemoryError Region) :
    List Region → Except MemoryError (List Region)
  | [] => .error (.outOfRange address size)
  | region :: rest =>
      if region.contains address then do
        let region ← update region
        return region :: rest
      else do
        let rest ← updateFirst address size update rest
        return region :: rest

def load (memory : MemoryMap) (address : Word) (size : AccessSize) : Except MemoryError Word :=
  match memory.find? address with
  | none => .error (.outOfRange address size)
  | some region => region.load address size

def store (memory : MemoryMap) (address value : Word) (size : AccessSize) :
    Except MemoryError MemoryMap := do
  let regions ← updateFirst address size (fun region => region.store address value size) memory.regions
  return ⟨regions⟩

/-- The bytes at `address`, which lie in one region. -/
def readBytes (memory : MemoryMap) (address : Word) (count : Nat) : Except MemoryError (List Byte) :=
  match memory.find? address with
  | none => .error (.outOfRange address .byte)
  | some region => region.readBytes address count

/-- The map with `bytes` at `address`, all in one region. -/
def writeBytes (memory : MemoryMap) (address : Word) (bytes : List Byte) :
    Except MemoryError MemoryMap := do
  let regions ← updateFirst address .byte (fun region => region.writeBytes address bytes) memory.regions
  return ⟨regions⟩

end MemoryMap

end RiscvMachine
