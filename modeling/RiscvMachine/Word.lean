/-!
The words of the machine and the little-endian view of bytes.
-/

namespace RiscvMachine

abbrev Byte := BitVec 8

/-- A register value, an address or an operand. -/
abbrev Word := BitVec 64

/-- An instruction word; a 16-bit encoding sits in the low half. -/
abbrev Encoding := BitVec 32

/-- The number of different words, which is also the number of addresses. -/
def wordCount : Nat := 0x10000000000000000

def signExtendLow (value : Word) : Word :=
  (value.setWidth 32).signExtend 64

def zeroExtendLow (value : Word) : Word :=
  (value.setWidth 32).setWidth 64

/-- The number that a byte sequence spells, least significant byte first. -/
def littleEndian : List Byte → Nat
  | [] => 0
  | byte :: rest => byte.toNat + 256 * littleEndian rest

/-- The lowest `count` bytes of a number, least significant byte first. -/
def bytesOf : (count : Nat) → (value : Nat) → List Byte
  | 0, _ => []
  | count + 1, value => BitVec.ofNat 8 value :: bytesOf count (value / 256)

@[simp]
theorem length_bytesOf (count value : Nat) : (bytesOf count value).length = count := by
  induction count generalizing value with
  | zero => rfl
  | succ count ih => simp [bytesOf, ih]

end RiscvMachine
