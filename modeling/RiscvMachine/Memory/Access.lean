import RiscvMachine.Text.Hexadecimal
import RiscvMachine.Word
/-!
Sizes of memory accesses, and the ways in which physical memory refuses one.
-/

namespace RiscvMachine

inductive AccessSize where
  | byte
  | half
  | word
  | double
  deriving DecidableEq, Repr

namespace AccessSize

def bytes : AccessSize → Nat
  | byte => 1
  | half => 2
  | word => 4
  | double => 8

def bits (size : AccessSize) : Nat :=
  8 * size.bytes

def name : AccessSize → String
  | byte => "Byte"
  | half => "Half"
  | word => "Word"
  | double => "Double"

/-- The lowest bits of `value` that an access of this size transfers, sign-extended. -/
def signExtend : AccessSize → Word → Word
  | byte, value => (value.setWidth 8).signExtend 64
  | half, value => (value.setWidth 16).signExtend 64
  | word, value => signExtendLow value
  | double, value => value

end AccessSize

inductive MemoryError where
  /-- The address is no multiple of the access size. -/
  | unaligned (address : Word) (size : AccessSize)
  /-- No region holds all bytes of the access. -/
  | outOfRange (address : Word) (size : AccessSize)
  | overlap (base : Word) (size : Nat)
  deriving DecidableEq

def MemoryError.message : MemoryError → String
  | unaligned address size => "unaligned " ++ size.name ++ " access at " ++ hexPadded 16 address.toNat
  | outOfRange address size =>
      "out-of-range " ++ size.name ++ " access at " ++ hexPadded 16 address.toNat
  | overlap base size =>
      "region " ++ hexPadded 16 base.toNat ++ "+" ++ hex size ++ " overlaps an existing region"

end RiscvMachine
