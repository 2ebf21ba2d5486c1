import RiscvMachine.Word
/-!
Register widths and encoded instruction lengths. A 32-bit hart keeps its registers as
sign-extended words and its addresses as zero-extended ones.
-/

namespace RiscvMachine

inductive Xlen where
  | x32
  | x64
  deriving DecidableEq, Repr

namespace Xlen

def bits : Xlen → Nat
  | x32 => 32
  | x64 => 64

/-- The width code that the `misa` register reports. -/
def code : Xlen → Word
  | x32 => 1
  | x64 => 2

/-- The form in which a register holds `value`. -/
def normalize : Xlen → Word → Word
  | x32, value => signExtendLow value
  | x64, value => value

/-- The address that `value` denotes. -/
def address : Xlen → Word → Word
  | x32, value => zeroExtendLow value
  | x64, value => value

/-- The bits of a register that count as a shift amount. -/
def shiftMask (xlen : Xlen) : Nat :=
  xlen.bits - 1

def shiftAmount (xlen : Xlen) (value : Word) : Nat :=
  value.toNat % xlen.bits

def name : Xlen → String
  | x32 => "RV32"
  | x64 => "RV64"

end Xlen

inductive EncodedLength where
  | compressed
  | full
  deriving DecidableEq, Repr

namespace EncodedLength

/-- Low opcode bits `11` mark a 32-bit instruction, all others a 16-bit one. -/
def of (raw : Encoding) : EncodedLength :=
  if raw &&& 3 = 3 then full else compressed

def bytes : EncodedLength → Nat
  | compressed => 2
  | full => 4

end EncodedLength

end RiscvMachine
