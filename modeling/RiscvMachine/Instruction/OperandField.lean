import RiscvMachine.Word
/-!
Operand fields: how an operand value is scattered over the bits of an instruction word.
-/

namespace RiscvMachine

/-- The bits `[low, low + length)` of an encoding, placed at `[target, target + length)` of a value. -/
structure Segment where
  low : Nat
  length : Nat
  target : Nat
  deriving DecidableEq, Repr

/-- The lowest `length` bits of an encoding; all of them from length 32 on. -/
def lowMask (length : Nat) : Encoding :=
  (1 <<< length) - 1

namespace Segment

/-- The part of a value that this segment of `raw` contributes. -/
def extract (segment : Segment) (raw : Encoding) : Word :=
  ((raw >>> segment.low) &&& lowMask segment.length).setWidth 64 <<< segment.target

/-- The part of an encoding that carries this segment of `value`. -/
def insert (segment : Segment) (value : Word) : Encoding :=
  ((value >>> segment.target).setWidth 32 &&& lowMask segment.length) <<< segment.low

def occupied (segment : Segment) : Encoding :=
  lowMask segment.length <<< segment.low

end Segment

inductive OperandField where
  /-- Joined segments, optionally sign-extended from the highest bit. -/
  | bits (segments : List Segment) (signed : Bool)
  /-- A three-bit register number that stands for x8 to x15. -/
  | compressedRegister (low : Nat)
  /-- An implied value that no bit encodes. -/
  | constant (value : Word)
  deriving DecidableEq, Repr

namespace OperandField

/-- The number of value bits that joined segments span. -/
def width (segments : List Segment) : Nat :=
  segments.foldl (fun width segment => max width (segment.target + segment.length)) 0

/-- `value` read as a two's-complement number of `width` bits. -/
def signExtendFrom (width : Nat) (value : Word) : Word :=
  if 0 < width ∧ width < 64 then (value <<< (64 - width)).sshiftRight (64 - width) else value

def extract (field : OperandField) (raw : Encoding) : Word :=
  match field with
  | bits segments signed =>
      let value := segments.foldl (fun value segment => value ||| segment.extract raw) 0
      if signed then signExtendFrom (width segments) value else value
  | compressedRegister low => 8 + ((raw >>> low) &&& 7).setWidth 64
  | constant value => value

/-- The encoding bits that hold `value` in this field. -/
def insert (field : OperandField) (value : Word) : Encoding :=
  match field with
  | bits segments _ => segments.foldl (fun raw segment => raw ||| segment.insert value) 0
  | compressedRegister low => ((value - 8).setWidth 32 &&& 7) <<< low
  | constant _ => 0

def occupied (field : OperandField) : Encoding :=
  match field with
  | bits segments _ => segments.foldl (fun raw segment => raw ||| segment.occupied) 0
  | compressedRegister low => 7 <<< low
  | constant _ => 0

end OperandField

end RiscvMachine
