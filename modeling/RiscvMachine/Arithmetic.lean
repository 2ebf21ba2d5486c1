import RiscvMachine.Xlen
/-!
The computations of register instructions. Registers hold words normalized for the register width,
so comparisons work on whole words, and results are normalized when they are written back.
-/

namespace RiscvMachine

inductive Arithmetic where
  | add
  | subtract
  | shiftLeft
  | setLess
  | setLessUnsigned
  | exclusiveOr
  | shiftRight
  | shiftRightSigned
  | or
  | and
  | multiply
  | multiplyHigh
  | multiplyHighMixed
  | multiplyHighUnsigned
  | divide
  | divideUnsigned
  | remainder
  | remainderUnsigned
  deriving DecidableEq, Repr

def truthWord (condition : Bool) : Word :=
  if condition then 1 else 0

/-- The quotient toward zero; all ones for a zero divisor. -/
def signedQuotient {width : Nat} (left right : BitVec width) : BitVec width :=
  if right = 0 then BitVec.allOnes width else left.sdiv right

/-- The remainder with the sign of the dividend; the dividend for a zero divisor. -/
def signedRemainder {width : Nat} (left right : BitVec width) : BitVec width :=
  if right = 0 then left else left.srem right

/-- The quotient of the unsigned readings; all ones for a zero divisor. -/
def unsignedQuotient {width : Nat} (left right : BitVec width) : BitVec width :=
  if right = 0 then BitVec.allOnes width else left.udiv right

/-- The remainder of the unsigned readings; the dividend for a zero divisor. -/
def unsignedRemainder {width : Nat} (left right : BitVec width) : BitVec width :=
  if right = 0 then left else left.umod right

/-- The bits of a double-width product above the register width. -/
def highPart (xlen : Xlen) (product : BitVec 128) : Word :=
  (product >>> xlen.bits).setWidth 64

namespace Arithmetic

def evaluate (operation : Arithmetic) (xlen : Xlen) (left right : Word) : Word :=
  match operation with
  | add => left + right
  | subtract => left - right
  | shiftLeft => left <<< xlen.shiftAmount right
  | setLess => truthWord (left.slt right)
  | setLessUnsigned => truthWord (left.ult right)
  | exclusiveOr => left ^^^ right
  | shiftRight => xlen.address left >>> xlen.shiftAmount right
  | shiftRightSigned => left.sshiftRight (xlen.shiftAmount right)
  | or => left ||| right
  | and => left &&& right
  | multiply => left * right
  | multiplyHigh => highPart xlen (left.signExtend 128 * right.signExtend 128)
  | multiplyHighMixed =>
      highPart xlen (left.signExtend 128 * (xlen.address right).setWidth 128)
  | multiplyHighUnsigned =>
      highPart xlen ((xlen.address left).setWidth 128 * (xlen.address right).setWidth 128)
  | divide => signedQuotient left right
  | divideUnsigned => unsignedQuotient (xlen.address left) (xlen.address right)
  | remainder => signedRemainder left right
  | remainderUnsigned => unsignedRemainder (xlen.address left) (xlen.address right)

/-- The right operand that an immediate stands for; an unsigned comparison sees it as a register
would hold it. -/
def immediateOperand (operation : Arithmetic) (xlen : Xlen) (immediate : Word) : Word :=
  match operation with
  | setLessUnsigned => xlen.normalize immediate
  | _ => immediate

end Arithmetic

/-- Computations on the low 32 bits of registers, with a sign-extended result. -/
inductive LowArithmetic where
  | add
  | subtract
  | shiftLeft
  | shiftRight
  | shiftRightSigned
  | multiply
  | divide
  | divideUnsigned
  | remainder
  | remainderUnsigned
  deriving DecidableEq, Repr

namespace LowArithmetic

/-- The 32-bit result; shift amounts have five bits. -/
def evaluateLow (operation : LowArithmetic) (left right : BitVec 32) : BitVec 32 :=
  match operation with
  | add => left + right
  | subtract => left - right
  | shiftLeft => left <<< (right.toNat % 32)
  | shiftRight => left >>> (right.toNat % 32)
  | shiftRightSigned => left.sshiftRight (right.toNat % 32)
  | multiply => left * right
  | divide => signedQuotient left right
  | divideUnsigned => unsignedQuotient left right
  | remainder => signedRemainder left right
  | remainderUnsigned => unsignedRemainder left right

def evaluate (operation : LowArithmetic) (left right : Word) : Word :=
  (operation.evaluateLow (left.setWidth 32) (right.setWidth 32)).signExtend 64

end LowArithmetic

inductive Condition where
  | equal
  | notEqual
  | less
  | greaterOrEqual
  | lessUnsigned
  | greaterOrEqualUnsigned
  deriving DecidableEq, Repr

def Condition.holds : Condition → Word → Word → Bool
  | equal, left, right => left == right
  | notEqual, left, right => left != right
  | less, left, right => left.slt right
  | greaterOrEqual, left, right => !left.slt right
  | lessUnsigned, left, right => left.ult right
  | greaterOrEqualUnsigned, left, right => !left.ult right

end RiscvMachine
