import RiscvMachine.Arithmetic
import RiscvMachine.Memory.Access
/-!
What an instruction does, apart from its encoding. Operands are taken by position, in the order
that the comment on each operation gives.
-/

namespace RiscvMachine

/-- Where a control register instruction takes its second operand from. -/
inductive CsrSource where
  | register
  | immediate
  deriving DecidableEq, Repr

inductive Operation where
  /-- Destination, value. -/
  | loadUpper
  /-- Destination, offset, program counter. -/
  | addUpperToPc
  /-- Destination, offset, length, program counter. -/
  | jump
  /-- Destination, base, offset, length, program counter. -/
  | jumpRegister
  /-- Left, right, offset, program counter. -/
  | branch (condition : Condition)
  /-- Destination, base, offset. -/
  | load (size : AccessSize) (signed : Bool)
  /-- Base, source, offset. -/
  | store (size : AccessSize)
  /-- Destination, left, value. -/
  | immediate (arithmetic : Arithmetic)
  /-- Destination, left, right. -/
  | register (arithmetic : Arithmetic)
  /-- Destination, left, value. -/
  | immediateLow (arithmetic : LowArithmetic)
  /-- Destination, left, right. -/
  | registerLow (arithmetic : LowArithmetic)
  | environmentCall
  /-- Program counter. -/
  | environmentBreak
  /-- Destination, source, register address. -/
  | csrSwap (source : CsrSource)
  /-- Destination, source, register address. -/
  | csrSet (source : CsrSource)
  /-- Destination, source, register address. -/
  | csrClear (source : CsrSource)
  | machineReturn
  | supervisorReturn
  | waitForInterrupt
  | translationFence
  deriving DecidableEq, Repr

/-- Where execution goes after an operation. -/
inductive Flow where
  | next
  /-- A branch or jump has set the program counter. -/
  | taken
  /-- Into the trap of an environment call. -/
  | call
  deriving DecidableEq, Repr

end RiscvMachine
