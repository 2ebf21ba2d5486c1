import RiscvMachine.Instruction.OperandField
/-!
Operand lists. A declaration has at most five operands, and a list has room for two more: the
encoded length and the program counter, which some instructions take after their own operands.
-/

namespace RiscvMachine

namespace Operands

def maxArity : Nat := 5

/-- The most values that an operand list holds. -/
def capacity : Nat := maxArity + 2

end Operands

structure Operands where
  values : List Word
  length_le : values.length ≤ Operands.capacity
  deriving DecidableEq

namespace Operands

def empty : Operands :=
  ⟨[], Nat.zero_le _⟩

/-- The operands that `raw` holds in `fields`, in their order. -/
def ofFields (fields : List OperandField) (raw : Encoding) : Operands where
  values := (fields.take maxArity).map fun field => field.extract raw
  length_le := by
    simp only [List.length_map, List.length_take, capacity]
    omega

/-- `value` after the others; a full list stays as it is. -/
def push (operands : Operands) (value : Word) : Operands :=
  if room : operands.values.length < capacity then
    ⟨operands.values ++ [value], by simpa using Nat.succ_le_of_lt room⟩
  else operands

def length (operands : Operands) : Nat :=
  operands.values.length

def isEmpty (operands : Operands) : Bool :=
  operands.values.isEmpty

/-- The operand at `index`, zero past the end. -/
def get (operands : Operands) (index : Nat) : Word :=
  operands.values.getD index 0

def register (operands : Operands) (index : Nat) : Nat :=
  (operands.get index).toNat % 32

theorem get_push (operands : Operands) (value : Word) (room : operands.length < capacity)
    (index : Nat) :
    (operands.push value).get index = if index = operands.length then value else operands.get index := by
  unfold length at room ⊢
  rw [push, dif_pos room]
  rcases Nat.lt_trichotomy index operands.values.length with hlt | heq | hgt
  · simp [get, List.getD_eq_getElem?_getD, List.getElem?_append_left hlt, Nat.ne_of_lt hlt]
  · simp [get, heq]
  · have hnew : (operands.values ++ [value])[index]? = none :=
      List.getElem?_eq_none (by simp only [List.length_append, List.length_singleton]; omega)
    have hold : operands.values[index]? = none := List.getElem?_eq_none (Nat.le_of_lt hgt)
    rw [if_neg (Nat.ne_of_gt hgt)]
    simp only [get, List.getD_eq_getElem?_getD, hnew, hold]

/-- The operands in signed decimal, separated by a comma and a blank. -/
def text (operands : Operands) : String :=
  ", ".intercalate (operands.values.map fun value => toString value.toInt)

def summary (operands : Operands) : String :=
  "[" ++ operands.text ++ "]"

end Operands

end RiscvMachine
