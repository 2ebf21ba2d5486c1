import RiscvMachine.Proofs.Expansion
import RiscvMachine.Proofs.Width
/-!
A reference machine with true 32-bit registers, and the agreement of its arithmetic with that of
64-bit registers that hold sign-extended values.
-/

namespace RiscvMachine

namespace Rv32

abbrev Value := BitVec 32

abbrev RegisterNumber := BitVec 5

/-! ### Arithmetic -/

inductive Operation where
  | add
  | subtract
  | shiftLeft
  | setLess
  | setLessUnsigned
  | exclusiveOr
  | shiftRight
  | shiftRightSigned
  | or
  | and
  deriving DecidableEq

/-- The result modulo `2 ^ 32`; five bits of the right operand are a shift amount. -/
def Operation.evaluate (operation : Operation) (left right : Value) : Value :=
  match operation with
  | add => left + right
  | subtract => left - right
  | shiftLeft => left <<< (right.toNat % 32)
  | setLess => if left.toInt < right.toInt then 1 else 0
  | setLessUnsigned => if left.toNat < right.toNat then 1 else 0
  | exclusiveOr => left ^^^ right
  | shiftRight => left >>> (right.toNat % 32)
  | shiftRightSigned => left.sshiftRight (right.toNat % 32)
  | or => left ||| right
  | and => left &&& right

def holds (condition : Condition) (left right : Value) : Bool :=
  match condition with
  | .equal => left = right
  | .notEqual => left ≠ right
  | .less => left.toInt < right.toInt
  | .greaterOrEqual => right.toInt ≤ left.toInt
  | .lessUnsigned => left.toNat < right.toNat
  | .greaterOrEqualUnsigned => right.toNat ≤ left.toNat

/-! ### Instructions -/

inductive Instruction where
  | loadUpper (destination : RegisterNumber) (immediate : BitVec 20)
  | addUpperToPc (destination : RegisterNumber) (immediate : BitVec 20)
  | immediate (operation : Operation) (destination left : RegisterNumber) (value : Value)
  | register (operation : Operation) (destination left right : RegisterNumber)
  | branch (condition : Condition) (left right : RegisterNumber) (offset : BitVec 13)

structure State where
  registers : RegisterNumber → Value
  pc : Value

namespace State

/-- Register 0 ignores writes. -/
def write (state : State) (destination : RegisterNumber) (value : Value) : State :=
  { state with
    registers := fun index =>
      if index = destination ∧ destination ≠ 0 then value else state.registers index }

/-- The state after an instruction that is `length` bytes long. -/
def execute (state : State) (length : Value) : Instruction → State
  | .loadUpper destination immediate =>
      { state.write destination (immediate ++ 0#12) with pc := state.pc + length }
  | .addUpperToPc destination immediate =>
      { state.write destination (state.pc + (immediate ++ 0#12)) with pc := state.pc + length }
  | .immediate operation destination left value =>
      { state.write destination (operation.evaluate (state.registers left) value) with
        pc := state.pc + length }
  | .register operation destination left right =>
      { state.write destination
          (operation.evaluate (state.registers left) (state.registers right)) with
        pc := state.pc + length }
  | .branch condition left right offset =>
      if holds condition (state.registers left) (state.registers right) then
        { state with pc := state.pc + offset.signExtend 32 }
      else { state with pc := state.pc + length }

end State

/-! ### Encodings -/

def destination (raw : Encoding) : RegisterNumber := raw.extractLsb' 7 5
def left (raw : Encoding) : RegisterNumber := raw.extractLsb' 15 5
def right (raw : Encoding) : RegisterNumber := raw.extractLsb' 20 5

def upperImmediate (raw : Encoding) : BitVec 20 := raw.extractLsb' 12 20
def immediate (raw : Encoding) : BitVec 12 := raw.extractLsb' 20 12
def shiftAmount (raw : Encoding) : BitVec 5 := raw.extractLsb' 20 5

def branchOffset (raw : Encoding) : BitVec 13 :=
  raw.extractLsb' 31 1 ++ raw.extractLsb' 7 1 ++ raw.extractLsb' 25 6 ++ raw.extractLsb' 8 4 ++ 0#1

/-- What the instructions of a mnemonic do, apart from their operands. -/
inductive Kind where
  | loadUpper
  | addUpperToPc
  | immediate (operation : Operation)
  | shift (operation : Operation)
  | register (operation : Operation)
  | branch (condition : Condition)
  deriving DecidableEq

def Kind.named : List (String × Kind) := [
  ("LUI", loadUpper),
  ("AUIPC", addUpperToPc),
  ("ADDI", immediate .add),
  ("SLTI", immediate .setLess),
  ("SLTIU", immediate .setLessUnsigned),
  ("XORI", immediate .exclusiveOr),
  ("ORI", immediate .or),
  ("ANDI", immediate .and),
  ("SLLI", shift .shiftLeft),
  ("SRLI", shift .shiftRight),
  ("SRAI", shift .shiftRightSigned),
  ("ADD", register .add),
  ("SUB", register .subtract),
  ("SLL", register .shiftLeft),
  ("SLT", register .setLess),
  ("SLTU", register .setLessUnsigned),
  ("XOR", register .exclusiveOr),
  ("SRL", register .shiftRight),
  ("SRA", register .shiftRightSigned),
  ("OR", register .or),
  ("AND", register .and),
  ("BEQ", branch .equal),
  ("BNE", branch .notEqual),
  ("BLT", branch .less),
  ("BGE", branch .greaterOrEqual),
  ("BLTU", branch .lessUnsigned),
  ("BGEU", branch .greaterOrEqualUnsigned)]

/-- The instruction of a kind that a 32-bit encoding holds. -/
def Kind.decode (kind : Kind) (raw : Encoding) : Instruction :=
  match kind with
  | loadUpper => .loadUpper (destination raw) (upperImmediate raw)
  | addUpperToPc => .addUpperToPc (destination raw) (upperImmediate raw)
  | immediate operation =>
      .immediate operation (destination raw) (left raw) ((Rv32.immediate raw).signExtend 32)
  | shift operation =>
      .immediate operation (destination raw) (left raw) ((shiftAmount raw).setWidth 32)
  | register operation => .register operation (destination raw) (left raw) (right raw)
  | branch condition => .branch condition (left raw) (right raw) (branchOffset raw)

/-- The instruction of an encoding with a known mnemonic; a 16-bit one is that of its expansion. -/
def decode? (mnemonic : String) (raw : Encoding) : Option Instruction :=
  match EncodedLength.of raw with
  | .full => (Kind.named.lookup mnemonic).map fun kind => kind.decode raw
  | .compressed => do
      let rule ← Expansion.find? .x32 raw
      let kind ← Kind.named.lookup rule.long
      return kind.decode (rule.expand raw)

/-! ### Sign-extended operands -/

def Operation.arithmetic : Operation → Arithmetic
  | add => .add
  | subtract => .subtract
  | shiftLeft => .shiftLeft
  | setLess => .setLess
  | setLessUnsigned => .setLessUnsigned
  | exclusiveOr => .exclusiveOr
  | shiftRight => .shiftRight
  | shiftRightSigned => .shiftRightSigned
  | or => .or
  | and => .and

theorem signExtend_inj {left right : Value} :
    left.signExtend 64 = right.signExtend 64 ↔ left = right := by
  constructor
  · intro hequal
    rw [← setWidth_signExtend left, hequal, setWidth_signExtend]
  · rintro rfl
    rfl

/-- Sign extension keeps the order of unsigned readings, though not their distances. -/
theorem toNat_signExtend_lt_iff {left right : Value} :
    (left.signExtend 64).toNat < (right.signExtend 64).toNat ↔ left.toNat < right.toNat := by
  have hleft := left.isLt
  have hright := right.isLt
  rw [BitVec.toNat_signExtend, BitVec.toNat_signExtend, BitVec.toNat_setWidth_of_le (by decide),
    BitVec.toNat_setWidth_of_le (by decide), BitVec.msb_eq_decide, BitVec.msb_eq_decide]
  simp only [decide_eq_true_eq]
  split <;> split <;> omega

theorem toInt_signExtend_lt_iff {left right : Value} :
    (left.signExtend 64).toInt < (right.signExtend 64).toInt ↔ left.toInt < right.toInt := by
  rw [BitVec.toInt_signExtend_of_le (by decide), BitVec.toInt_signExtend_of_le (by decide)]

theorem shiftAmount_signExtend (value : Value) :
    Xlen.x32.shiftAmount (value.signExtend 64) = value.toNat % 32 := by
  have hlow : (value.signExtend 64).toNat % 2 ^ 32 = value.toNat := by
    rw [← BitVec.toNat_setWidth, setWidth_signExtend]
  change (value.signExtend 64).toNat % 32 = value.toNat % 32
  rw [← hlow, Nat.mod_mod_of_dvd _ (by decide)]

theorem setWidth_subtract (left right : Word) :
    (left - right).setWidth 32 = left.setWidth 32 - right.setWidth 32 := by
  rw [BitVec.sub_eq_add_neg, BitVec.setWidth_add _ _ (by decide),
    BitVec.setWidth_neg_of_le (by decide), ← BitVec.sub_eq_add_neg]

theorem setWidth_truthWord (condition : Bool) :
    (truthWord condition).setWidth 32 = if condition then 1 else 0 := by
  cases condition <;> rfl

theorem setWidth_shiftRight (value : Value) (amount : Nat) :
    (value.setWidth 64 >>> amount).setWidth 32 = value >>> amount := by
  apply BitVec.eq_of_getLsbD_eq
  intro bit hbit
  rw [BitVec.getLsbD_setWidth, BitVec.getLsbD_ushiftRight, BitVec.getLsbD_ushiftRight,
    BitVec.getLsbD_setWidth]
  by_cases hinside : amount + bit < 64
  · simp [hbit, hinside]
  · simp [hbit, hinside, BitVec.getLsbD_of_ge value (amount + bit) (by omega)]

/-- Below the width, a shift brings in copies of the sign from either register. -/
theorem setWidth_shiftRightSigned (value : Value) {amount : Nat} (hamount : amount < 32) :
    ((value.signExtend 64).sshiftRight amount).setWidth 32 = value.sshiftRight amount := by
  apply BitVec.eq_of_getLsbD_eq
  intro bit hbit
  have hword : ¬64 ≤ bit := by omega
  have hinside : amount + bit < 64 := by omega
  have hvalue : ¬32 ≤ bit := by omega
  rw [BitVec.getLsbD_setWidth, BitVec.getLsbD_sshiftRight, BitVec.getLsbD_sshiftRight,
    BitVec.getLsbD_signExtend]
  simp [hbit, hword, hinside, hvalue]

/-- The low half of every result is the result of 32-bit registers. -/
theorem setWidth_evaluate (operation : Operation) (left right : Value) :
    (operation.arithmetic.evaluate .x32 (left.signExtend 64) (right.signExtend 64)).setWidth 32 =
      operation.evaluate left right := by
  have hless : right.toNat % 32 < 32 := Nat.mod_lt _ (by decide)
  cases operation with
  | add =>
      change (left.signExtend 64 + right.signExtend 64).setWidth 32 = left + right
      rw [BitVec.setWidth_add _ _ (by decide), setWidth_signExtend, setWidth_signExtend]
  | subtract =>
      change (left.signExtend 64 - right.signExtend 64).setWidth 32 = left - right
      rw [setWidth_subtract, setWidth_signExtend, setWidth_signExtend]
  | shiftLeft =>
      change (left.signExtend 64 <<< Xlen.x32.shiftAmount (right.signExtend 64)).setWidth 32 = _
      rw [shiftAmount_signExtend, BitVec.setWidth_shiftLeft_of_le (by decide), setWidth_signExtend]
      rfl
  | setLess =>
      change (truthWord ((left.signExtend 64).slt (right.signExtend 64))).setWidth 32 = _
      rw [setWidth_truthWord, BitVec.slt_eq_decide]
      simp only [decide_eq_true_eq, toInt_signExtend_lt_iff]
      rfl
  | setLessUnsigned =>
      change (truthWord ((left.signExtend 64).ult (right.signExtend 64))).setWidth 32 = _
      rw [setWidth_truthWord, BitVec.ult_eq_decide]
      simp only [decide_eq_true_eq, toNat_signExtend_lt_iff]
      rfl
  | exclusiveOr =>
      change (left.signExtend 64 ^^^ right.signExtend 64).setWidth 32 = left ^^^ right
      rw [BitVec.setWidth_xor, setWidth_signExtend, setWidth_signExtend]
  | shiftRight =>
      change (zeroExtendLow (left.signExtend 64) >>>
        Xlen.x32.shiftAmount (right.signExtend 64)).setWidth 32 = _
      rw [shiftAmount_signExtend, zeroExtendLow, setWidth_signExtend, setWidth_shiftRight]
      rfl
  | shiftRightSigned =>
      change ((left.signExtend 64).sshiftRight
        (Xlen.x32.shiftAmount (right.signExtend 64))).setWidth 32 = _
      rw [shiftAmount_signExtend, setWidth_shiftRightSigned left hless]
      rfl
  | or =>
      change (left.signExtend 64 ||| right.signExtend 64).setWidth 32 = left ||| right
      rw [BitVec.setWidth_or, setWidth_signExtend, setWidth_signExtend]
  | and =>
      change (left.signExtend 64 &&& right.signExtend 64).setWidth 32 = left &&& right
      rw [BitVec.setWidth_and, setWidth_signExtend, setWidth_signExtend]

/-- The branch decision of sign-extended registers is that of 32-bit ones. -/
theorem holds_signExtend (condition : Condition) (left right : Value) :
    condition.holds (left.signExtend 64) (right.signExtend 64) = holds condition left right := by
  rw [Bool.eq_iff_iff]
  cases condition with
  | equal => simp [Condition.holds, holds, signExtend_inj]
  | notEqual => simp [Condition.holds, holds, bne_iff_ne, signExtend_inj]
  | less => simp [Condition.holds, holds, BitVec.slt_eq_decide, toInt_signExtend_lt_iff]
  | greaterOrEqual =>
      simp only [Condition.holds, holds, BitVec.slt_eq_decide, toInt_signExtend_lt_iff,
        Bool.not_eq_true', decide_eq_false_iff_not, decide_eq_true_eq, Int.not_lt]
  | lessUnsigned => simp [Condition.holds, holds, BitVec.ult_eq_decide, toNat_signExtend_lt_iff]
  | greaterOrEqualUnsigned =>
      simp only [Condition.holds, holds, BitVec.ult_eq_decide, toNat_signExtend_lt_iff,
        Bool.not_eq_true', decide_eq_false_iff_not, decide_eq_true_eq, Nat.not_lt]

end Rv32

end RiscvMachine
