import RiscvMachine.Proofs.Multiplication
import RiscvMachine.Proofs.Rv32Simulation
/-!
Instructions on the low halves of 64-bit registers, against the instructions of a 32-bit hart. The
former compute with 32 bits and extend the result; the latter compute with 64 bits on sign-extended
registers, and their results are normalized when they are written.
-/

namespace RiscvMachine

open OperandField

/-! ### Computations -/

namespace LowArithmetic

/-- The computation of a 32-bit hart on registers of its own width. -/
def full : LowArithmetic → Arithmetic
  | add => .add
  | subtract => .subtract
  | shiftLeft => .shiftLeft
  | shiftRight => .shiftRight
  | shiftRightSigned => .shiftRightSigned
  | multiply => .multiply
  | divide => .divide
  | divideUnsigned => .divideUnsigned
  | remainder => .remainder
  | remainderUnsigned => .remainderUnsigned

variable (left right : BitVec 32)

theorem normalize_signExtend : Xlen.x32.normalize (left.signExtend 64) = left.signExtend 64 :=
  congrArg (BitVec.signExtend 64) (setWidth_signExtend left)

theorem address_signExtend : Xlen.x32.address (left.signExtend 64) = left.setWidth 64 :=
  congrArg (BitVec.setWidth 64) (setWidth_signExtend left)

theorem signExtend_eq_zero_iff : left.signExtend 64 = 0 ↔ left = 0 := by
  rw [← Rv32.signExtend_inj]
  exact Iff.rfl

theorem setWidth_eq_zero_iff : left.setWidth 64 = 0 ↔ left = 0 := by
  constructor
  · intro hzero
    rw [← setWidth_zeroExtend left, hzero]
    rfl
  · rintro rfl
    rfl

/-- The quotient of sign-extended numbers has one bit more than 32, in the one case of overflow, and
loses it to the same wrapped quotient. -/
theorem setWidth_signedQuotient :
    (signedQuotient (left.signExtend 64) (right.signExtend 64)).setWidth 32 =
      signedQuotient left right := by
  rw [signedQuotient, signedQuotient]
  by_cases hzero : right = 0
  · rw [if_pos hzero, if_pos ((signExtend_eq_zero_iff right).mpr hzero)]
    decide
  · rw [if_neg hzero, if_neg (mt (signExtend_eq_zero_iff right).mp hzero)]
    apply BitVec.eq_of_toInt_eq
    have hquotient := Arithmetic.signed_sdiv (normalize_signExtend left) (normalize_signExtend right)
    rw [Xlen.bits, setWidth_signExtend, setWidth_signExtend] at hquotient
    exact hquotient

theorem setWidth_signedRemainder :
    (signedRemainder (left.signExtend 64) (right.signExtend 64)).setWidth 32 =
      signedRemainder left right := by
  rw [signedRemainder, signedRemainder]
  by_cases hzero : right = 0
  · rw [if_pos hzero, if_pos ((signExtend_eq_zero_iff right).mpr hzero), setWidth_signExtend]
  · rw [if_neg hzero, if_neg (mt (signExtend_eq_zero_iff right).mp hzero)]
    apply BitVec.eq_of_toInt_eq
    have hremainder :=
      Arithmetic.signed_srem (normalize_signExtend left) (normalize_signExtend right)
    rw [Xlen.signed, Xlen.signed, Xlen.signed, Xlen.bits, setWidth_signExtend, setWidth_signExtend,
      ← BitVec.toInt_srem] at hremainder
    exact hremainder

theorem setWidth_unsignedQuotient :
    (unsignedQuotient (left.setWidth 64) (right.setWidth 64)).setWidth 32 =
      unsignedQuotient left right := by
  rw [unsignedQuotient, unsignedQuotient]
  by_cases hzero : right = 0
  · rw [if_pos hzero, if_pos ((setWidth_eq_zero_iff right).mpr hzero)]
    decide
  · rw [if_neg hzero, if_neg (mt (setWidth_eq_zero_iff right).mp hzero)]
    apply BitVec.eq_of_toNat_eq
    have hless := Nat.lt_of_le_of_lt (Nat.div_le_self left.toNat right.toNat) left.isLt
    simp only [BitVec.udiv_eq, BitVec.toNat_setWidth, BitVec.toNat_udiv]
    rw [Nat.mod_eq_of_lt (Nat.lt_trans left.isLt (by decide)),
      Nat.mod_eq_of_lt (Nat.lt_trans right.isLt (by decide)), Nat.mod_eq_of_lt hless]

theorem setWidth_unsignedRemainder :
    (unsignedRemainder (left.setWidth 64) (right.setWidth 64)).setWidth 32 =
      unsignedRemainder left right := by
  rw [unsignedRemainder, unsignedRemainder]
  by_cases hzero : right = 0
  · rw [if_pos hzero, if_pos ((setWidth_eq_zero_iff right).mpr hzero), setWidth_zeroExtend]
  · rw [if_neg hzero, if_neg (mt (setWidth_eq_zero_iff right).mp hzero)]
    apply BitVec.eq_of_toNat_eq
    have hless := Nat.lt_of_le_of_lt (Nat.mod_le left.toNat right.toNat) left.isLt
    simp only [BitVec.umod_eq, BitVec.toNat_setWidth, BitVec.toNat_umod]
    rw [Nat.mod_eq_of_lt (Nat.lt_trans left.isLt (by decide)),
      Nat.mod_eq_of_lt (Nat.lt_trans right.isLt (by decide)), Nat.mod_eq_of_lt hless]

/-- The low half of what a 32-bit hart computes is the result for low halves. -/
theorem setWidth_evaluate_full (operation : LowArithmetic) :
    (operation.full.evaluate .x32 (left.signExtend 64) (right.signExtend 64)).setWidth 32 =
      operation.evaluateLow left right := by
  cases operation with
  | add => exact Rv32.setWidth_evaluate .add left right
  | subtract => exact Rv32.setWidth_evaluate .subtract left right
  | shiftLeft => exact Rv32.setWidth_evaluate .shiftLeft left right
  | shiftRight => exact Rv32.setWidth_evaluate .shiftRight left right
  | shiftRightSigned => exact Rv32.setWidth_evaluate .shiftRightSigned left right
  | multiply =>
      change (left.signExtend 64 * right.signExtend 64).setWidth 32 = left * right
      rw [BitVec.setWidth_mul _ _ (by decide), setWidth_signExtend, setWidth_signExtend]
  | divide => exact setWidth_signedQuotient left right
  | divideUnsigned =>
      rw [full, Arithmetic.evaluate, address_signExtend, address_signExtend]
      exact setWidth_unsignedQuotient left right
  | remainder => exact setWidth_signedRemainder left right
  | remainderUnsigned =>
      rw [full, Arithmetic.evaluate, address_signExtend, address_signExtend]
      exact setWidth_unsignedRemainder left right

/-- What a register of a 32-bit hart holds of the result for sign-extended low halves. -/
theorem normalize_evaluate_full (operation : LowArithmetic) (left right : Word) :
    Xlen.x32.normalize (operation.full.evaluate .x32 (signExtendLow left) (signExtendLow right)) =
      operation.evaluate left right :=
  congrArg (BitVec.signExtend 64)
    (setWidth_evaluate_full (left.setWidth 32) (right.setWidth 32) operation)

/-- No computation that has a counterpart sees an immediate in another form. -/
theorem immediateOperand_full (operation : LowArithmetic) (xlen : Xlen) (immediate : Word) :
    operation.full.immediateOperand xlen immediate = immediate := by
  cases operation <;> rfl

end LowArithmetic

/-! ### Instructions -/

/-- Where an instruction takes its right operand from. -/
inductive RightOperand where
  | register (field : OperandField)
  | immediate (field : OperandField)
  deriving DecidableEq

namespace RightOperand

def field : RightOperand → OperandField
  | register field | immediate field => field

def value (operand : RightOperand) (hart : Hart) (raw : Encoding) : Word :=
  match operand with
  | register field => hart.readRegister (field.register raw)
  | immediate field => field.extract raw

/-- The second hart holds the low half of what the first one holds, or takes the same immediate. -/
def Corresponds (operand : RightOperand) (wide narrow : Hart) (long short : Encoding) : Prop :=
  match operand with
  | register field =>
      narrow.readRegister (field.register short) =
        signExtendLow (wide.readRegister (field.register long))
  | immediate field => field.extract short = field.extract long

end RightOperand

/-- An instruction on the low halves of registers, apart from its mnemonic. -/
structure LowForm where
  /-- The mnemonic of the instruction that a 32-bit hart has instead. -/
  counterpart : String
  operation : LowArithmetic
  right : RightOperand
  deriving DecidableEq

namespace LowForm

def named : List (String × LowForm) := [
  ("ADDIW", ⟨"ADDI", .add, .immediate immediateI⟩),
  ("SLLIW", ⟨"SLLI", .shiftLeft, .immediate shiftAmount5⟩),
  ("SRLIW", ⟨"SRLI", .shiftRight, .immediate shiftAmount5⟩),
  ("SRAIW", ⟨"SRAI", .shiftRightSigned, .immediate shiftAmount5⟩),
  ("ADDW", ⟨"ADD", .add, .register rs2⟩),
  ("SUBW", ⟨"SUB", .subtract, .register rs2⟩),
  ("SLLW", ⟨"SLL", .shiftLeft, .register rs2⟩),
  ("SRLW", ⟨"SRL", .shiftRight, .register rs2⟩),
  ("SRAW", ⟨"SRA", .shiftRightSigned, .register rs2⟩),
  ("MULW", ⟨"MUL", .multiply, .register rs2⟩),
  ("DIVW", ⟨"DIV", .divide, .register rs2⟩),
  ("DIVUW", ⟨"DIVU", .divideUnsigned, .register rs2⟩),
  ("REMW", ⟨"REM", .remainder, .register rs2⟩),
  ("REMUW", ⟨"REMU", .remainderUnsigned, .register rs2⟩)]

/-- The operation of the instruction itself. -/
def lowOperation (form : LowForm) : Operation :=
  match form.right with
  | .register _ => .registerLow form.operation
  | .immediate _ => .immediateLow form.operation

/-- The operation of the counterpart. -/
def fullOperation (form : LowForm) : Operation :=
  match form.right with
  | .register _ => .register form.operation.full
  | .immediate _ => .immediate form.operation.full

end LowForm

namespace Catalogue

theorem implements_low : ∀ row ∈ bound, ∀ entry ∈ LowForm.named,
    row.declaration.mnemonic = entry.1 →
      row.declaration.arguments = [rd, rs1, entry.2.right.field] ∧
        row.binding = ⟨entry.2.lowOperation, false, false, .sequential⟩ := by
  decide +kernel

theorem implements_counterpart : ∀ row ∈ bound, row.declaration.variant.includes .x32 = true →
    ∀ entry ∈ LowForm.named, row.declaration.mnemonic = entry.2.counterpart →
      row.declaration.arguments = [rd, rs1, entry.2.right.field] ∧
        row.binding = ⟨entry.2.fullOperation, false, false, .sequential⟩ := by
  decide +kernel

end Catalogue

/-! ### Execution -/

/-- An immediate of few bits is its own extension from the low half. -/
theorem LowForm.signExtendLow_immediate {mnemonic : String} {form : LowForm}
    (hform : (mnemonic, form) ∈ named) {field : OperandField} (hright : form.right = .immediate field)
    (raw : Encoding) : signExtendLow (field.extract raw) = field.extract raw := by
  have hfield : field = immediateI ∨ field = shiftAmount5 := by
    have hall : ∀ entry ∈ named, entry.2.right = .register rs2 ∨
        entry.2.right = .immediate immediateI ∨ entry.2.right = .immediate shiftAmount5 := by
      decide
    rcases hall _ hform with heq | heq | heq <;> rw [hright] at heq <;> cases heq
    · exact .inl rfl
    · exact .inr rfl
  rcases hfield with rfl | rfl
  · rw [Rv32.extract_immediateI]
    exact LowArithmetic.normalize_signExtend _
  · rw [Rv32.extract_shiftAmount5]
    exact LowArithmetic.normalize_signExtend _

namespace Hart

/-- The hart is about to execute an instruction of a mnemonic. -/
structure Faces (hart : Hart) (raw : Encoding) (mnemonic : String) : Prop where
  standard : hart.instructions = .standard
  fetch : (hart.fetch hart.pc).1 = .ok raw
  decision : ∃ entry, hart.decision raw = .instruction entry ∧ entry.declaration.mnemonic = mnemonic

variable {hart : Hart} {raw : Encoding} {mnemonic : String}

theorem Faces.of_only (hstandard : hart.instructions = .standard)
    (hfetch : (hart.fetch hart.pc).1 = .ok raw) (honly : Catalogue.Only hart.xlen raw mnemonic) :
    hart.Faces raw mnemonic where
  standard := hstandard
  fetch := hfetch
  decision := exists_decision_of_only hstandard honly

/-- An instruction with a destination and two operands that writes a value and nothing else. -/
theorem executeNext_of_write (right : RightOperand) (operation : Operation) (value : Word)
    (hfaces : hart.Faces raw mnemonic)
    (hrows : ∀ row ∈ Catalogue.bound, row.declaration.variant.includes hart.xlen = true →
      row.declaration.mnemonic = mnemonic → row.declaration.arguments = [rd, rs1, right.field] ∧
        row.binding = ⟨operation, false, false, .sequential⟩)
    (hexecute : ∀ (ready : Hart) (operands : Operands), Undisturbed hart ready →
      operands.values = [rd.extract raw, rs1.extract raw, right.field.extract raw] →
        operation.execute operands ready =
          (.ok .next, ready.writeRegister (rd.register raw) value)) :
    hart.attempt.1 = .retired ∧
      hart.executeNext.registers =
        hart.registers.write (rd.register raw) (hart.xlen.normalize value) := by
  obtain ⟨entry, hdecision, hmnemonic⟩ := hfaces.decision
  obtain ⟨ready, hready, hattempt⟩ := attempt_of_fetch hfaces.fetch
  have hstandard : ready.instructions = .standard := hready.instructions_eq.trans hfaces.standard
  rw [← hready.decision_eq raw] at hdecision
  obtain ⟨row, hrow, hdeclaration, hdispatch, hvalues⟩ := dispatch_of_standard hstandard hdecision
  have hwidth : row.declaration.variant.includes hart.xlen = true := by
    have hset := InstructionSet.build_standard
    rw [← hstandard] at hset
    have hbuild := InstructionSet.decoder_of_build hset ready.xlen
    obtain ⟨-, -, hwidth, -, -⟩ := Decoder.decide_eq_instruction hbuild hdecision
    rw [← hdeclaration] at hwidth
    obtain ⟨translation, journal, rfl⟩ := hready
    exact hwidth
  obtain ⟨harguments, hbinding⟩ := hrows row hrow hwidth (by rw [hdeclaration, hmnemonic])
  rw [harguments, hbinding] at hvalues
  have hperform : ready.perform raw =
      (.retired, { ready.writeRegister (rd.register raw) value with pc := ready.nextPc raw }) := by
    rw [perform_of_dispatch hdispatch, hbinding, hexecute ready _ hready hvalues]
    rfl
  rw [executeNext, hattempt, hperform]
  obtain ⟨translation, journal, rfl⟩ := hready
  exact ⟨rfl, rfl⟩

section Forms

variable {form : LowForm} {operands : Operands}
  (hvalues : operands.values = [rd.extract raw, rs1.extract raw, form.right.field.extract raw])

include hvalues

theorem execute_lowOperation :
    form.lowOperation.execute operands hart =
      (.ok .next, hart.writeRegister (rd.register raw)
        (form.operation.evaluate (hart.readRegister (rs1.register raw))
          (form.right.value hart raw))) := by
  obtain ⟨counterpart, operation, right⟩ := form
  cases right <;> simp only [LowForm.lowOperation, Operation.execute, Operands.register,
    Operands.get, hvalues] <;> rfl

theorem execute_fullOperation :
    form.fullOperation.execute operands hart =
      (.ok .next, hart.writeRegister (rd.register raw)
        (form.operation.full.evaluate hart.xlen (hart.readRegister (rs1.register raw))
          (form.right.value hart raw))) := by
  obtain ⟨counterpart, operation, right⟩ := form
  cases right <;> simp only [LowForm.fullOperation, Operation.execute, Operands.register,
    Operands.get, hvalues, LowArithmetic.immediateOperand_full] <;> rfl

end Forms

theorem value_of_corresponds {wide narrow : Hart} {long short : Encoding} {form : LowForm}
    (hform : (mnemonic, form) ∈ LowForm.named)
    (hright : form.right.Corresponds wide narrow long short) :
    form.right.value narrow short = signExtendLow (form.right.value wide long) := by
  cases hoperand : form.right with
  | register field =>
      rw [hoperand] at hright
      exact hright
  | immediate field =>
      rw [hoperand] at hright
      rw [RightOperand.value, RightOperand.value, LowForm.signExtendLow_immediate hform hoperand]
      exact hright

/-- An instruction on low halves writes what a 32-bit hart writes with the instruction it stands for,
from registers that hold these low halves. -/
theorem executeNext_lowForm {wide narrow : Hart} {long short : Encoding} {form : LowForm}
    (hform : (mnemonic, form) ∈ LowForm.named) (hwide : wide.Faces long mnemonic)
    (hnarrow : narrow.Faces short form.counterpart) (hlong : wide.xlen = .x64)
    (hshort : narrow.xlen = .x32)
    (hleft : narrow.readRegister (rs1.register short) =
      signExtendLow (wide.readRegister (rs1.register long)))
    (hright : form.right.Corresponds wide narrow long short) :
    let value := form.operation.evaluate (wide.readRegister (rs1.register long))
      (form.right.value wide long)
    (wide.attempt.1 = .retired ∧
      wide.executeNext.registers = wide.registers.write (rd.register long) value) ∧
    narrow.attempt.1 = .retired ∧
      narrow.executeNext.registers = narrow.registers.write (rd.register short) value := by
  intro value
  constructor
  · have hwritten := executeNext_of_write form.right form.lowOperation value hwide
      (fun row hrow _ hmnemonic => Catalogue.implements_low row hrow _ hform hmnemonic)
      (fun ready operands hready hvalues => by
        obtain ⟨translation, journal, rfl⟩ := hready
        exact execute_lowOperation hvalues)
    rwa [hlong] at hwritten
  · have hvalue : Xlen.x32.normalize (form.operation.full.evaluate .x32
        (narrow.readRegister (rs1.register short)) (form.right.value narrow short)) = value := by
      rw [hleft, value_of_corresponds hform hright]
      exact LowArithmetic.normalize_evaluate_full form.operation _ _
    have hwritten := executeNext_of_write form.right form.fullOperation
      (form.operation.full.evaluate narrow.xlen (narrow.readRegister (rs1.register short))
        (form.right.value narrow short)) hnarrow
      (fun row hrow hwidth hmnemonic =>
        Catalogue.implements_counterpart row hrow (by rwa [← hshort]) _ hform hmnemonic)
      (fun ready operands hready hvalues => by
        obtain ⟨translation, journal, rfl⟩ := hready
        exact execute_fullOperation hvalues)
    rwa [hshort, hvalue] at hwritten

/-- The quotient without room in 32 bits, of `divw x7, x5, x6` from registers with more above, and of
`div x10, x11, x12`. -/
theorem executeNext_lowForm_overflow :
    let wide := { facing 0x0262C3BB with
      registers := ((RegisterFile.zero 32).write 5 0x180000000).write 6 0x2FFFFFFFF }
    let narrow := { facing 0x02C5C533 with
      xlen := .x32
      registers := ((RegisterFile.zero 32).write 11 0xFFFFFFFF80000000).write 12 (-1) }
    wide.executeNext.registers = wide.registers.write 7 0xFFFFFFFF80000000 ∧
      narrow.executeNext.registers = narrow.registers.write 10 0xFFFFFFFF80000000 := by
  intro wide narrow
  have hwide : wide.Faces 0x0262C3BB "DIVW" :=
    .of_only (by simp only [wide, facing_instructions]) (by decide +kernel)
      (by decide +kernel : Catalogue.Only .x64 0x0262C3BB "DIVW")
  have hnarrow : narrow.Faces 0x02C5C533 "DIV" :=
    .of_only (by simp only [narrow, facing_instructions]) (by decide +kernel)
      (by decide +kernel : Catalogue.Only .x32 0x02C5C533 "DIV")
  have hleft : narrow.readRegister (rs1.register 0x02C5C533) =
      signExtendLow (wide.readRegister (rs1.register 0x0262C3BB)) := by decide +kernel
  have hright : RightOperand.Corresponds (.register rs2) wide narrow 0x0262C3BB 0x02C5C533 := by
    rw [RightOperand.Corresponds]
    decide +kernel
  have hvalue : LowArithmetic.divide.evaluate (wide.readRegister (rs1.register 0x0262C3BB))
      (wide.readRegister (rs2.register 0x0262C3BB)) = 0xFFFFFFFF80000000 := by decide +kernel
  have hform : ("DIVW", ⟨"DIV", .divide, .register rs2⟩) ∈ LowForm.named := by decide
  obtain ⟨⟨-, hwritten⟩, -, hcounterpart⟩ :=
    executeNext_lowForm hform hwide hnarrow rfl rfl hleft hright
  rw [RightOperand.value, hvalue] at hwritten hcounterpart
  exact ⟨hwritten, hcounterpart⟩

end Hart

end RiscvMachine
