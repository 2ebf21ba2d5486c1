import RiscvMachine.Proofs.Canonical
import RiscvMachine.Proofs.CompressedExecution
import RiscvMachine.Proofs.Rv32
/-!
A 32-bit hart is a machine with 32-bit registers. As long as its registers hold sign-extended
values, the low halves of registers and program counter change as on the reference machine, and the
registers hold sign-extended values again.
-/

namespace RiscvMachine

open OperandField

namespace Rv32

variable {raw : Encoding}

/-! ### Fields of 32-bit encodings -/

theorem register_slice (low : Nat) (raw : Encoding) :
    (unsignedBits [(low, 5, 0)]).register raw = (raw.extractLsb' low 5 : RegisterNumber).toNat := by
  have hless := (raw.extractLsb' low 5 : RegisterNumber).isLt
  rw [OperandField.register, extract_slice, BitVec.toNat_setWidth_of_le (by decide)]
  exact Nat.mod_eq_of_lt hless

theorem extract_immediateI (raw : Encoding) :
    immediateI.extract raw = ((immediate raw).signExtend 32).signExtend 64 := by
  rw [signExtend_signExtend (by decide)]
  refine extract_signed rfl (by decide) (by decide) fun position hposition => ?_
  rw [immediate, BitVec.getLsbD_extractLsb']
  simp [Segment.covers, Segment.source, BitSource.value, hposition]

theorem extract_shiftAmount5 (raw : Encoding) :
    shiftAmount5.extract raw = ((shiftAmount raw).setWidth 32).signExtend 64 := by
  rw [signExtend_setWidth (by decide)]
  exact extract_slice 20 5 raw

theorem extract_immediateU (raw : Encoding) :
    immediateU.extract raw = (upperImmediate raw ++ 0#12 : Value).signExtend 64 := by
  refine extract_signed rfl (by decide) (by decide) fun position hposition => ?_
  rw [BitVec.getLsbD_append, upperImmediate, BitVec.getLsbD_extractLsb']
  by_cases hlow : position < 12
  · have hcovers : ¬12 ≤ position := by omega
    simp [Segment.covers, hlow, hcovers]
  · have hcovers : 12 ≤ position := by omega
    have hinside : position - 12 < 20 := by omega
    simp [Segment.covers, Segment.source, BitSource.value, hlow, hcovers, hposition, hinside]

theorem extract_immediateB (raw : Encoding) :
    immediateB.extract raw = (branchOffset raw).signExtend 64 := by
  refine extract_signed rfl (by decide) (by decide) fun position hposition => ?_
  simp only [branchOffset, BitVec.getLsbD_append, BitVec.getLsbD_extractLsb']
  interval_cases position <;> simp [Segment.covers, Segment.source, BitSource.value]

/-! ### Implementation -/

/-- The operand fields of a kind in the catalogue. -/
def Kind.arguments : Kind → List OperandField
  | loadUpper | addUpperToPc => [rd, immediateU]
  | immediate _ => [rd, rs1, immediateI]
  | shift _ => [rd, rs1, shiftAmount5]
  | register _ => [rd, rs1, rs2]
  | branch _ => [rs1, rs2, immediateB]

def Kind.binding : Kind → Binding
  | loadUpper => ⟨.loadUpper, false, false, .sequential⟩
  | addUpperToPc => ⟨.addUpperToPc, false, true, .sequential⟩
  | immediate operation | shift operation =>
      ⟨.immediate operation.arithmetic, false, false, .sequential⟩
  | register operation => ⟨.register operation.arithmetic, false, false, .sequential⟩
  | branch condition => ⟨.branch condition, false, true, .branch⟩

end Rv32

theorem Catalogue.implements_of_named : ∀ row ∈ bound,
    row.declaration.variant.includes .x32 = true →
      ∀ kind ∈ Rv32.Kind.named.lookup row.declaration.mnemonic,
        row.declaration.arguments = kind.arguments ∧ row.binding = kind.binding := by
  decide +kernel

namespace Hart

/-- The low halves of registers and program counter. -/
def truncate (hart : Hart) : Rv32.State where
  registers := fun index => (hart.readRegister index.toNat).setWidth 32
  pc := hart.pc.setWidth 32

/-- The second hart is the first one after an instruction on the reference machine. -/
structure Simulates (instruction : Rv32.Instruction) (length : Rv32.Value) (before after : Hart) :
    Prop where
  state : after.truncate = before.truncate.execute length instruction
  registers : after.registers.Normal .x32

variable {hart : Hart} {raw long : Encoding} {operands : Operands}

theorem readRegister_eq_signExtend (hnormal : hart.registers.Normal .x32)
    (index : Rv32.RegisterNumber) :
    hart.readRegister index.toNat = (hart.truncate.registers index).signExtend 64 := by
  by_cases hzero : index = 0
  · subst hzero
    rfl
  · have hpositive : 0 < index.toNat := by
      refine Nat.pos_of_ne_zero fun htoNat => hzero (BitVec.eq_of_toNat_eq htoNat)
    exact (hnormal index.toNat hpositive index.isLt).symm

theorem setWidth_address (value : Word) : (Xlen.x32.address value).setWidth 32 = value.setWidth 32 :=
  setWidth_zeroExtend _

theorem setWidth_nextPc (hxlen : hart.xlen = .x32) (raw : Encoding) :
    (hart.nextPc raw).setWidth 32 =
      hart.truncate.pc + BitVec.ofNat 32 (EncodedLength.of raw).bytes := by
  rw [nextPc, hxlen, setWidth_address, BitVec.setWidth_add _ _ (by decide)]
  cases EncodedLength.of raw <;> rfl

/-- A write of any value leaves its low half in the register. -/
theorem truncate_writeRegister (hxlen : hart.xlen = .x32) (index : Rv32.RegisterNumber)
    (value : Word) :
    (hart.writeRegister index.toNat value).truncate =
      hart.truncate.write index (value.setWidth 32) := by
  have hplace (other : Rv32.RegisterNumber) :
      index.toNat ≠ 0 ∧ other.toNat ≠ 0 ∧ index.toNat % 32 = other.toNat % 32 ↔
        other = index ∧ index ≠ 0 := by
    rw [Nat.mod_eq_of_lt index.isLt, Nat.mod_eq_of_lt other.isLt]
    constructor
    · rintro ⟨hindex, -, hsame⟩
      refine ⟨BitVec.eq_of_toNat_eq hsame.symm, ?_⟩
      rintro rfl
      exact hindex rfl
    · rintro ⟨rfl, hne⟩
      have hindex : other.toNat ≠ 0 := fun hzero => hne (BitVec.eq_of_toNat_eq hzero)
      exact ⟨hindex, hindex, rfl⟩
  have hregisters : (hart.writeRegister index.toNat value).truncate.registers =
      (hart.truncate.write index (value.setWidth 32)).registers := by
    funext other
    simp only [truncate, Rv32.State.write, writeRegister, readRegister, RegisterFile.read_write,
      hplace, hxlen]
    split
    · exact setWidth_signExtend _
    · rfl
  exact congrArg (fun registers => (⟨registers, hart.pc.setWidth 32⟩ : Rv32.State)) hregisters

/-- An instruction that writes a register and goes on behind itself. -/
theorem simulates_of_write {binding : Binding} {instruction : Rv32.Instruction}
    {index : Rv32.RegisterNumber} {value : Word} {length : Rv32.Value}
    (hxlen : hart.xlen = .x32) (hnormal : hart.registers.Normal .x32)
    (hlength : length = BitVec.ofNat 32 (EncodedLength.of raw).bytes)
    (hupdate : binding.pcUpdate = .sequential)
    (hinstruction : hart.truncate.execute length instruction =
      { hart.truncate.write index (value.setWidth 32) with pc := hart.truncate.pc + length }) :
    ∃ after,
      hart.conclude raw binding (.ok .next, hart.writeRegister index.toNat value) =
        (.retired, after) ∧ Simulates instruction length hart after := by
  refine ⟨{ hart.writeRegister index.toNat value with pc := hart.nextPc raw }, ?_, ?_, ?_⟩
  · simp only [conclude, hupdate, PcUpdate.advances, if_true]
  · have hpc : ({ hart.writeRegister index.toNat value with pc := hart.nextPc raw } : Hart).truncate =
        { (hart.writeRegister index.toNat value).truncate with
          pc := (hart.nextPc raw).setWidth 32 } := rfl
    rw [hpc, truncate_writeRegister hxlen, setWidth_nextPc hxlen, ← hlength, hinstruction]
  · have hwritten := hnormal.write index.toNat value
    rw [← hxlen] at hwritten ⊢
    exact hwritten

theorem immediateOperand_signExtend (arithmetic : Arithmetic) (value : Rv32.Value) :
    arithmetic.immediateOperand .x32 (value.signExtend 64) = value.signExtend 64 := by
  cases arithmetic
  case setLessUnsigned => exact congrArg (BitVec.signExtend 64) (setWidth_signExtend value)
  all_goals rfl

theorem register_of_get {position low : Nat}
    (hget : operands.get position = (unsignedBits [(low, 5, 0)]).extract long) :
    operands.register position = (long.extractLsb' low 5 : Rv32.RegisterNumber).toNat := by
  rw [Operands.register, hget]
  exact Rv32.register_slice low long

section Kinds

variable (hxlen : hart.xlen = .x32) (hnormal : hart.registers.Normal .x32)
  {length : Rv32.Value} (hlength : length = BitVec.ofNat 32 (EncodedLength.of raw).bytes)

include hxlen hnormal hlength

theorem simulates_immediate {operation : Rv32.Operation} {value : Rv32.Value}
    (hdestination : operands.get 0 = rd.extract long) (hleft : operands.get 1 = rs1.extract long)
    (hvalue : operands.get 2 = value.signExtend 64) :
    ∃ after,
      hart.conclude raw ⟨.immediate operation.arithmetic, false, false, .sequential⟩
          ((Operation.immediate operation.arithmetic).execute operands hart) = (.retired, after) ∧
        Simulates (.immediate operation (Rv32.destination long) (Rv32.left long) value) length hart
          after := by
  simp only [Operation.execute, register_of_get hdestination, register_of_get hleft, hvalue, hxlen,
    immediateOperand_signExtend]
  refine simulates_of_write hxlen hnormal hlength rfl ?_
  rw [readRegister_eq_signExtend hnormal, Rv32.setWidth_evaluate]
  rfl

theorem simulates_register {operation : Rv32.Operation}
    (hdestination : operands.get 0 = rd.extract long) (hleft : operands.get 1 = rs1.extract long)
    (hright : operands.get 2 = rs2.extract long) :
    ∃ after,
      hart.conclude raw ⟨.register operation.arithmetic, false, false, .sequential⟩
          ((Operation.register operation.arithmetic).execute operands hart) = (.retired, after) ∧
        Simulates
          (.register operation (Rv32.destination long) (Rv32.left long) (Rv32.right long)) length
          hart after := by
  simp only [Operation.execute, register_of_get hdestination, register_of_get hleft,
    register_of_get hright, hxlen]
  refine simulates_of_write hxlen hnormal hlength rfl ?_
  rw [readRegister_eq_signExtend hnormal, readRegister_eq_signExtend hnormal,
    Rv32.setWidth_evaluate]
  rfl

theorem simulates_branch {condition : Condition} (hleft : operands.get 0 = rs1.extract long)
    (hright : operands.get 1 = rs2.extract long) (hoffset : operands.get 2 = immediateB.extract long)
    (hpc : operands.get 3 = hart.pc) :
    ∃ after,
      hart.conclude raw ⟨.branch condition, false, true, .branch⟩
          ((Operation.branch condition).execute operands hart) = (.retired, after) ∧
        Simulates
          (.branch condition (Rv32.left long) (Rv32.right long) (Rv32.branchOffset long)) length
          hart after := by
  have hdecision : condition.holds (hart.readRegister (operands.register 0))
      (hart.readRegister (operands.register 1)) =
        Rv32.holds condition (hart.truncate.registers (Rv32.left long))
          (hart.truncate.registers (Rv32.right long)) := by
    rw [register_of_get hleft, register_of_get hright, ← Rv32.holds_signExtend,
      ← readRegister_eq_signExtend hnormal, ← readRegister_eq_signExtend hnormal]
    rfl
  simp only [Operation.execute, executeBranch, hdecision, hoffset, hpc]
  by_cases hholds : Rv32.holds condition (hart.truncate.registers (Rv32.left long))
      (hart.truncate.registers (Rv32.right long)) = true
  · rw [if_pos hholds]
    refine ⟨hart.setPc (hart.pc + immediateB.extract long), rfl, ?_, hnormal⟩
    rw [Rv32.State.execute, if_pos hholds]
    have htarget : (hart.setPc (hart.pc + immediateB.extract long)).pc.setWidth 32 =
        hart.truncate.pc + (Rv32.branchOffset long).signExtend 32 := by
      rw [setPc, hxlen, setWidth_address, BitVec.setWidth_add _ _ (by decide),
        Rv32.extract_immediateB, setWidth_signExtend_word]
      rfl
    exact congrArg (fun pc => (⟨hart.truncate.registers, pc⟩ : Rv32.State)) htarget
  · rw [if_neg hholds]
    refine ⟨{ hart with pc := hart.nextPc raw }, rfl, ?_, hnormal⟩
    rw [Rv32.State.execute, if_neg hholds, hlength, ← setWidth_nextPc hxlen raw]
    rfl

theorem simulates_loadUpper (hdestination : operands.get 0 = rd.extract long)
    (hvalue : operands.get 1 = immediateU.extract long) :
    ∃ after,
      hart.conclude raw ⟨.loadUpper, false, false, .sequential⟩
          (Operation.loadUpper.execute operands hart) = (.retired, after) ∧
        Simulates (.loadUpper (Rv32.destination long) (Rv32.upperImmediate long)) length hart
          after := by
  simp only [Operation.execute, register_of_get hdestination, hvalue]
  refine simulates_of_write hxlen hnormal hlength rfl ?_
  rw [Rv32.extract_immediateU, setWidth_signExtend]
  rfl

theorem simulates_addUpperToPc (hdestination : operands.get 0 = rd.extract long)
    (hvalue : operands.get 1 = immediateU.extract long) (hpc : operands.get 2 = hart.pc) :
    ∃ after,
      hart.conclude raw ⟨.addUpperToPc, false, true, .sequential⟩
          (Operation.addUpperToPc.execute operands hart) = (.retired, after) ∧
        Simulates (.addUpperToPc (Rv32.destination long) (Rv32.upperImmediate long)) length hart
          after := by
  simp only [Operation.execute, register_of_get hdestination, hvalue, hpc]
  refine simulates_of_write hxlen hnormal hlength rfl ?_
  rw [BitVec.setWidth_add _ _ (by decide), Rv32.extract_immediateU, setWidth_signExtend]
  rfl

/-- Operands and binding of a kind do what the reference machine does. -/
theorem simulates_of_values {kind : Rv32.Kind}
    (hvalues : operands.values = kind.arguments.map (fun field => field.extract long) ++
      if kind.binding.takesPc then [hart.pc] else []) :
    ∃ after,
      hart.conclude raw kind.binding (kind.binding.operation.execute operands hart) =
        (.retired, after) ∧ Simulates (kind.decode long) length hart after := by
  have hget (position : Nat) : operands.get position =
      (kind.arguments.map (fun field => field.extract long) ++
        if kind.binding.takesPc then [hart.pc] else []).getD position 0 := by
    rw [Operands.get, hvalues]
  cases kind with
  | loadUpper => exact simulates_loadUpper hxlen hnormal hlength (hget 0) (hget 1)
  | addUpperToPc => exact simulates_addUpperToPc hxlen hnormal hlength (hget 0) (hget 1) (hget 2)
  | immediate operation =>
      exact simulates_immediate hxlen hnormal hlength (hget 0) (hget 1)
        ((hget 2).trans (Rv32.extract_immediateI long))
  | shift operation =>
      exact simulates_immediate hxlen hnormal hlength (hget 0) (hget 1)
        ((hget 2).trans (Rv32.extract_shiftAmount5 long))
  | register operation =>
      exact simulates_register hxlen hnormal hlength (hget 0) (hget 1) (hget 2)
  | branch condition =>
      exact simulates_branch hxlen hnormal hlength (hget 0) (hget 1) (hget 2) (hget 3)

end Kinds

theorem takesLength_binding (kind : Rv32.Kind) : kind.binding.takesLength = false := by
  cases kind <;> rfl

/-- The row that is found for a mnemonic of the reference machine implements its kind. -/
theorem implements_of_decision {entry : Entry} {row : Row} {kind : Rv32.Kind}
    (hstandard : hart.instructions = .standard) (hxlen : hart.xlen = .x32)
    (hdecision : hart.decision raw = .instruction entry) (hrow : row ∈ Catalogue.bound)
    (hdeclaration : row.declaration = entry.declaration)
    (hkind : Rv32.Kind.named.lookup entry.declaration.mnemonic = some kind) :
    row.declaration.arguments = kind.arguments ∧ row.binding = kind.binding := by
  rw [decision, hstandard, hxlen] at hdecision
  have hbuild := InstructionSet.decoder_of_build InstructionSet.build_standard .x32
  obtain ⟨-, -, hwidth, -, -⟩ := Decoder.decide_eq_instruction hbuild hdecision
  rw [← hdeclaration] at hwidth hkind
  exact Catalogue.implements_of_named row hrow hwidth kind hkind

/-- The instructions of 32-bit arithmetic and the branches retire, and do what they should. -/
theorem simulates_perform {entry : Entry} {instruction : Rv32.Instruction}
    (hstandard : hart.instructions = .standard) (hxlen : hart.xlen = .x32)
    (hnormal : hart.registers.Normal .x32) (hdecision : hart.decision raw = .instruction entry)
    (hdecode : Rv32.decode? entry.declaration.mnemonic raw = some instruction) :
    ∃ after, hart.perform raw = (.retired, after) ∧
      Simulates instruction (BitVec.ofNat 32 (EncodedLength.of raw).bytes) hart after := by
  rw [Rv32.decode?] at hdecode
  split at hdecode
  · obtain ⟨kind, hkind, rfl⟩ := Option.map_eq_some_iff.mp hdecode
    obtain ⟨row, hrow, hdeclaration, hdispatch, hvalues⟩ := dispatch_of_standard hstandard hdecision
    obtain ⟨harguments, hbinding⟩ :=
      implements_of_decision hstandard hxlen hdecision hrow hdeclaration hkind
    rw [harguments, hbinding, takesLength_binding, if_neg Bool.false_ne_true, List.append_nil]
      at hvalues
    rw [perform_of_dispatch hdispatch, hbinding]
    exact simulates_of_values hxlen hnormal rfl hvalues
  · -- the operands of a 16-bit encoding are those of its expansion
    rename_i hlength
    obtain ⟨rule, hfind, hdecode⟩ := Option.bind_eq_some_iff.mp hdecode
    obtain ⟨kind, hkind, hdecode⟩ := Option.bind_eq_some_iff.mp hdecode
    cases hdecode
    have hdecide := hdecision
    rw [decision, hstandard, hxlen] at hdecide
    obtain ⟨found, long, id, hfound, hrelates, hexpanded, -⟩ :=
      Expansion.exists_decide_expand hlength hdecide
    obtain rfl : found = rule := Option.some.inj (hfound.symm.trans hfind)
    rw [← hxlen] at hrelates hexpanded
    rw [← hstandard] at hexpanded
    obtain ⟨first, second, -, hdeclaration, hexpands⟩ :=
      exists_expands hstandard hdecision hexpanded hrelates
    rw [← hrelates.2.1.1] at hkind
    obtain ⟨harguments, hbinding⟩ :=
      implements_of_decision hstandard hxlen hexpanded hexpands.mem_expand hdeclaration hkind
    have hvalues := hexpands.values
    rw [harguments, hbinding, takesLength_binding, if_neg Bool.false_ne_true, List.append_nil]
      at hvalues
    rw [perform_of_dispatch hexpands.dispatch, ← hexpands.binding, hbinding]
    exact simulates_of_values hxlen hnormal rfl hvalues

/-- One step of a 32-bit hart is one step of the reference machine. -/
theorem executeNext_simulates {entry : Entry} {instruction : Rv32.Instruction}
    (hstandard : hart.instructions = .standard) (hxlen : hart.xlen = .x32)
    (hnormal : hart.registers.Normal .x32) (hfetch : (hart.fetch hart.pc).1 = .ok raw)
    (hdecision : hart.decision raw = .instruction entry)
    (hdecode : Rv32.decode? entry.declaration.mnemonic raw = some instruction) :
    hart.attempt.1 = .retired ∧
      Simulates instruction (BitVec.ofNat 32 (EncodedLength.of raw).bytes) hart hart.executeNext := by
  obtain ⟨ready, hready, hattempt⟩ := attempt_of_fetch hfetch
  have hperform : ∃ after, ready.perform raw = (.retired, after) ∧
      Simulates instruction (BitVec.ofNat 32 (EncodedLength.of raw).bytes) hart after := by
    obtain ⟨translation, journal, rfl⟩ := hready
    obtain ⟨after, hperform, hsimulates⟩ : ∃ after,
        ({ hart with translation := translation, journal := journal } : Hart).perform raw =
          (.retired, after) ∧ Simulates _ _ _ after :=
      simulates_perform hstandard hxlen hnormal hdecision hdecode
    exact ⟨after, hperform, hsimulates.state, hsimulates.registers⟩
  obtain ⟨after, hperform, hsimulates⟩ := hperform
  rw [executeNext, hattempt, hperform]
  exact ⟨rfl, hsimulates⟩

/-- The comparison `sltiu x6, x5, -1` of a negative register with the greatest immediate. -/
theorem executeNext_simulates_compare :
    let hart := { facing 0xFFF2B313 with
      xlen := .x32
      registers := (RegisterFile.zero 32).write 5 0xFFFFFFFF80000000 }
    hart.attempt.1 = .retired ∧
      Simulates (.immediate .setLessUnsigned 6 5 0xFFFFFFFF) 4 hart hart.executeNext := by
  intro hart
  have hfetch : (hart.fetch hart.pc).1 = .ok 0xFFF2B313 := by decide +kernel
  have hstandard : hart.instructions = .standard := by simp only [hart, facing_instructions]
  have hnormal : hart.registers.Normal .x32 := by
    have hvalue : Xlen.x32.normalize 0x80000000 = 0xFFFFFFFF80000000 := by decide
    have hwritten := (RegisterFile.normal_zero .x32).write 5 0x80000000
    rwa [hvalue] at hwritten
  have honly : Catalogue.Only .x32 0xFFF2B313 "SLTIU" := by decide +kernel
  obtain ⟨entry, hdecision, hmnemonic⟩ := honly.exists_decide
  have hdecode : Rv32.decode? entry.declaration.mnemonic 0xFFF2B313 =
      some (.immediate .setLessUnsigned 6 5 0xFFFFFFFF) := by
    rw [hmnemonic]
    rfl
  have hlookup : hart.decision 0xFFF2B313 = .instruction entry := by
    rw [decision, hstandard]
    exact hdecision
  exact executeNext_simulates hstandard rfl hnormal hfetch hlookup hdecode

end Hart

end RiscvMachine
