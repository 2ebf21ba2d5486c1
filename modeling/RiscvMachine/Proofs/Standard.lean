import RiscvMachine.Proofs.Step
/-!
The standard instruction set. `Form.ofMnemonic` says in terms of encoded fields which instructions
access memory, move the program counter or trap; declarations and handlers are checked against it.
-/

namespace RiscvMachine

open OperandField

/-- The register number that a field of an encoding holds. -/
def OperandField.register (field : OperandField) (raw : Encoding) : Nat :=
  (field.extract raw).toNat % 32

/-- What kind of instruction a mnemonic stands for, with the fields of its encoding. -/
inductive Form where
  /-- An instruction that neither accesses memory nor moves the program counter. -/
  | plain
  | load (size : AccessSize) (signed : Bool) (destination base offset : OperandField)
  | store (size : AccessSize) (base source offset : OperandField)
  | branch (condition : Condition) (left right offset : OperandField)
  | jump (link offset : OperandField)
  | jumpRegister (link base offset : OperandField)
  | environmentCall
  | environmentBreak
  | machineReturn
  | supervisorReturn
  deriving DecidableEq

namespace Form

def named : List (String × Form) := [
  ("LB", load .byte true rd rs1 immediateI),
  ("LH", load .half true rd rs1 immediateI),
  ("LW", load .word true rd rs1 immediateI),
  ("LD", load .double true rd rs1 immediateI),
  ("LBU", load .byte false rd rs1 immediateI),
  ("LHU", load .half false rd rs1 immediateI),
  ("LWU", load .word false rd rs1 immediateI),
  ("C.LW", load .word true shortLow shortHigh compressedOffsetWord),
  ("C.LD", load .double true shortLow shortHigh compressedOffsetDouble),
  ("C.LWSP", load .word true rd x2 stackLoadWord),
  ("C.LDSP", load .double true rd x2 stackLoadDouble),
  ("SB", store .byte rs1 rs2 immediateS),
  ("SH", store .half rs1 rs2 immediateS),
  ("SW", store .word rs1 rs2 immediateS),
  ("SD", store .double rs1 rs2 immediateS),
  ("C.SW", store .word shortHigh shortLow compressedOffsetWord),
  ("C.SD", store .double shortHigh shortLow compressedOffsetDouble),
  ("C.SWSP", store .word x2 compressedRs2 stackStoreWord),
  ("C.SDSP", store .double x2 compressedRs2 stackStoreDouble),
  ("BEQ", branch .equal rs1 rs2 immediateB),
  ("BNE", branch .notEqual rs1 rs2 immediateB),
  ("BLT", branch .less rs1 rs2 immediateB),
  ("BGE", branch .greaterOrEqual rs1 rs2 immediateB),
  ("BLTU", branch .lessUnsigned rs1 rs2 immediateB),
  ("BGEU", branch .greaterOrEqualUnsigned rs1 rs2 immediateB),
  ("C.BEQZ", branch .equal shortHigh x0 compressedBranchOffset),
  ("C.BNEZ", branch .notEqual shortHigh x0 compressedBranchOffset),
  ("JAL", jump rd immediateJ),
  ("C.J", jump x0 compressedJumpOffset),
  ("C.JAL", jump x1 compressedJumpOffset),
  ("JALR", jumpRegister rd rs1 immediateI),
  ("C.JR", jumpRegister x0 rd zero),
  ("C.JALR", jumpRegister x1 rd zero),
  ("ECALL", environmentCall),
  ("EBREAK", environmentBreak),
  ("C.EBREAK", environmentBreak),
  ("MRET", machineReturn),
  ("SRET", supervisorReturn)]

def ofMnemonic (mnemonic : String) : Form :=
  (named.lookup mnemonic).getD plain

/-- The operands that a form declares and the binding that carries it out. -/
def implementation? : Form → Option (List OperandField × Binding)
  | plain => none
  | load size signed destination base offset =>
      some ([destination, base, offset], ⟨.load size signed, false, false, .sequential⟩)
  | store size base source offset =>
      some ([base, source, offset], ⟨.store size, false, false, .sequential⟩)
  | branch condition left right offset =>
      some ([left, right, offset], ⟨.branch condition, false, true, .branch⟩)
  | jump link offset => some ([link, offset], ⟨.jump, true, true, .jump⟩)
  | jumpRegister link base offset =>
      some ([link, base, offset], ⟨.jumpRegister, true, true, .jump⟩)
  | environmentCall => some ([], ⟨.environmentCall, false, false, .trapBoundary⟩)
  | environmentBreak => some ([], ⟨.environmentBreak, false, true, .trapBoundary⟩)
  | machineReturn => some ([], ⟨.machineReturn, false, false, .trapBoundary⟩)
  | supervisorReturn => some ([], ⟨.supervisorReturn, false, false, .trapBoundary⟩)

end Form

def Operation.isPlain : Operation → Bool
  | loadUpper | addUpperToPc | immediate _ | register _ | immediateLow _ | registerLow _ |
    csrSwap _ | csrSet _ | csrClear _ | waitForInterrupt | translationFence => true
  | load .. | store _ | branch _ | jump | jumpRegister | environmentCall | environmentBreak |
    machineReturn | supervisorReturn => false

/-- The row is declared and bound as its form says. -/
def Row.Fits (row : Row) (form : Form) : Prop :=
  form.implementation? = some (row.declaration.arguments, row.binding) ∨
    form = .plain ∧ row.binding.operation.isPlain = true ∧ row.binding.pcUpdate = .sequential

instance (row : Row) (form : Form) : Decidable (row.Fits form) :=
  inferInstanceAs (Decidable (_ ∨ _))

namespace Form

variable {form : Form} {arguments : List OperandField} {binding : Binding}

theorem length_le_of_implementation (hform : form.implementation? = some (arguments, binding)) :
    arguments.length ≤ Operands.maxArity := by
  cases form <;> cases hform <;> simp [Operands.maxArity]

theorem eq_load {size : AccessSize} {signed : Bool}
    (hform : form.implementation? = some (arguments, binding))
    (hoperation : binding.operation = .load size signed) :
    ∃ destination base offset, form = .load size signed destination base offset := by
  cases form <;> cases hform <;> cases hoperation
  exact ⟨_, _, _, rfl⟩

theorem eq_store {size : AccessSize} (hform : form.implementation? = some (arguments, binding))
    (hoperation : binding.operation = .store size) :
    ∃ base source offset, form = .store size base source offset := by
  cases form <;> cases hform <;> cases hoperation
  exact ⟨_, _, _, rfl⟩

theorem eq_environmentBreak (hform : form.implementation? = some (arguments, binding))
    (hoperation : binding.operation = .environmentBreak) : form = .environmentBreak := by
  cases form <;> cases hform <;> cases hoperation
  rfl

theorem eq_environmentCall (hform : form.implementation? = some (arguments, binding))
    (hoperation : binding.operation = .environmentCall) : form = .environmentCall := by
  cases form <;> cases hform <;> cases hoperation
  rfl

theorem eq_supervisorReturn (hform : form.implementation? = some (arguments, binding))
    (hoperation : binding.operation = .supervisorReturn) : form = .supervisorReturn := by
  cases form <;> cases hform <;> cases hoperation
  rfl

end Form

theorem Row.Fits.eq_implementation {row : Row} {form : Form} {arguments : List OperandField}
    {binding : Binding} (hfits : row.Fits form)
    (hform : form.implementation? = some (arguments, binding)) :
    row.declaration.arguments = arguments ∧ row.binding = binding := by
  rcases hfits with hsome | ⟨rfl, -, -⟩
  · rw [hform] at hsome
    cases hsome
    exact ⟨rfl, rfl⟩
  · cases hform

/-- The form of a row is that of its operation, where the operation is no plain one. -/
theorem Row.Fits.implementation_eq {row : Row} {form : Form} (hfits : row.Fits form)
    (hspecial : row.binding.operation.isPlain = false) :
    form.implementation? = some (row.declaration.arguments, row.binding) := by
  rcases hfits with hsome | ⟨-, hplain, -⟩
  · exact hsome
  · rw [hplain] at hspecial
    cases hspecial

theorem Row.Fits.eq_supervisorReturn_iff {row : Row} {form : Form} (hfits : row.Fits form) :
    form = .supervisorReturn ↔ row.binding.operation = .supervisorReturn := by
  constructor
  · rintro rfl
    rw [(hfits.eq_implementation rfl).2]
  · intro hoperation
    exact Form.eq_supervisorReturn (hfits.implementation_eq (by rw [hoperation]; rfl)) hoperation

/-- The operands of a row that fits a form are the fields of that form. -/
theorem Row.Fits.values_eq {row : Row} {form : Form} {arguments : List OperandField}
    {binding : Binding} (hfits : row.Fits form)
    (hform : form.implementation? = some (arguments, binding)) (hart : Hart) (raw : Encoding) :
    (hart.operandsOf row raw).values =
      arguments.map (fun field => field.extract raw) ++
        (if binding.takesLength then [BitVec.ofNat 64 (EncodedLength.of raw).bytes] else []) ++
        (if binding.takesPc then [hart.pc] else []) := by
  obtain ⟨rfl, rfl⟩ := hfits.eq_implementation hform
  exact BoundDecoder.operandsOf_values (Form.length_le_of_implementation hform) raw hart.pc

/-- A row that stores has the address that its form declares. -/
theorem Row.Fits.exists_storeAddress {row : Row} {size : AccessSize}
    (hfits : row.Fits (.ofMnemonic row.declaration.mnemonic))
    (hoperation : row.binding.operation = .store size) (hart : Hart) (raw : Encoding) :
    ∃ base source offset,
      Form.ofMnemonic row.declaration.mnemonic = .store size base source offset ∧
      hart.readRegister ((hart.operandsOf row raw).register 0) + (hart.operandsOf row raw).get 2 =
        hart.readRegister (base.register raw) + offset.extract raw := by
  have himplementation := hfits.implementation_eq (by rw [hoperation]; rfl)
  obtain ⟨base, source, offset, hform⟩ := Form.eq_store himplementation hoperation
  refine ⟨base, source, offset, hform, ?_⟩
  have hvalues := hfits.values_eq (congrArg Form.implementation? hform) hart raw
  simp [Operands.register, Operands.get, OperandField.register, hvalues]

namespace Catalogue

def bound : List Row :=
  boundRows declarations handlers

/-- Mnemonics, declared fields, operations and program counter updates agree. -/
theorem fits_of_mem_bound : ∀ row ∈ bound, row.Fits (.ofMnemonic row.declaration.mnemonic) := by
  decide +kernel

/-- No instruction that does nothing moves the program counter elsewhere. -/
theorem plain_of_nop : ∀ declaration ∈ declarations, declaration.kind = .nop →
    Form.ofMnemonic declaration.mnemonic = .plain := by
  decide +kernel

end Catalogue

namespace InstructionSet

theorem toBool_build_catalogue :
    (build Catalogue.declarations Catalogue.handlers).toBool = true := by
  decide +kernel

/-- The declarations are unambiguous for both widths, and every regular one has a handler. -/
theorem build_standard : build Catalogue.declarations Catalogue.handlers = .ok standard := by
  obtain ⟨set, hbuild⟩ := exists_ok_of_toBool toBool_build_catalogue
  have hstandard : standard = set := by
    unfold standard
    rw [hbuild]
    rfl
  rw [hbuild, hstandard]

end InstructionSet

namespace Catalogue

/-- One declaration alone accepts the encoding, and that is a regular one of this mnemonic. -/
def Only (xlen : Xlen) (raw : Encoding) (mnemonic : String) : Prop :=
  ∃ declaration ∈ declarations, declaration.accepts raw = true ∧
    declaration.variant.includes xlen = true ∧ declaration.kind = .regular ∧
    declaration.mnemonic = mnemonic ∧
    ∀ other ∈ declarations, other.accepts raw = true → other.variant.includes xlen = true →
      other = declaration

instance (xlen : Xlen) (raw : Encoding) (mnemonic : String) : Decidable (Only xlen raw mnemonic) :=
  inferInstanceAs (Decidable (∃ declaration ∈ declarations, _))

/-- For such an encoding it is enough to search the catalogue, and no decoder has to be built. -/
theorem Only.exists_decide {xlen : Xlen} {raw : Encoding} {mnemonic : String}
    (honly : Only xlen raw mnemonic) :
    ∃ entry, (InstructionSet.standard.decoder xlen).decide raw = .instruction entry ∧
      entry.declaration.mnemonic = mnemonic := by
  obtain ⟨declaration, hmem, haccepts, hwidth, hkind, hmnemonic, hunique⟩ := honly
  have hbuild := InstructionSet.decoder_of_build InstructionSet.build_standard xlen
  obtain ⟨id, hdecide⟩ := Decoder.decide_eq_instruction_of_unique hbuild hmem hwidth hkind haccepts
    fun other hother hotherWidth hotherAccepts => hunique other hother hotherAccepts hotherWidth
  exact ⟨⟨id, declaration⟩, hdecide, hmnemonic⟩

end Catalogue

namespace Hart

variable {hart after : Hart} {completion : Completion}

theorem attempt_cases_of_standard (hstandard : hart.instructions = .standard)
    (hattempt : hart.attempt = (completion, after)) :
    (∃ cause, (hart.fetch hart.pc).1 = .error cause ∧ cause ∈ TrapCause.faults .fetch ∧
      completion = .trapped ⟨cause, hart.pc⟩ none ∧ Undisturbed hart after) ∨
    ∃ raw ready, (hart.fetch hart.pc).1 = .ok raw ∧ Undisturbed hart ready ∧
      Performed Catalogue.bound ready raw completion after := by
  refine attempt_cases ?_ hattempt
  rw [hstandard, InstructionSet.build_standard]

theorem performed_of_retired (hstandard : hart.instructions = .standard)
    (hretired : hart.attempt.1 = .retired) :
    ∃ raw ready, (hart.fetch hart.pc).1 = .ok raw ∧ Undisturbed hart ready ∧
      Performed Catalogue.bound ready raw .retired hart.executeNext := by
  rcases hattempt : hart.attempt with ⟨completion, after⟩
  rw [hattempt] at hretired
  cases hretired
  have hnext : hart.executeNext = after := by rw [executeNext, hattempt]
  rw [hnext]
  rcases attempt_cases_of_standard hstandard hattempt with
    ⟨cause, -, -, hcompletion, -⟩ | hperformed
  · cases hcompletion
  · exact hperformed

/-- What is found for an encoding is carried out by a row, on the operands that it declares. -/
theorem dispatch_of_standard (hstandard : hart.instructions = .standard) {raw : Encoding}
    {entry : Entry} (hdecision : hart.decision raw = .instruction entry) :
    ∃ row ∈ Catalogue.bound, row.declaration = entry.declaration ∧
      hart.instructions.dispatch hart.xlen raw hart.pc =
        .execute row.binding (hart.operandsOf row raw) ∧
      (hart.operandsOf row raw).values =
        row.declaration.arguments.map (fun field => field.extract raw) ++
          (if row.binding.takesLength then [BitVec.ofNat 64 (EncodedLength.of raw).bytes] else []) ++
          (if row.binding.takesPc then [hart.pc] else []) := by
  have hset := InstructionSet.build_standard
  rw [← hstandard] at hset
  have hdispatch := InstructionSet.dispatch_of_decide hset hart.xlen raw hart.pc
  rw [← decision, hdecision] at hdispatch
  obtain ⟨row, hrow, hdeclaration, hdispatch⟩ := hdispatch
  rw [← hdeclaration] at hdispatch
  have hbuild := InstructionSet.decoder_of_build hset hart.xlen
  obtain ⟨-, hmem, hwidth, -, -⟩ := Decoder.decide_eq_instruction hbuild hdecision
  have hsound := Decoder.defect?_eq_none_of_build hbuild hmem hwidth
  rw [← hdeclaration] at hsound
  exact ⟨row, hrow, hdeclaration, hdispatch, BoundDecoder.operandsOf_values
    (Declaration.arity_le_of_defect?_eq_none hsound) raw hart.pc⟩

theorem exists_decision_of_only {raw : Encoding} {mnemonic : String}
    (hstandard : hart.instructions = .standard) (honly : Catalogue.Only hart.xlen raw mnemonic) :
    ∃ entry, hart.decision raw = .instruction entry ∧ entry.declaration.mnemonic = mnemonic := by
  rw [decision, hstandard]
  exact honly.exists_decide

/-- A hart after power-up, with an instruction before it. -/
def facing (raw : Word) : Hart :=
  let memory := MemoryMap.withRegion 0x1000 0x1000
  .initial .standard ((memory.store 0x1000 raw .word).toOption.getD memory) (.identity .empty)
    .x64 0x1000

theorem facing_instructions (raw : Word) : (facing raw).instructions = .standard := by
  rw [facing, initial]

end Hart

end RiscvMachine
