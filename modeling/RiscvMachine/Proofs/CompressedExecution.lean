import RiscvMachine.Proofs.Expansion
import RiscvMachine.Proofs.ProgramCounter
/-!
A 16-bit instruction does what its 32-bit expansion does. The two differ only where their lengths
count: in the address behind them, which is also the link of a jump.
-/

namespace RiscvMachine

/-- An instruction of this form goes on elsewhere than behind itself, unless it traps. -/
def Form.Redirects (form : Form) (hart : Hart) (raw : Encoding) : Prop :=
  match form with
  | plain | load .. | store .. | environmentCall | environmentBreak => False
  | branch condition left right _ =>
      condition.Compares (hart.readRegister (left.register raw))
        (hart.readRegister (right.register raw))
  | jump .. | jumpRegister .. | machineReturn | supervisorReturn => True

namespace Catalogue

theorem takesLength_of_plain : ∀ row ∈ bound, row.binding.operation.isPlain = true →
    row.binding.takesLength = false := by
  decide +kernel

/-- Calls and returns have no 16-bit encodings. -/
theorem full_of_trapBoundary : ∀ row ∈ bound, row.binding.pcUpdate = .trapBoundary →
    row.binding.operation = .environmentBreak ∨
      EncodedLength.of row.declaration.pattern = .full := by
  decide +kernel

end Catalogue

namespace Hart

/-- A hart carries out a 16-bit encoding and a 32-bit encoding alike, of which the second belongs to
an instruction of the given form. -/
inductive SameOutcome (hart : Hart) (form : Form) (short long : Encoding) :
    Completion × Hart → Completion × Hart → Prop
  /-- Each goes on behind itself, with the same changes to everything else. -/
  | advanced (after : Hart) (hform : ¬ form.Redirects hart long) :
      SameOutcome hart form short long
        (.retired, { after with pc := hart.reduced (hart.pc + 2) })
        (.retired, { after with pc := hart.reduced (hart.pc + 4) })
  /-- Both take the branch, and change nothing else. -/
  | branched (hform : form.Redirects hart long) (hlink : form.link? = none) :
      SameOutcome hart form short long
        (.retired, { hart with pc := hart.reduced (form.target hart long) })
        (.retired, { hart with pc := hart.reduced (form.target hart long) })
  /-- Both jump, and each links to the address behind itself. -/
  | linked (link : OperandField) (hlink : form.link? = some link) :
      SameOutcome hart form short long
        (.retired, { hart.writeRegister (link.register long) (hart.pc + 2) with
          pc := hart.reduced (form.target hart long) })
        (.retired, { hart.writeRegister (link.register long) (hart.pc + 4) with
          pc := hart.reduced (form.target hart long) })
  /-- Both trap for the same reason; an illegal instruction reports its own encoding. -/
  | trapped (cause : TrapCause) (value : Word) (after : Hart) :
      SameOutcome hart form short long
        (.trapped ⟨cause, if cause = .illegalInstruction then short.setWidth 64 else value⟩ none,
          after)
        (.trapped ⟨cause, if cause = .illegalInstruction then long.setWidth 64 else value⟩ none,
          after)

variable {hart : Hart} {form : Form} {short long : Encoding} {binding : Binding}

theorem nextPc_of_compressed (hshort : EncodedLength.of short = .compressed) :
    hart.nextPc short = hart.reduced (hart.pc + 2) := by
  rw [nextPc, hshort, reduced_eq]
  rfl

theorem nextPc_of_full (hlong : EncodedLength.of long = .full) :
    hart.nextPc long = hart.reduced (hart.pc + 4) := by
  rw [nextPc, hlong, reduced_eq]
  rfl

/-! ### Operations by their forms -/

theorem conclude_sequential (hupdate : binding.pcUpdate = .sequential) {flow : Flow}
    (hflow : flow ≠ .call) (after : Hart) (raw : Encoding) :
    hart.conclude raw binding (.ok flow, after) =
      (.retired, { after with pc := hart.nextPc raw }) := by
  rw [conclude, hupdate]
  · rfl
  · exact hflow

section Conclusions

variable (hshort : EncodedLength.of short = .compressed) (hlong : EncodedLength.of long = .full)
include hshort hlong

/-- Whatever an operation does that leaves the program counter alone, it does for both. -/
theorem sameOutcome_sequential {operands : Operands} (hupdate : binding.pcUpdate = .sequential)
    (hoperation : binding.operation ≠ .environmentCall)
    (hform : ¬ form.Redirects hart long) :
    SameOutcome hart form short long
      (hart.conclude short binding (binding.operation.execute operands hart))
      (hart.conclude long binding (binding.operation.execute operands hart)) := by
  rcases hexecute : binding.operation.execute operands hart with ⟨exception | flow, after⟩
  · exact .trapped exception.cause exception.value _
  · have hflow : flow ≠ .call := by
      rintro rfl
      exact hoperation (effect_call (execute_eq_ok hexecute)).1
    rw [conclude_sequential hupdate hflow, conclude_sequential hupdate hflow,
      nextPc_of_compressed hshort, nextPc_of_full hlong]
    exact .advanced after hform

theorem sameOutcome_branch {condition : Condition} {left right offset : OperandField}
    {operands : Operands} (hvalues : operands.values =
      [left.extract long, right.extract long, offset.extract long] ++ [] ++ [hart.pc]) :
    SameOutcome hart (.branch condition left right offset) short long
      (hart.conclude short ⟨.branch condition, false, true, .branch⟩
        ((Operation.branch condition).execute operands hart))
      (hart.conclude long ⟨.branch condition, false, true, .branch⟩
        ((Operation.branch condition).execute operands hart)) := by
  rw [Operation.execute, executeBranch_of_values condition hvalues]
  split
  · rename_i hholds
    have htarget : (Form.branch condition left right offset).target hart long =
        hart.pc + offset.extract long := if_pos hholds
    rw [setPc, ← reduced_eq, ← htarget]
    exact .branched hholds rfl
  · rename_i hholds
    simp only [conclude, PcUpdate.advances, nextPc_of_compressed hshort, nextPc_of_full hlong]
    exact .advanced hart hholds

end Conclusions

theorem sameOutcome_jump {link : OperandField} (hlink : form.link? = some link)
    (hupdate : binding.pcUpdate = .jump) :
    SameOutcome hart form short long
      (hart.conclude short binding (.ok .taken,
        (hart.writeRegister (link.register long) (hart.pc + 2)).setPc (form.target hart long)))
      (hart.conclude long binding (.ok .taken,
        (hart.writeRegister (link.register long) (hart.pc + 4)).setPc (form.target hart long))) := by
  have hconclude (raw : Encoding) (length : Word) : hart.conclude raw binding (.ok .taken,
      (hart.writeRegister (link.register long) (hart.pc + length)).setPc (form.target hart long)) =
        (.retired, { hart.writeRegister (link.register long) (hart.pc + length) with
          pc := hart.reduced (form.target hart long) }) := by
    rw [reduced_eq, conclude, hupdate]
    · rfl
    · simp
  rw [hconclude, hconclude]
  exact .linked link hlink

/-! ### Encodings and their expansions -/

/-- The rows that carry out a 16-bit encoding and its expansion have the same operands. -/
structure Expands (hart : Hart) (rule : Expansion) (raw : Encoding) (first second : Row) : Prop where
  mem : first ∈ Catalogue.bound
  mem_expand : second ∈ Catalogue.bound
  dispatch : hart.instructions.dispatch hart.xlen raw hart.pc =
    .execute first.binding (hart.operandsOf first raw)
  dispatch_expand : hart.instructions.dispatch hart.xlen (rule.expand raw) hart.pc =
    .execute second.binding (hart.operandsOf second (rule.expand raw))
  binding : second.binding = first.binding
  values : (hart.operandsOf first raw).values =
    second.declaration.arguments.map (fun field => field.extract (rule.expand raw)) ++
      (if second.binding.takesLength then [BitVec.ofNat 64 (EncodedLength.of raw).bytes] else []) ++
      (if second.binding.takesPc then [hart.pc] else [])
  values_expand : (hart.operandsOf second (rule.expand raw)).values =
    second.declaration.arguments.map (fun field => field.extract (rule.expand raw)) ++
      (if second.binding.takesLength then
        [BitVec.ofNat 64 (EncodedLength.of (rule.expand raw)).bytes] else []) ++
      (if second.binding.takesPc then [hart.pc] else [])

theorem exists_expands {rule : Expansion} {entry expanded : Entry}
    (hstandard : hart.instructions = .standard) (hdecision : hart.decision short = .instruction entry)
    (hexpanded : hart.decision (rule.expand short) = .instruction expanded)
    (hrelates : rule.Relates hart.xlen entry.declaration expanded.declaration) :
    ∃ first second, first.declaration = entry.declaration ∧
      second.declaration = expanded.declaration ∧ Expands hart rule short first second := by
  obtain ⟨first, hfirst, hdeclaration, hdispatch, hvalues⟩ := dispatch_of_standard hstandard hdecision
  obtain ⟨second, hsecond, hlongDeclaration, hlongDispatch, hlongValues⟩ :=
    dispatch_of_standard hstandard hexpanded
  obtain ⟨-, hencodes, hfields, hbindings⟩ := hrelates
  rw [← hdeclaration, ← hlongDeclaration] at hfields hbindings
  have hbinding : second.binding = first.binding := by
    rw [of?_of_mem_boundRows hfirst, of?_of_mem_boundRows hsecond] at hbindings
    exact (Option.some.inj hbindings).symm
  rw [← Expansion.map_extract_expand hencodes.2.1 hfields, ← hbinding] at hvalues
  exact ⟨first, second, hdeclaration, hlongDeclaration,
    ⟨hfirst, hsecond, hdispatch, hlongDispatch, hbinding, hvalues, hlongValues⟩⟩

namespace Expands

variable {rule : Expansion} {first second : Row} (hexpands : Expands hart rule short first second)
include hexpands

theorem operandsOf_eq (hlength : second.binding.takesLength = false) :
    hart.operandsOf first short = hart.operandsOf second (rule.expand short) := by
  have hvalues := hexpands.values
  have hlongValues := hexpands.values_expand
  rw [hlength] at hvalues hlongValues
  rw [Operands.mk.injEq, hvalues, hlongValues]
  rfl

/-- The operands of an instruction with a length, which comes before the program counter. -/
theorem values_of_takesLength (hshort : EncodedLength.of short = .compressed)
    (hlong : EncodedLength.of (rule.expand short) = .full)
    {arguments : List OperandField} {operation : Operation} {update : PcUpdate}
    (harguments : second.declaration.arguments = arguments)
    (hbinding : second.binding = ⟨operation, true, true, update⟩) :
    (hart.operandsOf first short).values =
        arguments.map (fun field => field.extract (rule.expand short)) ++ [2] ++ [hart.pc] ∧
      (hart.operandsOf second (rule.expand short)).values =
        arguments.map (fun field => field.extract (rule.expand short)) ++ [4] ++ [hart.pc] := by
  rw [hexpands.values, hexpands.values_expand, harguments, hbinding, hshort, hlong]
  exact ⟨rfl, rfl⟩

end Expands

/-- The two encodings have the same outcome, case by case of the form of the longer one. -/
theorem sameOutcome_of_expands {rule : Expansion} {first second : Row}
    (hshort : EncodedLength.of short = .compressed)
    (hlong : EncodedLength.of (rule.expand short) = .full)
    (hpattern : EncodedLength.of first.declaration.pattern = .compressed)
    (hexpands : Expands hart rule short first second) :
    SameOutcome hart (.ofMnemonic second.declaration.mnemonic) short (rule.expand short)
      (hart.perform short) (hart.perform (rule.expand short)) := by
  have hfits := Catalogue.fits_of_mem_bound second hexpands.mem_expand
  have hbreak (hupdate : second.binding.pcUpdate = .trapBoundary) :
      second.binding.operation = .environmentBreak := by
    rw [hexpands.binding] at hupdate ⊢
    have hchoice := Catalogue.full_of_trapBoundary first hexpands.mem hupdate
    exact hchoice.resolve_right (by rw [hpattern]; decide)
  rw [perform_of_dispatch hexpands.dispatch, perform_of_dispatch hexpands.dispatch_expand,
    ← hexpands.binding]
  generalize Form.ofMnemonic second.declaration.mnemonic = form at hfits ⊢
  cases form with
  | plain =>
      rcases hfits with hsome | ⟨-, hplain, hupdate⟩
      · cases hsome
      · have hlength := Catalogue.takesLength_of_plain second hexpands.mem_expand hplain
        rw [hexpands.operandsOf_eq hlength]
        refine sameOutcome_sequential hshort hlong hupdate (fun hcall => ?_) id
        rw [hcall] at hplain
        cases hplain
  | load size signed destination base offset =>
      obtain ⟨-, hbinding⟩ := hfits.eq_implementation rfl
      rw [hexpands.operandsOf_eq (congrArg Binding.takesLength hbinding), hbinding]
      exact sameOutcome_sequential hshort hlong rfl (by simp) id
  | store size base source offset =>
      obtain ⟨-, hbinding⟩ := hfits.eq_implementation rfl
      rw [hexpands.operandsOf_eq (congrArg Binding.takesLength hbinding), hbinding]
      exact sameOutcome_sequential hshort hlong rfl (by simp) id
  | branch condition left right offset =>
      obtain ⟨-, hbinding⟩ := hfits.eq_implementation rfl
      rw [hexpands.operandsOf_eq (congrArg Binding.takesLength hbinding), hbinding]
      exact sameOutcome_branch hshort hlong (hfits.values_eq rfl hart _)
  | jump link offset =>
      obtain ⟨harguments, hbinding⟩ := hfits.eq_implementation rfl
      obtain ⟨hvalues, hlongValues⟩ :=
        hexpands.values_of_takesLength hshort hlong harguments hbinding
      rw [hbinding, Operation.execute, Operation.execute, executeJump_of_values hvalues,
        executeJump_of_values hlongValues]
      exact sameOutcome_jump rfl rfl
  | jumpRegister link base offset =>
      obtain ⟨harguments, hbinding⟩ := hfits.eq_implementation rfl
      obtain ⟨hvalues, hlongValues⟩ :=
        hexpands.values_of_takesLength hshort hlong harguments hbinding
      rw [hbinding, Operation.execute, Operation.execute, executeJumpRegister_of_values hvalues,
        executeJumpRegister_of_values hlongValues]
      exact sameOutcome_jump rfl rfl
  | environmentBreak =>
      obtain ⟨-, hbinding⟩ := hfits.eq_implementation rfl
      rw [hexpands.operandsOf_eq (congrArg Binding.takesLength hbinding), hbinding]
      exact .trapped _ _ _
  | environmentCall | machineReturn | supervisorReturn =>
      obtain ⟨-, hbinding⟩ := hfits.eq_implementation rfl
      have hoperation := hbreak (congrArg Binding.pcUpdate hbinding)
      rw [hbinding] at hoperation
      cases hoperation

/-- Every 16-bit instruction behaves as the 32-bit instruction that it expands to. -/
theorem sameOutcome_perform_expand {xlen : Xlen} {short : Encoding} {entry : Entry}
    (hshort : EncodedLength.of short = .compressed)
    (hdecide : (InstructionSet.standard.decoder xlen).decide short = .instruction entry) :
    ∃ rule expanded, Expansion.find? xlen short = some rule ∧
      entry.declaration.mnemonic = rule.short ∧
      (InstructionSet.standard.decoder xlen).decide (rule.expand short) = .instruction expanded ∧
      expanded.declaration.mnemonic = rule.long ∧
      EncodedLength.of (rule.expand short) = .full ∧
      ∀ hart : Hart, hart.instructions = .standard → hart.xlen = xlen →
        SameOutcome hart (.ofMnemonic rule.long) short (rule.expand short) (hart.perform short)
          (hart.perform (rule.expand short)) := by
  obtain ⟨rule, long, id, hfind, hrelates, hexpanded, hlong⟩ :=
    Expansion.exists_decide_expand hshort hdecide
  refine ⟨rule, ⟨id, long⟩, hfind, hrelates.1, hexpanded, hrelates.2.1.1, hlong, ?_⟩
  rintro hart hstandard rfl
  have hbuild := InstructionSet.decoder_of_build InstructionSet.build_standard hart.xlen
  obtain ⟨-, hmem, hwidth, -, haccepts⟩ := Decoder.decide_eq_instruction hbuild hdecide
  have hsound := Decoder.defect?_eq_none_of_build hbuild hmem hwidth
  rw [← hstandard] at hdecide hexpanded
  obtain ⟨first, second, hdeclaration, hlongDeclaration, hexpands⟩ :=
    exists_expands hstandard hdecide hexpanded hrelates
  have hpattern : EncodedLength.of first.declaration.pattern = .compressed := by
    rw [hdeclaration, ← Declaration.length_of_accepts hsound haccepts, hshort]
  have hsame := sameOutcome_of_expands hshort hlong hpattern hexpands
  rwa [hlongDeclaration, hrelates.2.1.1] at hsame

/-- The call `c.jal 16` of a 32-bit hart links to the address behind its two bytes, and `jal x1, 16`
to that behind its four. -/
theorem sameOutcome_perform_expand_call :
    EncodedLength.of 0x2801 = .compressed ∧
      ∃ entry, (InstructionSet.standard.decoder .x32).decide 0x2801 = .instruction entry ∧
        ∃ rule expanded, Expansion.find? .x32 0x2801 = some rule ∧
          entry.declaration.mnemonic = rule.short ∧ rule.expand 0x2801 = 0x010000EF ∧
          (InstructionSet.standard.decoder .x32).decide 0x010000EF = .instruction expanded ∧
          expanded.declaration.mnemonic = rule.long ∧
          ∀ hart : Hart, hart.instructions = .standard → hart.xlen = .x32 →
            ∃ short long, hart.perform 0x2801 = (.retired, short) ∧
              hart.perform 0x010000EF = (.retired, long) ∧
              short.pc = ((hart.pc + 16).setWidth 32).setWidth 64 ∧ long.pc = short.pc ∧
              short.readRegister 1 = ((hart.pc + 2).setWidth 32).signExtend 64 ∧
              long.readRegister 1 = ((hart.pc + 4).setWidth 32).signExtend 64 := by
  have hshort : EncodedLength.of 0x2801 = .compressed := by decide
  have honly : Catalogue.Only .x32 0x2801 "C.JAL" := by decide +kernel
  obtain ⟨entry, hdecide, hmnemonic⟩ := honly.exists_decide
  obtain ⟨rule, expanded, hfind, hname, hexpanded, hlong, -, hsame⟩ :=
    sameOutcome_perform_expand hshort hdecide
  have hrules : ∀ rule ∈ Expansion.find? .x32 0x2801,
      rule.long = "JAL" ∧ rule.expand 0x2801 = 0x010000EF := by
    decide +kernel
  obtain ⟨hjump, hexpand⟩ := hrules rule hfind
  rw [hexpand] at hexpanded hsame
  refine ⟨hshort, entry, hdecide, rule, expanded, hfind, hname, hexpand, hexpanded, hlong, ?_⟩
  intro hart hstandard hxlen
  have hretired : (hart.perform 0x2801).1 = .retired := by
    rw [← hstandard, ← hxlen] at hdecide
    exact perform_of_links hstandard hdecide (by rw [hmnemonic]; rfl)
  have hlinked (value : Word) :
      (hart.writeRegister 1 value).readRegister 1 = (value.setWidth 32).signExtend 64 := by
    rw [readRegister, writeRegister, RegisterFile.read_write, if_pos (by decide),
      Xlen.normalize_eq_signExtend, hxlen, Xlen.bits]
  have hsame := hsame hart hstandard hxlen
  rw [hjump] at hsame
  generalize hart.perform 0x2801 = first at hretired hsame ⊢
  generalize hart.perform 0x010000EF = second at hsame ⊢
  cases hsame with
  | advanced after hform => exact absurd trivial hform
  | branched hform hlink => cases hlink
  | linked link hlink =>
      cases hlink
      refine ⟨_, _, rfl, rfl, ?_, rfl, hlinked _, hlinked _⟩
      rw [reduced, hxlen]
      rfl
  | trapped cause value after => cases hretired

end Hart

end RiscvMachine
