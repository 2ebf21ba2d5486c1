import RiscvMachine.Proofs.Standard
import RiscvMachine.Proofs.Width
/-!
Where an instruction of the standard set leaves the program counter. An operation that redirects it
is bound so that nothing is added afterwards, and every other one so that the advance is not lost.
-/

namespace RiscvMachine

/-- The comparison that a branch makes: of words, of signed numbers, or of unsigned numbers. -/
def Condition.Compares : Condition → Word → Word → Prop
  | equal, left, right => left = right
  | notEqual, left, right => left ≠ right
  | less, left, right => left.toInt < right.toInt
  | greaterOrEqual, left, right => right.toInt ≤ left.toInt
  | lessUnsigned, left, right => left.toNat < right.toNat
  | greaterOrEqualUnsigned, left, right => right.toNat ≤ left.toNat

theorem Condition.holds_iff (condition : Condition) (left right : Word) :
    condition.holds left right = true ↔ condition.Compares left right := by
  cases condition with
  | equal => exact beq_iff_eq
  | notEqual => exact bne_iff_ne
  | less => exact BitVec.slt_iff_toInt_lt
  | greaterOrEqual =>
      rw [holds, Bool.not_eq_true', Bool.eq_false_iff, ne_eq, BitVec.slt_iff_toInt_lt, Int.not_lt]
      rfl
  | lessUnsigned => exact BitVec.ult_iff_lt
  | greaterOrEqualUnsigned =>
      rw [holds, Bool.not_eq_true', Bool.eq_false_iff, ne_eq, BitVec.ult_iff_lt, BitVec.not_lt]
      rfl

instance (condition : Condition) (left right : Word) : Decidable (condition.Compares left right) :=
  decidable_of_iff _ (condition.holds_iff left right)

/-- The address behind an instruction, which takes four bytes if the two low bits of its encoding
are ones, and two bytes otherwise. -/
def Hart.behind (hart : Hart) (raw : Encoding) : Word :=
  hart.pc + if raw &&& 3 = 3 then 4 else 2

/-- The bits of an address that the register width has. -/
def Hart.reduced (hart : Hart) (address : Word) : Word :=
  (address.setWidth hart.xlen.bits).setWidth 64

namespace Form

/-- The address at which execution goes on after an instruction that does not trap. -/
def target (form : Form) (hart : Hart) (raw : Encoding) : Word :=
  match form with
  | plain | load .. | store .. | environmentCall | environmentBreak => hart.behind raw
  | branch condition left right offset =>
      if condition.Compares (hart.readRegister (left.register raw))
          (hart.readRegister (right.register raw)) then
        hart.pc + offset.extract raw
      else hart.behind raw
  | jump _ offset => hart.pc + offset.extract raw
  | jumpRegister _ base offset =>
      (hart.readRegister (base.register raw) + offset.extract raw) &&& ~~~1
  | machineReturn => hart.controls.read Csr.machineExceptionPc &&& ~~~1
  | supervisorReturn => hart.controls.read Csr.supervisorExceptionPc &&& ~~~1

def link? : Form → Option OperandField
  | jump link _ | jumpRegister link _ _ => some link
  | _ => none

end Form

namespace Hart

/-- The second hart goes on where the form of an instruction says, and a jump has linked. -/
structure Advanced (form : Form) (raw : Encoding) (before after : Hart) : Prop where
  pc : after.pc = before.reduced (form.target before raw)
  link : ∀ field ∈ form.link?, after.registers = before.registers.write (field.register raw)
    (((before.behind raw).setWidth before.xlen.bits).signExtend 64)

variable {hart after : Hart} {raw : Encoding} {row : Row} {flow : Flow}

theorem behind_eq (hart : Hart) (raw : Encoding) :
    hart.behind raw = hart.pc + BitVec.ofNat 64 (EncodedLength.of raw).bytes := by
  rw [behind, EncodedLength.of]
  split <;> rfl

theorem reduced_eq (hart : Hart) (address : Word) : hart.reduced address = hart.xlen.address address :=
  (hart.xlen.address_eq_setWidth address).symm

theorem reduced_behind (hart : Hart) (raw : Encoding) :
    hart.reduced (hart.behind raw) = hart.nextPc raw := by
  rw [reduced_eq, behind_eq, nextPc]

theorem advanced_sequential {form : Form} (htarget : form.target hart raw = hart.behind raw)
    (hlink : form.link? = none) : Advanced form raw hart { after with pc := hart.nextPc raw } where
  pc := by rw [htarget, reduced_behind]
  link := by simp [hlink]

/-! ### Operations on the operands of their forms -/

section Values

variable {operands : Operands} {left right link base offset : OperandField} {length : Word}

theorem executeBranch_of_values (condition : Condition) (hvalues : operands.values =
      [left.extract raw, right.extract raw, offset.extract raw] ++ [] ++ [hart.pc]) :
    hart.executeBranch condition operands =
      if condition.Compares (hart.readRegister (left.register raw))
          (hart.readRegister (right.register raw)) then
        (.ok .taken, hart.setPc (hart.pc + offset.extract raw))
      else (.ok .next, hart) := by
  have hregisters : operands.register 0 = left.register raw ∧
      operands.register 1 = right.register raw := by
    simp [Operands.register, Operands.get, OperandField.register, hvalues]
  have htarget : operands.get 3 + operands.get 2 = hart.pc + offset.extract raw := by
    simp [Operands.get, hvalues]
  simp only [executeBranch, hregisters, htarget, condition.holds_iff]

/-- A jump depends on its length through the link alone. -/
theorem executeJump_of_values
    (hvalues : operands.values = [link.extract raw, offset.extract raw] ++ [length] ++ [hart.pc]) :
    hart.executeJump operands =
      (.ok .taken, (hart.writeRegister (link.register raw) (hart.pc + length)).setPc
        (hart.pc + offset.extract raw)) := by
  simp [executeJump, Operands.register, Operands.get, OperandField.register, hvalues]

/-- The target is that of the old base, also where the link replaces it. -/
theorem executeJumpRegister_of_values (hvalues : operands.values =
      [link.extract raw, base.extract raw, offset.extract raw] ++ [length] ++ [hart.pc]) :
    hart.executeJumpRegister operands =
      (.ok .taken, (hart.writeRegister (link.register raw) (hart.pc + length)).setPc
        ((hart.readRegister (base.register raw) + offset.extract raw) &&& ~~~1)) := by
  simp [executeJumpRegister, Operands.register, Operands.get, OperandField.register, hvalues]

end Values

theorem advanced_branch {condition : Condition} {left right offset : OperandField}
    (hfits : row.Fits (.branch condition left right offset))
    (hexecute : row.binding.operation.execute (hart.operandsOf row raw) hart = (.ok flow, after)) :
    Advanced (.branch condition left right offset) raw hart (hart.finish row raw flow after) := by
  obtain ⟨-, hbinding⟩ := hfits.eq_implementation rfl
  rw [hbinding, Operation.execute,
    executeBranch_of_values condition (hfits.values_eq rfl hart raw)] at hexecute
  rw [finish, hbinding]
  split at hexecute
  · rename_i hholds
    cases hexecute
    exact ⟨by simp [Form.target, hholds, PcUpdate.advances, setPc, reduced_eq], by simp [Form.link?]⟩
  · rename_i hholds
    cases hexecute
    exact ⟨by simp [Form.target, hholds, PcUpdate.advances, reduced_behind], by simp [Form.link?]⟩

/-- A hart that has written the link and jumped to the target of a form. -/
theorem advanced_linked {form : Form} {link : OperandField} (hlink : form.link? = some link) :
    Advanced form raw hart ((hart.writeRegister (link.register raw)
      (hart.pc + BitVec.ofNat 64 (EncodedLength.of raw).bytes)).setPc (form.target hart raw)) where
  pc := (hart.reduced_eq _).symm
  link := by
    intro field hfield
    cases hlink.symm.trans hfield
    rw [behind_eq, ← Xlen.normalize_eq_signExtend]
    rfl

theorem advanced_jump {link offset : OperandField} (hfits : row.Fits (.jump link offset))
    (hexecute : row.binding.operation.execute (hart.operandsOf row raw) hart = (.ok flow, after)) :
    Advanced (.jump link offset) raw hart (hart.finish row raw flow after) := by
  obtain ⟨-, hbinding⟩ := hfits.eq_implementation rfl
  rw [hbinding, Operation.execute, executeJump_of_values (hfits.values_eq rfl hart raw)] at hexecute
  rw [finish, hbinding]
  cases hexecute
  exact advanced_linked rfl

theorem advanced_jumpRegister {link base offset : OperandField}
    (hfits : row.Fits (.jumpRegister link base offset))
    (hexecute : row.binding.operation.execute (hart.operandsOf row raw) hart = (.ok flow, after)) :
    Advanced (.jumpRegister link base offset) raw hart (hart.finish row raw flow after) := by
  obtain ⟨-, hbinding⟩ := hfits.eq_implementation rfl
  rw [hbinding, Operation.execute,
    executeJumpRegister_of_values (hfits.values_eq rfl hart raw)] at hexecute
  rw [finish, hbinding]
  cases hexecute
  exact advanced_linked rfl

/-- What an instruction that retires does to the program counter is what its form says. -/
theorem advanced_of_execute {form : Form} (hfits : row.Fits form) (hflow : flow ≠ .call)
    (hexecute : row.binding.operation.execute (hart.operandsOf row raw) hart = (.ok flow, after)) :
    Advanced form raw hart (hart.finish row raw flow after) := by
  -- The forms whose program counter is moved on whatever the operation reports.
  have sequential (hupdate : row.binding.pcUpdate = .sequential)
      (htarget : form.target hart raw = hart.behind raw) (hlink : form.link? = none) : Advanced form raw hart (hart.finish row raw flow after) := by
    rw [finish, hupdate]
    exact advanced_sequential htarget hlink
  cases form with
  | plain =>
      rcases hfits with hsome | ⟨-, -, hupdate⟩
      · cases hsome
      · exact sequential hupdate rfl rfl
  | load size signed destination base offset =>
      exact sequential (congrArg Binding.pcUpdate (hfits.eq_implementation rfl).2) rfl rfl
  | store size base source offset =>
      exact sequential (congrArg Binding.pcUpdate (hfits.eq_implementation rfl).2) rfl rfl
  | branch condition left right offset => exact advanced_branch hfits hexecute
  | jump link offset => exact advanced_jump hfits hexecute
  | jumpRegister link base offset => exact advanced_jumpRegister hfits hexecute
  | environmentCall =>
      rw [(hfits.eq_implementation rfl).2] at hexecute
      cases hexecute
      exact absurd rfl hflow
  | environmentBreak =>
      rw [(hfits.eq_implementation rfl).2] at hexecute
      cases hexecute
  | machineReturn =>
      obtain ⟨-, hbinding⟩ := hfits.eq_implementation rfl
      rw [hbinding] at hexecute
      rw [finish, hbinding]
      obtain ⟨hreturn, rfl⟩ := complete_eq_ok hexecute
      obtain ⟨-, rfl⟩ := machineReturn_eq_ok hreturn
      exact ⟨(hart.reduced_eq _).symm, by simp [Form.link?]⟩
  | supervisorReturn =>
      obtain ⟨-, hbinding⟩ := hfits.eq_implementation rfl
      rw [hbinding] at hexecute
      rw [finish, hbinding]
      obtain ⟨hreturn, rfl⟩ := complete_eq_ok hexecute
      obtain ⟨-, rfl⟩ := supervisorReturn_eq_ok hreturn
      exact ⟨(hart.reduced_eq _).symm, by simp [Form.link?]⟩

theorem Advanced.of_undisturbed {form : Form} {ready : Hart} (hready : Undisturbed hart ready)
    (hadvanced : Advanced form raw ready after) : Advanced form raw hart after := by
  obtain ⟨translation, journal, rfl⟩ := hready
  exact ⟨hadvanced.pc, hadvanced.link⟩

theorem advanced_of_performed (hstandard : hart.instructions = .standard)
    (hperformed : Performed Catalogue.bound hart raw .retired after) :
    ∃ declaration, (hart.decision raw).declaration? = some declaration ∧
      Advanced (.ofMnemonic declaration.mnemonic) raw hart after := by
  generalize hcompletion : Completion.retired = completion at hperformed
  cases hperformed with
  | illegal => cases hcompletion
  | failed => cases hcompletion
  | called => cases hcompletion
  | @nop entry hdecision =>
      refine ⟨entry.declaration, by rw [hdecision]; rfl, ?_⟩
      have hbuild := InstructionSet.decoder_of_build InstructionSet.build_standard hart.xlen
      have hdecide : (InstructionSet.standard.decoder hart.xlen).decide raw = .nop entry := by
        rw [← hstandard]
        exact hdecision
      obtain ⟨hmem, hkind⟩ := Decoder.decide_eq_nop hbuild hdecide
      rw [Catalogue.plain_of_nop _ hmem hkind]
      exact advanced_sequential rfl rfl
  | @succeeded entry row flow after hdecision hrow hdeclaration hflow hexecute =>
      refine ⟨entry.declaration, by rw [hdecision]; rfl, ?_⟩
      rw [← hdeclaration]
      exact advanced_of_execute (Catalogue.fits_of_mem_bound row hrow) hflow hexecute

/-- A jump never traps. -/
theorem perform_of_links {entry : Entry} (hstandard : hart.instructions = .standard)
    (hdecision : hart.decision raw = .instruction entry)
    (hlinks : (Form.ofMnemonic entry.declaration.mnemonic).link?.isSome) :
    (hart.perform raw).1 = .retired := by
  obtain ⟨row, hrow, hdeclaration, hdispatch, -⟩ := dispatch_of_standard hstandard hdecision
  have hfits := Catalogue.fits_of_mem_bound row hrow
  rw [hdeclaration] at hfits
  rw [perform_of_dispatch hdispatch]
  generalize Form.ofMnemonic entry.declaration.mnemonic = form at hfits hlinks
  cases form with
  | jump link offset =>
      rw [(hfits.eq_implementation rfl).2]
      rfl
  | jumpRegister link base offset =>
      rw [(hfits.eq_implementation rfl).2]
      rfl
  | _ => cases hlinks

theorem attempt_of_links {mnemonic : String} (hstandard : hart.instructions = .standard)
    (hfetch : (hart.fetch hart.pc).1 = .ok raw) (honly : Catalogue.Only hart.xlen raw mnemonic)
    (hlinks : (Form.ofMnemonic mnemonic).link?.isSome) : hart.attempt.1 = .retired := by
  obtain ⟨entry, hdecision, rfl⟩ := exists_decision_of_only hstandard honly
  obtain ⟨ready, hready, hattempt⟩ := attempt_of_fetch hfetch
  rw [← hready.decision_eq raw] at hdecision
  rw [hattempt]
  exact perform_of_links (hready.instructions_eq.trans hstandard) hdecision hlinks

/-- Where one declaration alone accepts the fetched encoding, that is the one that has advanced. -/
theorem advanced_of_only {mnemonic : String} (hstandard : hart.instructions = .standard)
    (hfetch : (hart.fetch hart.pc).1 = .ok raw) (honly : Catalogue.Only hart.xlen raw mnemonic)
    (hadvanced : ∃ fetched declaration, (hart.fetch hart.pc).1 = .ok fetched ∧
      (hart.decision fetched).declaration? = some declaration ∧
      Advanced (.ofMnemonic declaration.mnemonic) fetched hart after) :
    Advanced (.ofMnemonic mnemonic) raw hart after := by
  obtain ⟨entry, hdecision, rfl⟩ := exists_decision_of_only hstandard honly
  obtain ⟨fetched, declaration, hfetched, hdeclaration, hadvanced⟩ := hadvanced
  cases hfetch.symm.trans hfetched
  rw [hdecision] at hdeclaration
  cases hdeclaration
  exact hadvanced

/-- After an instruction that does not trap, execution goes on at the target of its form. -/
theorem executeNext_advanced (hstandard : hart.instructions = .standard)
    (hretired : hart.attempt.1 = .retired) :
    ∃ raw declaration, (hart.fetch hart.pc).1 = .ok raw ∧
      (hart.decision raw).declaration? = some declaration ∧
      Advanced (.ofMnemonic declaration.mnemonic) raw hart hart.executeNext := by
  obtain ⟨raw, ready, hfetch, hready, hperformed⟩ := performed_of_retired hstandard hretired
  obtain ⟨declaration, hdecision, hadvanced⟩ :=
    advanced_of_performed (hready.instructions_eq.trans hstandard) hperformed
  rw [hready.decision_eq] at hdecision
  exact ⟨raw, declaration, hfetch, hdecision, hadvanced.of_undisturbed hready⟩

/-- The jump `jalr x5, 3(x5)` replaces its own base with the address behind its four bytes, and
`c.jal 16` of a 32-bit hart links to the address behind its two bytes. -/
theorem executeNext_advanced_selfLink :
    let full := { facing 0x003282E7 with registers := (RegisterFile.zero 32).write 5 0x1100 }
    let short := { facing 0x2801 with xlen := .x32 }
    full.attempt.1 = .retired ∧ full.executeNext.pc = 0x1102 ∧
      full.executeNext.readRegister 5 = 0x1004 ∧
      short.attempt.1 = .retired ∧ short.executeNext.pc = 0x1010 ∧
      short.executeNext.readRegister 1 = 0x1002 := by
  intro full short
  have hfullStandard : full.instructions = .standard := by simp only [full, facing_instructions]
  have hfullFetch : (full.fetch full.pc).1 = .ok 0x003282E7 := by decide +kernel
  have hfullOnly : Catalogue.Only full.xlen 0x003282E7 "JALR" := by decide +kernel
  have hfull := attempt_of_links hfullStandard hfullFetch hfullOnly rfl
  have hfullNext := advanced_of_only hfullStandard hfullFetch hfullOnly
    (executeNext_advanced hfullStandard hfull)
  have hshortStandard : short.instructions = .standard := by simp only [short, facing_instructions]
  have hshortFetch : (short.fetch short.pc).1 = .ok 0x2801 := by decide +kernel
  have hshortOnly : Catalogue.Only short.xlen 0x2801 "C.JAL" := by decide +kernel
  have hshort := attempt_of_links hshortStandard hshortFetch hshortOnly rfl
  have hshortNext := advanced_of_only hshortStandard hshortFetch hshortOnly
    (executeNext_advanced hshortStandard hshort)
  have hfullLink : full.executeNext.readRegister 5 = 0x1004 := by
    rw [readRegister, hfullNext.link OperandField.rd rfl]
    decide +kernel
  have hshortLink : short.executeNext.readRegister 1 = 0x1002 := by
    rw [readRegister, hshortNext.link OperandField.x1 rfl]
    decide +kernel
  exact ⟨hfull, hfullNext.pc.trans (by decide +kernel), hfullLink,
    hshort, hshortNext.pc.trans (by decide +kernel), hshortLink⟩

end Hart

end RiscvMachine
