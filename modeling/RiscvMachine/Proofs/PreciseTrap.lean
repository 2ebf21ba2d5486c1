import RiscvMachine.Proofs.Standard
import RiscvMachine.Proofs.TrapEntry
/-!
Traps are precise. Whatever stops an instruction, it stops it before anything is written: the trap
is taken as if right before the instruction, with a value that depends on the cause alone.
-/

namespace RiscvMachine

namespace Hart

/-- The exceptions of a fetched instruction, with the values that come with them. -/
inductive Raises (hart : Hart) (raw : Encoding) : Exception → Prop
  /-- The encoding is undefined, or the mode may not execute the instruction. -/
  | illegal : Raises hart raw ⟨.illegalInstruction, raw.setWidth 64⟩
  | load {declaration : Declaration} {size : AccessSize} {signed : Bool}
      {destination base offset : OperandField} {cause : TrapCause}
      (hdeclaration : (hart.decision raw).declaration? = some declaration)
      (hform : .ofMnemonic declaration.mnemonic = Form.load size signed destination base offset)
      (hcause : cause ∈ TrapCause.faults .load) :
      Raises hart raw ⟨cause,
        hart.xlen.address (hart.readRegister (base.register raw) + offset.extract raw)⟩
  | store {declaration : Declaration} {size : AccessSize} {base source offset : OperandField}
      {cause : TrapCause} (hdeclaration : (hart.decision raw).declaration? = some declaration)
      (hform : .ofMnemonic declaration.mnemonic = Form.store size base source offset)
      (hcause : cause ∈ TrapCause.faults .store) :
      Raises hart raw ⟨cause,
        hart.xlen.address (hart.readRegister (base.register raw) + offset.extract raw)⟩
  | breakpoint {declaration : Declaration}
      (hdeclaration : (hart.decision raw).declaration? = some declaration)
      (hform : .ofMnemonic declaration.mnemonic = Form.environmentBreak) :
      Raises hart raw ⟨.breakpoint, hart.pc⟩
  | call {declaration : Declaration}
      (hdeclaration : (hart.decision raw).declaration? = some declaration)
      (hform : .ofMnemonic declaration.mnemonic = Form.environmentCall) :
      Raises hart raw ⟨.callFrom hart.privilege, 0⟩

inductive Stops (hart : Hart) : Exception → Prop
  | fetch {cause : TrapCause} (hfetch : (hart.fetch hart.pc).1 = .error cause)
      (hcause : cause ∈ TrapCause.faults .fetch) : Stops hart ⟨cause, hart.pc⟩
  | instruction {raw : Encoding} {exception : Exception}
      (hfetch : (hart.fetch hart.pc).1 = .ok raw) (hraises : hart.Raises raw exception) :
      Stops hart exception

end Hart

namespace TrapCause

theorem ne_illegal_of_mem_faults {cause : TrapCause} {access : Access}
    (hcause : cause ∈ faults access) : cause ≠ .illegalInstruction := by
  rintro rfl
  cases access <;> simp [faults, addressMisaligned, accessFault, pageFault] at hcause

end TrapCause

namespace Hart

variable {hart : Hart} {raw : Encoding} {row : Row}

theorem raises_of_failure {exception : Exception}
    (hdeclaration : (hart.decision raw).declaration? = some row.declaration)
    (hfits : row.Fits (.ofMnemonic row.declaration.mnemonic))
    (hfailure : Failure hart (hart.operandsOf row raw) row.binding.operation exception) :
    hart.Raises raw ⟨exception.cause, trapValue exception raw⟩ := by
  generalize hoperation : row.binding.operation = operation at hfailure
  cases hfailure with
  | refused => exact .illegal
  | @load size signed cause hcause =>
      have himplementation := hfits.implementation_eq (by rw [hoperation]; rfl)
      obtain ⟨destination, base, offset, hform⟩ := Form.eq_load himplementation hoperation
      have hvalues := hfits.values_eq (congrArg Form.implementation? hform) hart raw
      have haddress : hart.readRegister ((hart.operandsOf row raw).register 1) +
          (hart.operandsOf row raw).get 2 =
            hart.readRegister (base.register raw) + offset.extract raw := by
        simp [Operands.register, Operands.get, OperandField.register, hvalues]
      rw [trapValue, if_neg (TrapCause.ne_illegal_of_mem_faults hcause), haddress]
      exact .load hdeclaration hform hcause
  | @store size cause hcause =>
      obtain ⟨base, source, offset, hform, haddress⟩ :=
        hfits.exists_storeAddress hoperation hart raw
      rw [trapValue, if_neg (TrapCause.ne_illegal_of_mem_faults hcause), haddress]
      exact .store hdeclaration hform hcause
  | breakpoint =>
      have himplementation := hfits.implementation_eq (by rw [hoperation]; rfl)
      have hform := Form.eq_environmentBreak himplementation hoperation
      have hvalues := hfits.values_eq (congrArg Form.implementation? hform) hart raw
      have hpc : (hart.operandsOf row raw).get 0 = hart.pc := by
        simp [Operands.get, hvalues]
      have hcause : TrapCause.breakpoint ≠ .illegalInstruction := by decide
      rw [trapValue, if_neg hcause, hpc]
      exact .breakpoint hdeclaration hform

/-- An instruction that traps has written nothing, and no call is resumed behind the trap. -/
theorem raises_of_performed {completion : Completion} {exception : Exception}
    {resume : Option Word} {after : Hart} (hcompletion : completion = .trapped exception resume)
    (hperformed : Performed Catalogue.bound hart raw completion after) :
    hart.Raises raw exception ∧ resume = none ∧ Undisturbed hart after := by
  cases hperformed with
  | illegal journal =>
      cases hcompletion
      exact ⟨.illegal, rfl, hart.translation, journal, rfl⟩
  | nop => cases hcompletion
  | @failed entry row failure translation hdecision hrow hdeclaration hfailure =>
      cases hcompletion
      refine ⟨raises_of_failure ?_ (Catalogue.fits_of_mem_bound row hrow) hfailure, rfl,
        translation, hart.journal, rfl⟩
      rw [hdecision, hdeclaration]
      rfl
  | @called entry row hdecision hrow hdeclaration hoperation =>
      have hfits := Catalogue.fits_of_mem_bound row hrow
      have himplementation := hfits.implementation_eq (by rw [hoperation]; rfl)
      have hform := Form.eq_environmentCall himplementation hoperation
      obtain ⟨-, hbinding⟩ := hfits.eq_implementation (congrArg Form.implementation? hform)
      rw [hbinding] at hcompletion
      cases hcompletion
      refine ⟨.call ?_ hform, rfl, .refl hart⟩
      rw [hdecision, hdeclaration]
      rfl
  | succeeded => cases hcompletion

theorem Raises.of_undisturbed {ready : Hart} {exception : Exception}
    (hready : Undisturbed hart ready) (hraises : ready.Raises raw exception) :
    hart.Raises raw exception := by
  obtain ⟨translation, journal, rfl⟩ := hready
  cases hraises with
  | illegal => exact .illegal
  | load hdeclaration hform hcause => exact .load hdeclaration hform hcause
  | store hdeclaration hform hcause => exact .store hdeclaration hform hcause
  | breakpoint hdeclaration hform => exact .breakpoint hdeclaration hform
  | call hdeclaration hform => exact .call hdeclaration hform

theorem takes_of_undisturbed {stopped after : Hart} {exception : Exception}
    (hstopped : Undisturbed hart stopped)
    (htakes : (stopped.trapTarget exception.cause).Takes exception stopped after) :
    (hart.trapTarget exception.cause).Takes exception hart after := by
  obtain ⟨translation, journal, rfl⟩ := hstopped
  exact { htakes with }

/-- What stops an instruction, and that nothing else has happened when the trap is taken. -/
theorem stops_of_attempt {exception : Exception} {resume : Option Word} {stopped : Hart}
    (hstandard : hart.instructions = .standard)
    (hattempt : hart.attempt = (.trapped exception resume, stopped)) :
    hart.Stops exception ∧ resume = none ∧ Undisturbed hart stopped := by
  rcases attempt_cases_of_standard hstandard hattempt with
    ⟨cause, hfetch, hcause, hcompletion, hstopped⟩ | ⟨raw, ready, hfetch, hready, hperformed⟩
  · cases hcompletion
    exact ⟨.fetch hfetch hcause, rfl, hstopped⟩
  · obtain ⟨hraises, hresume, hstopped⟩ := raises_of_performed rfl hperformed
    exact ⟨.instruction hfetch (hraises.of_undisturbed hready), hresume, hready.trans hstopped⟩

theorem takes_of_attempt {exception : Exception} {resume : Option Word} {stopped : Hart}
    (hstandard : hart.instructions = .standard)
    (hattempt : hart.attempt = (.trapped exception resume, stopped)) :
    (hart.trapTarget exception.cause).Takes exception hart hart.executeNext := by
  obtain ⟨-, rfl, hstopped⟩ := stops_of_attempt hstandard hattempt
  have hnext : hart.executeNext = stopped.enterTrap exception.cause exception.value := by
    simp only [executeNext, hattempt, Option.getD_none]
  rw [hnext]
  exact takes_of_undisturbed hstopped (takes_enterTrap stopped exception)

end Hart

end RiscvMachine
