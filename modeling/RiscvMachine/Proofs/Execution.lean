import RiscvMachine.Hart.Execute
import RiscvMachine.Proofs.Access
import RiscvMachine.Proofs.Except
/-!
What an operation can do. `Hart.Effect` lists the changes with which operations succeed, and
`Hart.Failure` the exceptions that they report; every property of a single instruction is a case
distinction on these two relations.
-/

namespace RiscvMachine

namespace Operation

/-- The operation writes a value to its destination register and does nothing else. -/
def isComputation : Operation → Bool
  | loadUpper | addUpperToPc | immediate _ | register _ | immediateLow _ | registerLow _ => true
  | _ => false

def isCsrAccess : Operation → Bool
  | csrSwap _ | csrSet _ | csrClear _ => true
  | _ => false

def isPrivileged : Operation → Bool
  | csrSwap _ | csrSet _ | csrClear _ | machineReturn | supervisorReturn | waitForInterrupt |
    translationFence => true
  | _ => false

end Operation

namespace Hart

/-- The exceptions of operations. An access to memory reports its virtual address. -/
inductive Failure (hart : Hart) (operands : Operands) : Operation → Exception → Prop
  | load {size : AccessSize} {signed : Bool} {cause : TrapCause}
      (hcause : cause ∈ TrapCause.faults .load) :
      Failure hart operands (.load size signed) ⟨cause,
        hart.xlen.address (hart.readRegister (operands.register 1) + operands.get 2)⟩
  | store {size : AccessSize} {cause : TrapCause} (hcause : cause ∈ TrapCause.faults .store) :
      Failure hart operands (.store size) ⟨cause,
        hart.xlen.address (hart.readRegister (operands.register 0) + operands.get 2)⟩
  | breakpoint : Failure hart operands .environmentBreak ⟨.breakpoint, operands.get 0⟩
  | refused {operation : Operation} (hprivileged : operation.isPrivileged = true) :
      Failure hart operands operation .illegal

/-- The hart after a return from a trap: new flags and mode, at the address that the trap saved. -/
def returned (hart : Hart) (status : Word) (mode : Privilege) (address : CsrAddress) : Hart :=
  { hart with
    controls := hart.controls.write Csr.machineStatus
      (MachineStatus.replace MachineStatus.writableMask
        (hart.controls.read Csr.machineStatus) status)
    privilege := mode
    pc := hart.xlen.address (hart.controls.read address &&& ~~~1) }

inductive Effect (hart : Hart) (operands : Operands) : Operation → Flow → Hart → Prop
  | compute {operation : Operation} (hcompute : operation.isComputation = true) (value : Word) :
      Effect hart operands operation .next (hart.writeRegister (operands.register 0) value)
  | load {size : AccessSize} {signed : Bool} (translation : Translation) (value : Word) :
      Effect hart operands (.load size signed) .next
        ({ hart with translation := translation }.writeRegister (operands.register 0) value)
  | store {size : AccessSize} (translation : Translation) (memory : MemoryMap) :
      Effect hart operands (.store size) .next
        { hart with translation := translation, memory := memory }
  | branch {condition : Condition}
      (hholds : condition.holds (hart.readRegister (operands.register 0))
        (hart.readRegister (operands.register 1)) = true) :
      Effect hart operands (.branch condition) .taken (hart.setPc (operands.get 3 + operands.get 2))
  | stay {condition : Condition}
      (hholds : condition.holds (hart.readRegister (operands.register 0))
        (hart.readRegister (operands.register 1)) = false) :
      Effect hart operands (.branch condition) .next hart
  | jump :
      Effect hart operands .jump .taken
        ((hart.writeRegister (operands.register 0) (operands.get 3 + operands.get 2)).setPc
          (operands.get 3 + operands.get 1))
  | jumpRegister :
      Effect hart operands .jumpRegister .taken
        ((hart.writeRegister (operands.register 0) (operands.get 4 + operands.get 3)).setPc
          ((hart.readRegister (operands.register 1) + operands.get 2) &&& ~~~1))
  | call : Effect hart operands .environmentCall .call hart
  | readCsr {operation : Operation} (haccess : operation.isCsrAccess = true)
      (hread : hart.mayAccess (csrOperand operands) false = true) (old : Word) :
      Effect hart operands operation .next (hart.writeRegister (operands.register 0) old)
  | writeCsr {operation : Operation} (haccess : operation.isCsrAccess = true)
      (hwrite : hart.mayAccess (csrOperand operands) true = true) (value old : Word) :
      Effect hart operands operation .next
        ((hart.setCsr (csrOperand operands) value).writeRegister (operands.register 0) old)
  | machineReturn (hmachine : hart.privilege = .machine) :
      Effect hart operands .machineReturn .next
        (hart.returned (machineReturnStatus (hart.csr Csr.machineStatus))
          (machineReturnMode (hart.csr Csr.machineStatus)) Csr.machineExceptionPc)
  | supervisorReturn (hallowed : hart.mayWhileClear MachineStatus.trapReturn = true) :
      Effect hart operands .supervisorReturn .next
        (hart.returned (supervisorReturnStatus (hart.csr Csr.machineStatus))
          (supervisorReturnMode (hart.csr Csr.machineStatus)) Csr.supervisorExceptionPc)
  | wait : Effect hart operands .waitForInterrupt .next hart.wait
  | fence : Effect hart operands .translationFence .next hart.invalidate

variable {hart after : Hart} {operands : Operands} {exception : Exception} {flow : Flow}

theorem complete_eq_error {outcome : Except Exception Hart}
    (hcomplete : hart.complete outcome = (.error exception, after)) :
    outcome = .error exception ∧ after = hart := by
  cases outcome with
  | error error => cases hcomplete; exact ⟨rfl, rfl⟩
  | ok result => cases hcomplete

theorem complete_eq_ok {outcome : Except Exception Hart}
    (hcomplete : hart.complete outcome = (.ok flow, after)) :
    outcome = .ok after ∧ flow = .next := by
  cases outcome with
  | error error => cases hcomplete
  | ok result => cases hcomplete; exact ⟨rfl, rfl⟩

/-! ### Control and status registers -/

theorem readCsr_eq_error {address : CsrAddress} (hread : hart.readCsr address = .error exception) :
    exception = .illegal := by
  rw [readCsr] at hread
  split at hread <;> cases hread
  rfl

theorem readCsr_eq_ok {address : CsrAddress} {value : Word}
    (hread : hart.readCsr address = .ok value) :
    hart.mayAccess address false = true ∧ value = hart.csr address := by
  rw [readCsr] at hread
  split at hread <;> cases hread
  exact ⟨by assumption, rfl⟩

theorem writeCsr_eq_error {address : CsrAddress} {value : Word}
    (hwrite : hart.writeCsr address value = .error exception) : exception = .illegal := by
  rw [writeCsr] at hwrite
  split at hwrite <;> cases hwrite
  rfl

theorem writeCsr_eq_ok {address : CsrAddress} {value : Word}
    (hwrite : hart.writeCsr address value = .ok after) :
    hart.mayAccess address true = true ∧ after = hart.setCsr address value := by
  rw [writeCsr] at hwrite
  split at hwrite <;> cases hwrite
  exact ⟨by assumption, rfl⟩

theorem executeCsrSwap_eq_error {source : CsrSource}
    (hexecute : hart.executeCsrSwap source operands = (.error exception, after)) :
    exception = .illegal ∧ after = hart := by
  obtain ⟨houtcome, rfl⟩ := complete_eq_error hexecute
  refine ⟨?_, rfl⟩
  split at houtcome
  · exact writeCsr_eq_error houtcome
  · rcases error_of_bind houtcome with hread | ⟨old, -, houtcome⟩
    · exact readCsr_eq_error hread
    · rcases error_of_bind houtcome with hwrite | ⟨written, -, houtcome⟩
      · exact writeCsr_eq_error hwrite
      · cases houtcome

/-- Without a destination nothing is read, and the register write has no effect. -/
theorem executeCsrSwap_eq_ok {source : CsrSource}
    (hexecute : hart.executeCsrSwap source operands = (.ok flow, after)) :
    Effect hart operands (.csrSwap source) flow after := by
  obtain ⟨houtcome, rfl⟩ := complete_eq_ok hexecute
  split at houtcome
  · rename_i hdestination
    obtain ⟨hallowed, rfl⟩ := writeCsr_eq_ok houtcome
    have heffect : Effect hart operands (.csrSwap source) .next _ :=
      .writeCsr rfl hallowed (hart.csrSourceValue source operands) 0
    rwa [hdestination] at heffect
  · obtain ⟨old, -, houtcome⟩ := exists_ok_of_bind houtcome
    obtain ⟨written, hwrite, houtcome⟩ := exists_ok_of_bind houtcome
    obtain ⟨hallowed, rfl⟩ := writeCsr_eq_ok hwrite
    cases houtcome
    exact .writeCsr rfl hallowed _ _

theorem executeCsrModify_eq_error {source : CsrSource} {update : Word → Word → Word}
    (hexecute : hart.executeCsrModify source update operands = (.error exception, after)) :
    exception = .illegal ∧ after = hart := by
  obtain ⟨houtcome, rfl⟩ := complete_eq_error hexecute
  refine ⟨?_, rfl⟩
  rcases error_of_bind houtcome with hread | ⟨old, -, houtcome⟩
  · exact readCsr_eq_error hread
  · dsimp only at houtcome
    split at houtcome
    · rcases error_of_bind houtcome with hwrite | ⟨written, -, houtcome⟩
      · exact writeCsr_eq_error hwrite
      · cases houtcome
    · cases houtcome

theorem executeCsrModify_eq_ok {operation : Operation} {source : CsrSource}
    {update : Word → Word → Word} (haccess : operation.isCsrAccess = true)
    (hexecute : hart.executeCsrModify source update operands = (.ok flow, after)) :
    Effect hart operands operation flow after := by
  obtain ⟨houtcome, rfl⟩ := complete_eq_ok hexecute
  obtain ⟨old, hread, houtcome⟩ := exists_ok_of_bind houtcome
  dsimp only at houtcome
  split at houtcome
  · obtain ⟨written, hwrite, houtcome⟩ := exists_ok_of_bind houtcome
    obtain ⟨hallowed, rfl⟩ := writeCsr_eq_ok hwrite
    cases houtcome
    exact .writeCsr haccess hallowed _ _
  · cases houtcome
    exact .readCsr haccess (readCsr_eq_ok hread).1 _

/-! ### Returns, waits and fences -/

/-- A stored address that is cleared in some bits after a read is as good as one cleared before. -/
theorem address_address_and (xlen : Xlen) (value mask : Word) :
    xlen.address (xlen.address value &&& mask) = xlen.address (value &&& mask) := by
  cases xlen with
  | x64 => rfl
  | x32 =>
      apply BitVec.eq_of_getLsbD_eq
      intro bit hbit
      simp only [Xlen.address, zeroExtendLow, BitVec.getLsbD_setWidth, BitVec.getLsbD_and]
      by_cases hlow : bit < 32 <;> simp [hlow, hbit]

theorem setPc_csr_eq_returned (hart : Hart) (status : Word) (mode : Privilege)
    {address : CsrAddress} (hplain : Csr.role address = .plain) :
    let written := (hart.setCsr Csr.machineStatus status).setPrivilege mode
    written.setPc (written.csr address &&& ~~~1) = hart.returned status mode address := by
  have hne : Csr.machineStatus ≠ address := by
    rintro rfl
    cases hplain
  have hwritten : hart.setCsr Csr.machineStatus status =
      hart.updateStatus MachineStatus.writableMask status := rfl
  simp only [hwritten, setPrivilege, updateStatus, setPc, csr, hplain, address_address_and,
    CsrBank.read_write, if_neg hne, returned]

theorem machineReturn_eq_ok (hreturn : hart.machineReturn = .ok after) :
    hart.privilege = .machine ∧
      after = hart.returned (machineReturnStatus (hart.csr Csr.machineStatus))
        (machineReturnMode (hart.csr Csr.machineStatus)) Csr.machineExceptionPc := by
  rw [machineReturn] at hreturn
  split at hreturn
  · cases hreturn
  · rename_i hmachine
    cases hreturn
    exact ⟨Classical.not_not.mp hmachine, setPc_csr_eq_returned hart _ _ rfl⟩

theorem supervisorReturn_eq_ok (hreturn : hart.supervisorReturn = .ok after) :
    hart.mayWhileClear MachineStatus.trapReturn = true ∧
      after = hart.returned (supervisorReturnStatus (hart.csr Csr.machineStatus))
        (supervisorReturnMode (hart.csr Csr.machineStatus)) Csr.supervisorExceptionPc := by
  rw [supervisorReturn] at hreturn
  split at hreturn
  · cases hreturn
  · rename_i hallowed
    cases hreturn
    exact ⟨by simpa using hallowed, setPc_csr_eq_returned hart _ _ rfl⟩

theorem machineReturn_eq_error (hreturn : hart.machineReturn = .error exception) :
    exception = .illegal := by
  rw [machineReturn] at hreturn
  split at hreturn <;> cases hreturn
  rfl

theorem supervisorReturn_eq_error (hreturn : hart.supervisorReturn = .error exception) :
    exception = .illegal := by
  rw [supervisorReturn] at hreturn
  split at hreturn <;> cases hreturn
  rfl

theorem executeWait_eq_error (hexecute : hart.executeWait = (.error exception, after)) :
    exception = .illegal ∧ after = hart := by
  obtain ⟨houtcome, rfl⟩ := complete_eq_error hexecute
  split at houtcome <;> cases houtcome
  exact ⟨rfl, rfl⟩

theorem executeWait_eq_ok (hexecute : hart.executeWait = (.ok flow, after)) :
    flow = .next ∧ after = hart.wait := by
  obtain ⟨houtcome, rfl⟩ := complete_eq_ok hexecute
  split at houtcome <;> cases houtcome
  exact ⟨rfl, rfl⟩

theorem executeTranslationFence_eq_error
    (hexecute : hart.executeTranslationFence = (.error exception, after)) :
    exception = .illegal ∧ after = hart := by
  obtain ⟨houtcome, rfl⟩ := complete_eq_error hexecute
  split at houtcome <;> cases houtcome
  exact ⟨rfl, rfl⟩

theorem executeTranslationFence_eq_ok
    (hexecute : hart.executeTranslationFence = (.ok flow, after)) :
    flow = .next ∧ after = hart.invalidate := by
  obtain ⟨houtcome, rfl⟩ := complete_eq_ok hexecute
  split at houtcome <;> cases houtcome
  exact ⟨rfl, rfl⟩

/-! ### Accesses to memory -/

theorem executeLoad_eq_error {size : AccessSize} {signed : Bool}
    (hexecute : hart.executeLoad size signed operands = (.error exception, after)) :
    Retranslated hart after ∧
      Failure hart operands (.load size signed) exception := by
  rw [executeLoad] at hexecute
  split at hexecute <;> cases hexecute
  rename_i hload
  obtain ⟨hframe, hfault⟩ := load_spec hload
  obtain ⟨hcause, hvalue⟩ := hfault _ rfl
  obtain ⟨cause, value⟩ := exception
  cases hvalue
  exact ⟨hframe, .load hcause⟩

theorem executeLoad_eq_ok {size : AccessSize} {signed : Bool}
    (hexecute : hart.executeLoad size signed operands = (.ok flow, after)) :
    Effect hart operands (.load size signed) flow after := by
  rw [executeLoad] at hexecute
  split at hexecute <;> cases hexecute
  rename_i hload
  obtain ⟨⟨translation, rfl⟩, -⟩ := load_spec hload
  exact .load translation _

theorem executeStore_eq_error {size : AccessSize}
    (hexecute : hart.executeStore size operands = (.error exception, after)) :
    Retranslated hart after ∧
      Failure hart operands (.store size) exception := by
  rw [executeStore] at hexecute
  split at hexecute <;> cases hexecute
  rename_i hstore
  obtain ⟨hframe, hcause, hvalue⟩ := store_eq_error hstore
  obtain ⟨cause, value⟩ := exception
  cases hvalue
  exact ⟨hframe, .store hcause⟩

theorem executeStore_eq_ok {size : AccessSize}
    (hexecute : hart.executeStore size operands = (.ok flow, after)) :
    Effect hart operands (.store size) flow after := by
  rw [executeStore] at hexecute
  split at hexecute <;> cases hexecute
  rename_i hstore
  obtain ⟨translation, memory, physical, rfl, -, -⟩ := store_eq_ok hstore
  exact .store translation memory

theorem executeBranch_eq_ok {condition : Condition}
    (hexecute : hart.executeBranch condition operands = (.ok flow, after)) :
    Effect hart operands (.branch condition) flow after := by
  rw [executeBranch] at hexecute
  split at hexecute <;> cases hexecute
  · exact .branch (by assumption)
  · exact .stay (Bool.eq_false_iff.mpr (by assumption))

/-! ### All operations -/

/-- An operation that fails changes nothing but remembered translations. -/
theorem execute_eq_error {operation : Operation}
    (hexecute : operation.execute operands hart = (.error exception, after)) :
    Retranslated hart after ∧
      Failure hart operands operation exception := by
  -- Whatever the mode refuses is refused before anything is written.
  have refused : operation.isPrivileged = true → exception = .illegal ∧ after = hart →
      Retranslated hart after ∧
        Failure hart operands operation exception := by
    rintro hprivileged ⟨rfl, rfl⟩
    exact ⟨⟨after.translation, rfl⟩, .refused hprivileged⟩
  cases operation with
  | loadUpper => cases hexecute
  | addUpperToPc => cases hexecute
  | jump => cases hexecute
  | jumpRegister => cases hexecute
  | branch condition =>
      simp only [Operation.execute, executeBranch] at hexecute
      split at hexecute <;> cases hexecute
  | load size signed => exact executeLoad_eq_error hexecute
  | store size => exact executeStore_eq_error hexecute
  | immediate arithmetic => cases hexecute
  | register arithmetic => cases hexecute
  | immediateLow arithmetic => cases hexecute
  | registerLow arithmetic => cases hexecute
  | environmentCall => cases hexecute
  | environmentBreak =>
      cases hexecute
      exact ⟨⟨hart.translation, rfl⟩, .breakpoint⟩
  | csrSwap source => exact refused rfl (executeCsrSwap_eq_error hexecute)
  | csrSet source =>
      rw [Operation.execute] at hexecute
      exact refused rfl (executeCsrModify_eq_error hexecute)
  | csrClear source =>
      rw [Operation.execute] at hexecute
      exact refused rfl (executeCsrModify_eq_error hexecute)
  | machineReturn =>
      rw [Operation.execute] at hexecute
      obtain ⟨hreturn, hafter⟩ := complete_eq_error hexecute
      exact refused rfl ⟨machineReturn_eq_error hreturn, hafter⟩
  | supervisorReturn =>
      rw [Operation.execute] at hexecute
      obtain ⟨hreturn, hafter⟩ := complete_eq_error hexecute
      exact refused rfl ⟨supervisorReturn_eq_error hreturn, hafter⟩
  | waitForInterrupt => exact refused rfl (executeWait_eq_error hexecute)
  | translationFence => exact refused rfl (executeTranslationFence_eq_error hexecute)

/-- An operation that succeeds has one of the listed effects. -/
theorem execute_eq_ok {operation : Operation}
    (hexecute : operation.execute operands hart = (.ok flow, after)) :
    Effect hart operands operation flow after := by
  cases operation with
  | loadUpper => cases hexecute; exact .compute rfl _
  | addUpperToPc => cases hexecute; exact .compute rfl _
  | jump => cases hexecute; exact .jump
  | jumpRegister => cases hexecute; exact .jumpRegister
  | branch condition => exact executeBranch_eq_ok hexecute
  | load size signed => exact executeLoad_eq_ok hexecute
  | store size => exact executeStore_eq_ok hexecute
  | immediate arithmetic => cases hexecute; exact .compute rfl _
  | register arithmetic => cases hexecute; exact .compute rfl _
  | immediateLow arithmetic => cases hexecute; exact .compute rfl _
  | registerLow arithmetic => cases hexecute; exact .compute rfl _
  | environmentCall => cases hexecute; exact .call
  | environmentBreak => cases hexecute
  | csrSwap source => exact executeCsrSwap_eq_ok hexecute
  | csrSet source =>
      rw [Operation.execute] at hexecute
      exact executeCsrModify_eq_ok rfl hexecute
  | csrClear source =>
      rw [Operation.execute] at hexecute
      exact executeCsrModify_eq_ok rfl hexecute
  | machineReturn =>
      rw [Operation.execute] at hexecute
      obtain ⟨hreturn, rfl⟩ := complete_eq_ok hexecute
      obtain ⟨hmachine, rfl⟩ := machineReturn_eq_ok hreturn
      exact .machineReturn hmachine
  | supervisorReturn =>
      rw [Operation.execute] at hexecute
      obtain ⟨hreturn, rfl⟩ := complete_eq_ok hexecute
      obtain ⟨hallowed, rfl⟩ := supervisorReturn_eq_ok hreturn
      exact .supervisorReturn hallowed
  | waitForInterrupt =>
      obtain ⟨rfl, rfl⟩ := executeWait_eq_ok hexecute
      exact .wait
  | translationFence =>
      obtain ⟨rfl, rfl⟩ := executeTranslationFence_eq_ok hexecute
      exact .fence

end Hart

end RiscvMachine
