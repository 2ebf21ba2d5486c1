import RiscvMachine.Proofs.Containment
/-!
Noninterference. Short of the trap in which it may end, what an instruction does in user mode depends
on one bit of all the control registers: whether a wait for an interrupt traps. Nothing else of them
shows, and none of them changes.
-/

namespace RiscvMachine

namespace CsrBank

/-- The bank holds the registers that a reset puts there, and no others. -/
def Complete (bank : CsrBank) : Prop :=
  ∀ address, bank.contains address = (Csr.name? address).isSome

/-- Whether a wait for an interrupt traps below machine mode. -/
def trapsWait (bank : CsrBank) : Bool :=
  MachineStatus.has (bank.read Csr.machineStatus) MachineStatus.trapWait

theorem Complete.registered {bank : CsrBank} (hcomplete : bank.Complete) : bank.Registered := by
  intro address hcontains
  rwa [hcomplete] at hcontains

theorem complete_reset : reset.Complete := contains_reset

theorem Complete.write {bank : CsrBank} (hcomplete : bank.Complete) {address : CsrAddress}
    (hregistered : (Csr.name? address).isSome = true) (value : Word) :
    (bank.write address value).Complete := by
  intro other
  rw [contains_write, hcomplete]
  cases heq : address == other with
  | false => rfl
  | true =>
      rw [← eq_of_beq heq, hregistered]
      rfl

end CsrBank

/-- What user mode shall not see of a hart. -/
structure Hidden where
  controls : CsrBank
  debugger : Option Debugger
  journal : Option (Array Event)

namespace Hart

def hidden (hart : Hart) : Hidden :=
  ⟨hart.controls, hart.debugger, hart.journal⟩

def withHidden (hart : Hart) (hidden : Hidden) : Hart :=
  { hart with controls := hidden.controls, debugger := hidden.debugger, journal := hidden.journal }

/-- Whatever is hidden, the result is the same, and so is the hart up to what is hidden; of that,
nothing changes but the record of events. -/
def Oblivious {α : Type} (traps : Bool) (run : Hart → α × Hart) (hart : Hart) : Prop :=
  ∃ (result : α) (after : Hart), ∀ hidden : Hidden,
    hidden.controls.Complete → hidden.controls.trapsWait = traps →
      ∃ journal, run (hart.withHidden hidden) =
        (result, after.withHidden { hidden with journal := journal })

variable {hart : Hart} {hidden : Hidden} {traps : Bool}

@[simp]
theorem xlen_withHidden : (hart.withHidden hidden).xlen = hart.xlen := rfl

@[simp]
theorem pc_withHidden : (hart.withHidden hidden).pc = hart.pc := rfl

@[simp]
theorem memory_withHidden : (hart.withHidden hidden).memory = hart.memory := rfl

@[simp]
theorem readRegister_withHidden (index : Nat) :
    (hart.withHidden hidden).readRegister index = hart.readRegister index := rfl

@[simp]
theorem fetchHalf_withHidden (address : Word) :
    (hart.withHidden hidden).fetchHalf address = hart.fetchHalf address := rfl

theorem dispatch_withHidden (raw : Encoding) :
    (hart.withHidden hidden).instructions.dispatch (hart.withHidden hidden).xlen raw
      (hart.withHidden hidden).pc = hart.instructions.dispatch hart.xlen raw hart.pc := rfl

theorem Oblivious.of_commutes {α : Type} {run : Hart → α × Hart}
    (hcommutes : ∀ hidden, run (hart.withHidden hidden) =
      ((run hart).1, (run hart).2.withHidden hidden)) : Oblivious traps run hart :=
  ⟨(run hart).1, (run hart).2, fun hidden _ _ => ⟨hidden.journal, hcommutes hidden⟩⟩

/-! ### Accesses -/

theorem translate_withHidden (hart : Hart) (hidden : Hidden) (address : Word) (access : Access) :
    (hart.withHidden hidden).translate address access =
      ((hart.translate address access).1, (hart.translate address access).2.withHidden hidden) := rfl

theorem fetchHigh_withHidden (hart : Hart) (hidden : Hidden) (pc physical : Word) :
    (hart.withHidden hidden).fetchHigh pc physical =
      ((hart.fetchHigh pc physical).1, (hart.fetchHigh pc physical).2.withHidden hidden) := by
  rw [fetchHigh, fetchHigh, xlen_withHidden]
  by_cases hpage : pageOffset (hart.xlen.address (pc + 2)) = 0
  · simp only [if_pos hpage, translate_withHidden]
    rcases hart.translate (hart.xlen.address (pc + 2)) .fetch with ⟨_ | physical, translated⟩ <;> rfl
  · simp only [if_neg hpage, fetchHalf_withHidden]

theorem fetch_withHidden (hart : Hart) (hidden : Hidden) (pc : Word) :
    (hart.withHidden hidden).fetch pc =
      ((hart.fetch pc).1, (hart.fetch pc).2.withHidden hidden) := by
  simp only [fetch, translate_withHidden]
  rcases hart.translate pc .fetch with ⟨_ | physical, translated⟩
  · rfl
  · simp only [fetchHalf_withHidden, fetchHigh_withHidden]
    cases translated.fetchHalf physical with
    | error cause => rfl
    | ok low =>
        dsimp only
        cases EncodedLength.of low with
        | compressed => rfl
        | full => rcases translated.fetchHigh pc physical with ⟨_ | high, fetched⟩ <;> rfl

theorem load_withHidden (hart : Hart) (hidden : Hidden) (address : Word) (size : AccessSize) :
    (hart.withHidden hidden).load address size =
      ((hart.load address size).1, (hart.load address size).2.withHidden hidden) := by
  simp only [load, xlen_withHidden, translate_withHidden]
  rcases hart.translate (hart.xlen.address address) .load with ⟨_ | physical, translated⟩
  · rfl
  · simp only [memory_withHidden]
    cases translated.memory.load physical size <;> rfl

theorem store_withHidden (hart : Hart) (hidden : Hidden) (address value : Word)
    (size : AccessSize) :
    (hart.withHidden hidden).store address value size =
      ((hart.store address value size).1, (hart.store address value size).2.withHidden hidden) := by
  simp only [store, xlen_withHidden, translate_withHidden]
  rcases hart.translate (hart.xlen.address address) .store with ⟨_ | physical, translated⟩
  · rfl
  · simp only [memory_withHidden]
    cases translated.memory.store physical value size <;> rfl

/-! ### Control registers -/

/-- User mode may read a counter view, and nothing else. -/
theorem mayAccess_user {address : CsrAddress} (huser : hart.privilege = .user)
    (hcomplete : hart.controls.Complete) :
    hart.mayAccess address false = decide (Csr.role address = .counterView) := by
  have hcode : Privilege.user.code = 0 := rfl
  rw [mayAccess, hasCsr, hcomplete, huser, hcode, Bool.false_and, Bool.not_false, Bool.and_true,
    Bool.eq_iff_iff, Bool.and_eq_true, Bool.or_eq_true, decide_eq_true_iff, decide_eq_true_iff]
  constructor
  · rintro ⟨hexists, hopen⟩
    exact Csr.role_of_open hexists (Nat.le_zero.mp hopen)
  · intro hrole
    exact ⟨.inl (by rw [hrole]; rfl), Nat.le_of_eq (Csr.requiredPrivilege_of_counterView hrole)⟩

theorem writeCsr_user (huser : hart.privilege = .user) (hcomplete : hart.controls.Complete)
    (address : CsrAddress) (value : Word) : hart.writeCsr address value = .error .illegal := by
  rw [writeCsr, if_neg]
  exact fun haccess => ne_user_of_mayAccess hcomplete.registered haccess huser

/-- What user mode reads is the counter. -/
theorem readCsr_user (huser : hart.privilege = .user) (hcomplete : hart.controls.Complete)
    (address : CsrAddress) :
    hart.readCsr address =
      if Csr.role address = .counterView then .ok (hart.xlen.address hart.cycles)
      else .error .illegal := by
  rw [readCsr, mayAccess_user huser hcomplete]
  simp only [decide_eq_true_eq]
  split
  · rename_i hrole
    rw [csr, hrole]
  · rfl

theorem Oblivious.complete {attempt : Hart → Except Exception Hart}
    (outcome : Except Exception Hart)
    (hattempt : ∀ hidden : Hidden, hidden.controls.Complete → hidden.controls.trapsWait = traps →
      attempt (hart.withHidden hidden) = outcome.map fun after => after.withHidden hidden) :
    Oblivious traps (fun hart => hart.complete (attempt hart)) hart := by
  cases outcome with
  | error exception =>
      refine ⟨.error exception, hart, fun hidden hcomplete htraps => ⟨hidden.journal, ?_⟩⟩
      simp only [hattempt hidden hcomplete htraps, Except.map, Hart.complete]
  | ok after =>
      refine ⟨.ok .next, after, fun hidden hcomplete htraps => ⟨hidden.journal, ?_⟩⟩
      simp only [hattempt hidden hcomplete htraps, Except.map, Hart.complete]

theorem executeCsrSwap_oblivious (huser : hart.privilege = .user) (source : CsrSource)
    (operands : Operands) :
    Oblivious traps (fun hart => hart.executeCsrSwap source operands) hart := by
  refine .complete (.error .illegal) fun hidden hcomplete _ => ?_
  have hhidden : (hart.withHidden hidden).privilege = .user := huser
  rw [writeCsr_user hhidden hcomplete, readCsr_user hhidden hcomplete]
  split
  · rfl
  · split <;> rfl

theorem executeCsrModify_oblivious (huser : hart.privilege = .user) (source : CsrSource)
    (update : Word → Word → Word) (operands : Operands) :
    Oblivious traps (fun hart => hart.executeCsrModify source update operands) hart := by
  let old := hart.xlen.address hart.cycles
  refine .complete
    (if Csr.role (csrOperand operands) = .counterView ∧ csrSourceWrites source operands = false then
      .ok (hart.writeRegister (operands.register 0) old)
    else .error .illegal) fun hidden hcomplete _ => ?_
  have hhidden : (hart.withHidden hidden).privilege = .user := huser
  rw [readCsr_user hhidden hcomplete]
  by_cases hrole : Csr.role (csrOperand operands) = .counterView
  · rw [if_pos hrole]
    cases hwrites : csrSourceWrites source operands with
    | false =>
        rw [if_pos ⟨hrole, rfl⟩]
        rfl
    | true =>
        rw [if_neg (by simp)]
        change ((hart.withHidden hidden).writeCsr _ _ >>= _) = _
        rw [writeCsr_user hhidden hcomplete]
        rfl
  · rw [if_neg hrole, if_neg fun hboth => hrole hboth.1]
    rfl

/-- The status that a hart reads keeps its low half, whatever the width. -/
theorem has_csr_trapWait (hart : Hart) :
    MachineStatus.has (hart.csr Csr.machineStatus) MachineStatus.trapWait =
      hart.controls.trapsWait := by
  have hcsr : hart.csr Csr.machineStatus =
      hart.xlen.address (hart.controls.read Csr.machineStatus) := rfl
  rw [hcsr, CsrBank.trapsWait, MachineStatus.trapWait, MachineStatus.has_flag (by decide),
    MachineStatus.has_flag (by decide), getLsbD_address (by decide)]

theorem executeWait_oblivious (huser : hart.privilege = .user) :
    Oblivious traps executeWait hart := by
  refine .complete (if traps = true then .error .illegal else .ok hart.wait)
    fun hidden _ htraps => ?_
  have hhidden : (hart.withHidden hidden).privilege ≠ .machine := by
    intro hmachine
    exact absurd (huser.symm.trans hmachine) (by decide)
  have hstatus : MachineStatus.has ((hart.withHidden hidden).csr Csr.machineStatus)
      MachineStatus.trapWait = traps := (has_csr_trapWait _).trans htraps
  rw [hstatus]
  cases traps with
  | false => rw [if_neg (by simp)]; rfl
  | true => rw [if_pos ⟨hhidden, rfl⟩]; rfl

/-! ### Operations -/

theorem executeBranch_withHidden (condition : Condition) (operands : Operands) :
    (hart.withHidden hidden).executeBranch condition operands =
      ((hart.executeBranch condition operands).1,
        (hart.executeBranch condition operands).2.withHidden hidden) := by
  rw [executeBranch, executeBranch, readRegister_withHidden, readRegister_withHidden]
  split <;> rfl

theorem executeLoad_withHidden (size : AccessSize) (signed : Bool) (operands : Operands) :
    (hart.withHidden hidden).executeLoad size signed operands =
      ((hart.executeLoad size signed operands).1,
        (hart.executeLoad size signed operands).2.withHidden hidden) := by
  simp only [executeLoad, readRegister_withHidden, load_withHidden]
  rcases hart.load (hart.readRegister (operands.register 1) + operands.get 2) size with
    ⟨_ | value, loaded⟩ <;> rfl

theorem executeStore_withHidden (size : AccessSize) (operands : Operands) :
    (hart.withHidden hidden).executeStore size operands =
      ((hart.executeStore size operands).1,
        (hart.executeStore size operands).2.withHidden hidden) := by
  simp only [executeStore, readRegister_withHidden, store_withHidden]
  rcases hart.store (hart.readRegister (operands.register 0) + operands.get 2)
    (hart.readRegister (operands.register 1)) size with ⟨_ | stored, after⟩ <;> rfl

/-- What needs a higher mode is refused before it looks at anything hidden. -/
theorem refused_oblivious {attempt : Hart → Except Exception Hart}
    (hrefused : ∀ hidden, attempt (hart.withHidden hidden) = .error .illegal) :
    Oblivious traps (fun hart => hart.complete (attempt hart)) hart :=
  .complete (.error .illegal) fun hidden _ _ => hrefused hidden

theorem mayWhileClear_user (huser : hart.privilege = .user) (flag : Word) :
    hart.mayWhileClear flag = false := by
  rw [mayWhileClear, huser]

theorem execute_oblivious (huser : hart.privilege = .user) (operation : Operation)
    (operands : Operands) :
    Oblivious traps (fun hart => operation.execute operands hart) hart := by
  have hhidden : ∀ hidden, (hart.withHidden hidden).privilege = .user := fun _ => huser
  cases operation with
  | loadUpper => exact .of_commutes fun _ => rfl
  | addUpperToPc => exact .of_commutes fun _ => rfl
  | jump => exact .of_commutes fun _ => rfl
  | jumpRegister => exact .of_commutes fun _ => rfl
  | branch condition => exact .of_commutes fun _ => executeBranch_withHidden condition operands
  | load size signed => exact .of_commutes fun _ => executeLoad_withHidden size signed operands
  | store size => exact .of_commutes fun _ => executeStore_withHidden size operands
  | immediate arithmetic => exact .of_commutes fun _ => rfl
  | register arithmetic => exact .of_commutes fun _ => rfl
  | immediateLow arithmetic => exact .of_commutes fun _ => rfl
  | registerLow arithmetic => exact .of_commutes fun _ => rfl
  | environmentCall => exact .of_commutes fun _ => rfl
  | environmentBreak => exact .of_commutes fun _ => rfl
  | csrSwap source => exact executeCsrSwap_oblivious huser source operands
  | csrSet source =>
      exact executeCsrModify_oblivious huser source (fun old value => old ||| value) operands
  | csrClear source =>
      exact executeCsrModify_oblivious huser source (fun old value => old &&& ~~~value) operands
  | machineReturn =>
      refine refused_oblivious fun hidden => ?_
      rw [machineReturn, hhidden hidden]
      rfl
  | supervisorReturn =>
      refine refused_oblivious fun hidden => ?_
      rw [supervisorReturn, mayWhileClear_user (hhidden hidden)]
      rfl
  | waitForInterrupt => exact executeWait_oblivious huser
  | translationFence =>
      refine refused_oblivious fun hidden => ?_
      rw [mayWhileClear_user (hhidden hidden)]
      rfl

/-! ### Instructions -/

theorem conclude_withHidden (hart : Hart) (hidden hidden' : Hidden) (raw : Encoding)
    (binding : Binding) (result : Except Exception Flow) (after : Hart) :
    (hart.withHidden hidden).conclude raw binding (result, after.withHidden hidden') =
      ((hart.conclude raw binding (result, after)).1,
        (hart.conclude raw binding (result, after)).2.withHidden hidden') := by
  rcases result with exception | flow
  · rfl
  · cases flow with
    | call => rfl
    | next => simp only [conclude]; split <;> rfl
    | taken => simp only [conclude]; split <;> rfl

theorem perform_oblivious (traps : Bool) (huser : hart.privilege = .user) (raw : Encoding) :
    Oblivious traps (fun hart => hart.perform raw) hart := by
  cases hdispatch : hart.instructions.dispatch hart.xlen raw hart.pc with
  | illegal =>
      refine ⟨.trapped ⟨.illegalInstruction, raw.setWidth 64⟩ none, hart, fun hidden _ _ => ?_⟩
      simp only [perform, dispatch_withHidden, hdispatch]
      exact ⟨_, rfl⟩
  | nop =>
      refine .of_commutes fun hidden => ?_
      simp only [perform, dispatch_withHidden, hdispatch]
      rfl
  | execute binding operands =>
      obtain ⟨result, after, hexecute⟩ := execute_oblivious huser binding.operation operands
      refine ⟨(hart.conclude raw binding (result, after)).1,
        (hart.conclude raw binding (result, after)).2, fun hidden hcomplete htraps => ?_⟩
      obtain ⟨journal, hexecute⟩ := hexecute hidden hcomplete htraps
      refine ⟨journal, ?_⟩
      calc (hart.withHidden hidden).perform raw =
          (hart.withHidden hidden).conclude raw binding
            (binding.operation.execute operands (hart.withHidden hidden)) :=
              perform_of_dispatch hdispatch
        _ = (hart.withHidden hidden).conclude raw binding
            (result, after.withHidden { hidden with journal := journal }) :=
              congrArg _ hexecute
        _ = _ := conclude_withHidden hart hidden _ raw binding result after

theorem recordInstruction_withHidden (hart : Hart) (hidden : Hidden) (raw : Encoding) :
    ∃ journal, (hart.withHidden hidden).recordInstruction raw =
      hart.withHidden { hidden with journal := journal } := by
  rw [recordInstruction]
  split
  · exact ⟨hidden.journal, rfl⟩
  · split
    · exact ⟨hidden.journal, rfl⟩
    · exact ⟨_, rfl⟩

theorem attempt_oblivious (traps : Bool) (huser : hart.privilege = .user) :
    Oblivious traps attempt hart := by
  rcases hfetch : hart.fetch hart.pc with ⟨cause | raw, fetched⟩
  · refine ⟨.trapped ⟨cause, fetched.pc⟩ none, fetched, fun hidden _ _ => ⟨hidden.journal, ?_⟩⟩
    simp only [attempt, pc_withHidden, fetch_withHidden, hfetch]
  · have hfetchedUser : fetched.privilege = .user := by
      obtain ⟨⟨translation, rfl⟩, -⟩ := fetch_spec hfetch
      exact huser
    obtain ⟨completion, after, hperform⟩ := perform_oblivious traps hfetchedUser raw
    refine ⟨completion, after, fun hidden hcomplete htraps => ?_⟩
    obtain ⟨journal, hrecord⟩ := recordInstruction_withHidden fetched hidden raw
    obtain ⟨journal', hperform⟩ := hperform { hidden with journal := journal } hcomplete htraps
    refine ⟨journal', ?_⟩
    simp only [attempt, pc_withHidden, fetch_withHidden, hfetch, hrecord, hperform]

/-! ### Two harts -/

/-- The harts are equal in what user mode may see and use. -/
structure SameVisible (first second : Hart) : Prop where
  registers : second.registers = first.registers
  pc : second.pc = first.pc
  xlen : second.xlen = first.xlen
  memory : second.memory = first.memory
  translation : second.translation = first.translation
  cycles : second.cycles = first.cycles
  waiting : second.waiting = first.waiting

/-- The hart executes a program in user mode, with the standard instructions and registers. -/
structure InUserMode (hart : Hart) : Prop where
  standard : hart.instructions = .standard
  user : hart.privilege = .user
  complete : hart.controls.Complete

theorem sameVisible_withHidden (hart : Hart) (hidden hidden' : Hidden) :
    SameVisible (hart.withHidden hidden) (hart.withHidden hidden') :=
  ⟨rfl, rfl, rfl, rfl, rfl, rfl, rfl⟩

theorem SameVisible.eq_withHidden {first second : Hart} (hvisible : SameVisible first second)
    (hfirst : first.InUserMode) (hsecond : second.InUserMode) :
    second = first.withHidden second.hidden := by
  obtain ⟨hregisters, hpc, hxlen, hmemory, htranslation, hcycles, hwaiting⟩ := hvisible
  have hprivilege := hsecond.user.trans hfirst.user.symm
  have hinstructions := hsecond.standard.trans hfirst.standard.symm
  cases first
  cases second
  simp only at hregisters hpc hxlen hmemory htranslation hcycles hwaiting hprivilege hinstructions
  subst hregisters hpc hxlen hmemory htranslation hcycles hwaiting hprivilege hinstructions
  rfl

theorem executeNext_of_retired {after : Hart} (hattempt : hart.attempt = (.retired, after)) :
    hart.executeNext = after := by
  rw [executeNext, hattempt]

/-- An instruction traps in two harts that user mode cannot tell apart, with the same cause and value,
or in neither; then they still cannot be told apart, and their control registers are the old ones. -/
theorem executeNext_noninterference {first second : Hart} (hfirst : first.InUserMode)
    (hsecond : second.InUserMode) (hvisible : SameVisible first second)
    (htraps : second.controls.trapsWait = first.controls.trapsWait) :
    match first.attempt.1 with
    | .trapped exception resume =>
        second.attempt.1 = .trapped exception resume ∧
        (first.trapTarget exception.cause).Takes exception first first.executeNext ∧
        (second.trapTarget exception.cause).Takes exception second second.executeNext ∧
        first.pc = second.pc
    | .retired =>
        second.attempt.1 = .retired ∧ SameVisible first.executeNext second.executeNext ∧
        first.executeNext.controls = first.controls ∧
        second.executeNext.controls = second.controls := by
  obtain ⟨completion, after, hattempt⟩ :=
    attempt_oblivious first.controls.trapsWait hfirst.user
  obtain ⟨journal, hattemptFirst⟩ := hattempt first.hidden hfirst.complete rfl
  obtain ⟨journal', hattemptSecond⟩ := hattempt second.hidden hsecond.complete htraps
  have hself : first.withHidden first.hidden = first := rfl
  rw [hself] at hattemptFirst
  rw [← hvisible.eq_withHidden hfirst hsecond] at hattemptSecond
  rw [hattemptFirst, hattemptSecond]
  cases completion with
  | trapped exception resume =>
      exact ⟨rfl, takes_of_attempt hfirst.standard hattemptFirst,
        takes_of_attempt hsecond.standard hattemptSecond, hvisible.pc.symm⟩
  | retired =>
      rw [executeNext_of_retired hattemptFirst, executeNext_of_retired hattemptSecond]
      exact ⟨rfl, sameVisible_withHidden after _ _, rfl, rfl⟩

/-- User mode reads the cycle counter, with different scratch and delegation registers. -/
theorem executeNext_noninterference_counter :
    let first := { facing 0xC00022F3 with privilege := .user, cycles := 7 }
    let second := { first with
      controls := (CsrBank.reset.write Csr.machineScratch 0x1234).write Csr.machineDelegation 0xFFFF }
    first.InUserMode ∧ second.InUserMode ∧ SameVisible first second ∧
      second.controls.trapsWait = first.controls.trapsWait ∧
      first.attempt.1 = .retired ∧ second.attempt.1 = .retired ∧
      SameVisible first.executeNext second.executeNext ∧
      second.executeNext.controls = second.controls := by
  intro first second
  have hstandard : first.instructions = .standard := by simp only [first, facing_instructions]
  have hfirst : first.InUserMode := ⟨hstandard, rfl, CsrBank.complete_reset⟩
  have hscratch : (Csr.name? Csr.machineScratch).isSome = true := by decide
  have hdelegation : (Csr.name? Csr.machineDelegation).isSome = true := by decide
  have hsecond : second.InUserMode :=
    ⟨by simp only [second, first, facing_instructions], rfl,
      (CsrBank.complete_reset.write hscratch 0x1234).write hdelegation 0xFFFF⟩
  have hvisible : SameVisible first second := ⟨rfl, rfl, rfl, rfl, rfl, rfl, rfl⟩
  have htraps : second.controls.trapsWait = first.controls.trapsWait := by decide +kernel
  have hretired : first.attempt.1 = .retired := by decide +kernel
  have hboth := executeNext_noninterference hfirst hsecond hvisible htraps
  rw [hretired] at hboth
  obtain ⟨hsecondRetired, hafter, -, hkept⟩ := hboth
  exact ⟨hfirst, hsecond, hvisible, htraps, hretired, hsecondRetired, hafter, hkept⟩

end Hart

end RiscvMachine
