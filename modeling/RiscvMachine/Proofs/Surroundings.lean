import RiscvMachine.Proofs.Runs
/-!
What lies behind accesses. Instructions reach memory and its translation by fetches, loads and stores
only, and by dropping what the translation remembers. Where these cannot tell two surroundings apart,
no run can.
-/

namespace RiscvMachine

/-- Both computations fail in the same way, or both succeed with related results. -/
inductive EndAlike {ε α : Type} (related : α → α → Prop) : Except ε α → Except ε α → Prop
  | error (error : ε) : EndAlike related (.error error) (.error error)
  | ok {first second : α} (hrelated : related first second) :
      EndAlike related (.ok first) (.ok second)

theorem EndAlike.bind {ε α β : Type} {related : α → α → Prop} {related' : β → β → Prop}
    {first second : Except ε α} {next next' : α → Except ε β} (hfirst : EndAlike related first second)
    (hnext : ∀ left right, related left right → EndAlike related' (next left) (next' right)) :
    EndAlike related' (first >>= next) (second >>= next') := by
  cases hfirst with
  | error error => exact .error error
  | ok hrelated => exact hnext _ _ hrelated

/-- Memory, and the way from virtual addresses to it. -/
structure Surroundings where
  memory : MemoryMap
  translation : Translation

def Surroundings.invalidate (surroundings : Surroundings) : Surroundings :=
  { surroundings with translation := surroundings.translation.invalidate }

namespace Hart

def surroundings (hart : Hart) : Surroundings :=
  ⟨hart.memory, hart.translation⟩

def within (hart : Hart) (surroundings : Surroundings) : Hart :=
  { hart with memory := surroundings.memory, translation := surroundings.translation }

/-- The harts are equal, up to related surroundings. -/
def Alike (related : Surroundings → Surroundings → Prop) (first second : Hart) : Prop :=
  ∃ surroundings, related first.surroundings surroundings ∧ second = first.within surroundings

/-- The same result, and harts that are alike. -/
def Mirrored {α : Type} (related : Surroundings → Surroundings → Prop) (first second : α × Hart) :
    Prop :=
  second.1 = first.1 ∧ Alike related first.2 second.2

theorem Mirrored.exists_eq {α : Type} {related : Surroundings → Surroundings → Prop}
    {first second : α × Hart} (hmirrored : Mirrored related first second) :
    ∃ result left right, first = (result, left) ∧ second = (result, right) ∧
      Alike related left right :=
  ⟨first.1, first.2, second.2, rfl, Prod.ext hmirrored.1 rfl, hmirrored.2⟩

/-- No access tells related surroundings apart. -/
structure Indistinguishable (related : Surroundings → Surroundings → Prop) : Prop where
  fetch : ∀ {first second}, Alike related first second → ∀ pc,
    Mirrored related (first.fetch pc) (second.fetch pc)
  load : ∀ {first second}, Alike related first second → ∀ address size,
    Mirrored related (first.load address size) (second.load address size)
  store : ∀ {first second}, Alike related first second → ∀ address value size,
    Mirrored related (first.store address value size) (second.store address value size)
  invalidate : ∀ {first second}, related first second → related first.invalidate second.invalidate

namespace Indistinguishable

variable {related : Surroundings → Surroundings → Prop} {first second : Hart}

/-! ### Control and status registers -/

section Controls

variable (hrelated : Indistinguishable related) (halike : Alike related first second)
include hrelated halike

theorem setCsr (address : CsrAddress) (value : Word) :
    Alike related (first.setCsr address value) (second.setCsr address value) := by
  obtain ⟨surroundings, hsurroundings, rfl⟩ := halike
  unfold Hart.setCsr
  cases Csr.role address with
  | translationRoot => exact ⟨_, hrelated.invalidate hsurroundings, rfl⟩
  | _ => exact ⟨surroundings, hsurroundings, rfl⟩

theorem writeCsr (address : CsrAddress) (value : Word) :
    EndAlike (Alike related) (first.writeCsr address value) (second.writeCsr address value) := by
  have hset := hrelated.setCsr halike address value
  have hallowed : second.mayAccess address true = first.mayAccess address true := by
    obtain ⟨surroundings, -, rfl⟩ := halike
    rfl
  rw [Hart.writeCsr, Hart.writeCsr, hallowed]
  split
  · exact .ok hset
  · exact .error _

end Controls

end Indistinguishable

section Operations

variable {related : Surroundings → Surroundings → Prop} {first second : Hart}

namespace Alike

variable (halike : Alike related first second)
include halike

theorem xlen_eq : second.xlen = first.xlen := by
  obtain ⟨surroundings, -, rfl⟩ := halike
  rfl

theorem readCsr_eq (address : CsrAddress) : second.readCsr address = first.readCsr address := by
  obtain ⟨surroundings, -, rfl⟩ := halike
  rfl

theorem csrSourceValue_eq (source : CsrSource) (operands : Operands) :
    second.csrSourceValue source operands = first.csrSourceValue source operands := by
  obtain ⟨surroundings, -, rfl⟩ := halike
  rfl

theorem readRegister_eq (index : Nat) : second.readRegister index = first.readRegister index := by
  obtain ⟨surroundings, -, rfl⟩ := halike
  rfl

theorem writeRegister (index : Nat) (value : Word) :
    Alike related (first.writeRegister index value) (second.writeRegister index value) := by
  obtain ⟨surroundings, hsurroundings, rfl⟩ := halike
  exact ⟨surroundings, hsurroundings, rfl⟩

theorem machineReturn : EndAlike (Alike related) first.machineReturn second.machineReturn := by
  obtain ⟨surroundings, hsurroundings, rfl⟩ := halike
  have hprivilege : (first.within surroundings).privilege = first.privilege := rfl
  rw [Hart.machineReturn, Hart.machineReturn, hprivilege]
  split
  · exact .error _
  · exact .ok ⟨surroundings, hsurroundings, rfl⟩

theorem supervisorReturn :
    EndAlike (Alike related) first.supervisorReturn second.supervisorReturn := by
  obtain ⟨surroundings, hsurroundings, rfl⟩ := halike
  have hallowed : (first.within surroundings).mayWhileClear MachineStatus.trapReturn =
      first.mayWhileClear MachineStatus.trapReturn := rfl
  rw [Hart.supervisorReturn, Hart.supervisorReturn, hallowed]
  split
  · exact .error _
  · exact .ok ⟨surroundings, hsurroundings, rfl⟩

theorem complete {outcome outcome' : Except Exception Hart}
    (houtcome : EndAlike (Alike related) outcome outcome') :
    Mirrored related (first.complete outcome) (second.complete outcome') := by
  cases houtcome with
  | error exception => exact ⟨rfl, halike⟩
  | ok hafter => exact ⟨rfl, hafter⟩

theorem executeWait : Mirrored related first.executeWait second.executeWait := by
  refine halike.complete ?_
  obtain ⟨surroundings, hsurroundings, rfl⟩ := halike
  have hprivilege : (first.within surroundings).privilege = first.privilege := rfl
  have hstatus : (first.within surroundings).csr Csr.machineStatus = first.csr Csr.machineStatus := rfl
  rw [hprivilege, hstatus]
  split
  · exact .error _
  · exact .ok ⟨surroundings, hsurroundings, rfl⟩

theorem executeBranch (condition : Condition) (operands : Operands) :
    Mirrored related (first.executeBranch condition operands)
      (second.executeBranch condition operands) := by
  obtain ⟨surroundings, hsurroundings, rfl⟩ := halike
  have hread (index : Nat) : (first.within surroundings).readRegister index =
      first.readRegister index := rfl
  simp only [Hart.executeBranch, hread]
  split <;> exact ⟨rfl, surroundings, hsurroundings, rfl⟩

end Alike

namespace Indistinguishable

variable (hrelated : Indistinguishable related) (halike : Alike related first second)
include hrelated halike

theorem executeCsrSwap (source : CsrSource) (operands : Operands) :
    Mirrored related (first.executeCsrSwap source operands)
      (second.executeCsrSwap source operands) := by
  refine halike.complete ?_
  rw [halike.csrSourceValue_eq, halike.readCsr_eq]
  have hwritten := hrelated.writeCsr halike (csrOperand operands)
    (first.csrSourceValue source operands)
  split
  · exact hwritten
  · cases first.readCsr (csrOperand operands) with
    | error exception => exact .error exception
    | ok old => exact hwritten.bind fun _ _ hafter => .ok (hafter.writeRegister _ old)

theorem executeCsrModify (source : CsrSource) (update : Word → Word → Word) (operands : Operands) :
    Mirrored related (first.executeCsrModify source update operands)
      (second.executeCsrModify source update operands) := by
  refine halike.complete ?_
  rw [halike.csrSourceValue_eq, halike.readCsr_eq]
  cases first.readCsr (csrOperand operands) with
  | error exception => exact .error exception
  | ok old =>
      have hwritten := hrelated.writeCsr halike (csrOperand operands)
        (update old (first.csrSourceValue source operands))
      cases csrSourceWrites source operands with
      | false => exact .ok (halike.writeRegister _ old)
      | true => exact hwritten.bind fun _ _ hafter => .ok (hafter.writeRegister _ old)

theorem executeTranslationFence :
    Mirrored related first.executeTranslationFence second.executeTranslationFence := by
  refine halike.complete ?_
  obtain ⟨surroundings, hsurroundings, rfl⟩ := halike
  have hallowed : (first.within surroundings).mayWhileClear MachineStatus.trapTranslation =
      first.mayWhileClear MachineStatus.trapTranslation := rfl
  rw [hallowed]
  split
  · exact .ok ⟨_, hrelated.invalidate hsurroundings, rfl⟩
  · exact .error _

theorem executeLoad (size : AccessSize) (signed : Bool) (operands : Operands) :
    Mirrored related (first.executeLoad size signed operands)
      (second.executeLoad size signed operands) := by
  obtain ⟨result, after, after', hfirst, hsecond, hafter⟩ := (hrelated.load halike
    (first.readRegister (operands.register 1) + operands.get 2) size).exists_eq
  simp only [Hart.executeLoad, halike.readRegister_eq, hfirst, hsecond]
  cases result with
  | error exception => exact ⟨rfl, hafter⟩
  | ok value => exact ⟨rfl, hafter.writeRegister _ _⟩

theorem executeStore (size : AccessSize) (operands : Operands) :
    Mirrored related (first.executeStore size operands) (second.executeStore size operands) := by
  obtain ⟨result, after, after', hfirst, hsecond, hafter⟩ := (hrelated.store halike
    (first.readRegister (operands.register 0) + operands.get 2)
    (first.readRegister (operands.register 1)) size).exists_eq
  simp only [Hart.executeStore, halike.readRegister_eq, hfirst, hsecond]
  cases result <;> exact ⟨rfl, hafter⟩

theorem execute (operation : Operation) (operands : Operands) :
    Mirrored related (operation.execute operands first) (operation.execute operands second) := by
  cases operation with
  | load size signed => exact hrelated.executeLoad halike size signed operands
  | store size => exact hrelated.executeStore halike size operands
  | branch condition => exact halike.executeBranch condition operands
  | csrSwap source => exact hrelated.executeCsrSwap halike source operands
  | csrSet source =>
      exact hrelated.executeCsrModify halike source (fun old value => old ||| value) operands
  | csrClear source =>
      exact hrelated.executeCsrModify halike source (fun old value => old &&& ~~~value) operands
  | machineReturn => exact halike.complete halike.machineReturn
  | supervisorReturn => exact halike.complete halike.supervisorReturn
  | waitForInterrupt => exact halike.executeWait
  | translationFence => exact hrelated.executeTranslationFence halike
  | _ =>
      obtain ⟨surroundings, hsurroundings, rfl⟩ := halike
      exact ⟨rfl, surroundings, hsurroundings, rfl⟩

end Indistinguishable

/-! ### Instructions and runs -/

namespace Alike

variable (halike : Alike related first second)
include halike

theorem pc_eq : second.pc = first.pc := by
  obtain ⟨surroundings, -, rfl⟩ := halike
  rfl

theorem dispatch_eq (raw : Encoding) :
    second.instructions.dispatch second.xlen raw second.pc =
      first.instructions.dispatch first.xlen raw first.pc := by
  obtain ⟨surroundings, -, rfl⟩ := halike
  rfl

theorem conclude {raw : Encoding} {binding : Binding} {execution execution' : Execution}
    (hexecution : Mirrored related execution execution') :
    Mirrored related (first.conclude raw binding execution)
      (second.conclude raw binding execution') := by
  obtain ⟨surroundings, -, rfl⟩ := halike
  obtain ⟨result, after, -, rfl, rfl, surroundings', hsurroundings, rfl⟩ := hexecution.exists_eq
  rcases result with exception | flow
  · exact ⟨rfl, surroundings', hsurroundings, rfl⟩
  · cases flow with
    | call => exact ⟨rfl, surroundings', hsurroundings, rfl⟩
    | _ =>
        simp only [Hart.conclude]
        split <;> exact ⟨rfl, surroundings', hsurroundings, rfl⟩

theorem recordInstruction (raw : Encoding) :
    Alike related (first.recordInstruction raw) (second.recordInstruction raw) := by
  obtain ⟨surroundings, hsurroundings, rfl⟩ := halike
  have hjournal : (first.within surroundings).journal = first.journal := rfl
  have htext : (first.within surroundings).disassemble raw = first.disassemble raw := rfl
  rw [Hart.recordInstruction, Hart.recordInstruction, hjournal, htext]
  split
  · exact ⟨surroundings, hsurroundings, rfl⟩
  · split <;> exact ⟨surroundings, hsurroundings, rfl⟩

theorem enterTrap (cause : TrapCause) (value : Word) :
    Alike related (first.enterTrap cause value) (second.enterTrap cause value) := by
  obtain ⟨surroundings, hsurroundings, rfl⟩ := halike
  have hdelegates : (first.within surroundings).delegates cause = first.delegates cause := rfl
  simp only [Hart.enterTrap, hdelegates]
  split <;> exact ⟨surroundings, hsurroundings, rfl⟩

theorem checkBreakpoint : Mirrored related first.checkBreakpoint second.checkBreakpoint := by
  obtain ⟨surroundings, hsurroundings, rfl⟩ := halike
  have hdebugger : (first.within surroundings).debugger = first.debugger := rfl
  rw [Hart.checkBreakpoint, Hart.checkBreakpoint, hdebugger]
  split <;> exact ⟨rfl, surroundings, hsurroundings, rfl⟩

end Alike

namespace Indistinguishable

variable (hrelated : Indistinguishable related)
include hrelated

theorem perform (halike : Alike related first second) (raw : Encoding) :
    Mirrored related (first.perform raw) (second.perform raw) := by
  have hdispatch' := halike.dispatch_eq raw
  cases hdispatch : first.instructions.dispatch first.xlen raw first.pc with
  | execute binding operands =>
      rw [perform_of_dispatch hdispatch, perform_of_dispatch (hdispatch'.trans hdispatch)]
      exact halike.conclude (hrelated.execute halike binding.operation operands)
  | _ =>
      simp only [Hart.perform, hdispatch', hdispatch]
      obtain ⟨surroundings, hsurroundings, rfl⟩ := halike
      exact ⟨rfl, surroundings, hsurroundings, rfl⟩

theorem attempt (halike : Alike related first second) :
    Mirrored related first.attempt second.attempt := by
  obtain ⟨result, after, after', hfirst, hsecond, hafter⟩ :=
    (hrelated.fetch halike first.pc).exists_eq
  rw [Hart.attempt, Hart.attempt, halike.pc_eq, hfirst, hsecond]
  cases result with
  | error cause =>
      exact ⟨congrArg (fun pc => Completion.trapped ⟨cause, pc⟩ none) hafter.pc_eq, hafter⟩
  | ok raw => exact hrelated.perform (hafter.recordInstruction raw) raw

theorem executeNext (halike : Alike related first second) :
    Alike related first.executeNext second.executeNext := by
  obtain ⟨completion, after, after', hfirst, hsecond, hafter⟩ :=
    (hrelated.attempt halike).exists_eq
  rw [Hart.executeNext, Hart.executeNext, hfirst, hsecond]
  cases completion with
  | retired => exact hafter
  | trapped exception resume =>
      obtain ⟨surroundings, hsurroundings, htrapped⟩ :=
        hafter.enterTrap exception.cause exception.value
      simp only [htrapped]
      exact ⟨surroundings, hsurroundings, rfl⟩

theorem advance (halike : Alike related first second) :
    Mirrored related first.advance second.advance := by
  obtain ⟨stops, after, after', hfirst, hsecond, hafter⟩ := halike.checkBreakpoint.exists_eq
  have hwaiting : second.waiting = first.waiting := by
    obtain ⟨surroundings, -, rfl⟩ := halike
    rfl
  rw [Hart.advance, Hart.advance, hwaiting, hfirst, hsecond]
  split
  · exact ⟨rfl, halike⟩
  · cases stops with
    | true =>
        obtain ⟨surroundings, hsurroundings, rfl⟩ := hafter
        exact ⟨rfl, surroundings, hsurroundings, rfl⟩
    | false =>
        obtain ⟨surroundings, hsurroundings, hnext⟩ := hrelated.executeNext hafter
        simp only [hnext]
        exact ⟨rfl, surroundings, hsurroundings, rfl⟩

/-- Runs of harts that are alike have the same outcome, and end with harts that are alike. -/
theorem step (halike : Alike related first second) (count : Nat) :
    Mirrored related (first.step count) (second.step count) := by
  induction count generalizing first second with
  | zero => exact ⟨rfl, halike⟩
  | succ count ih =>
      obtain ⟨stop, after, after', hfirst, hsecond, hafter⟩ :=
        (hrelated.advance halike).exists_eq
      cases stop with
      | none =>
          obtain ⟨houtcome, hended⟩ := ih hafter
          rw [step_succ_of_advance hfirst, step_succ_of_advance hsecond]
          exact ⟨congrArg (StepOutcome.following 1) houtcome, hended⟩
      | some reason =>
          rw [step_succ_of_stop hfirst, step_succ_of_stop hsecond]
          exact ⟨rfl, hafter⟩

end Indistinguishable

end Operations

end Hart

end RiscvMachine
