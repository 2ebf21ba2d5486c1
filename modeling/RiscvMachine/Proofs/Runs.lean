import RiscvMachine.Proofs.Step
import RiscvMachine.Proofs.Stores
/-!
Runs of several instructions. A run executes as many instructions as it is asked to or stops before;
if it does not stop, a longer run goes on where it ends. What operations and traps keep, a run keeps;
all that happens to memory on the way are stores.
-/

namespace RiscvMachine

/-- The outcome of a run that has executed some instructions before. -/
def StepOutcome.following (earlier : Nat) (outcome : StepOutcome) : StepOutcome :=
  { outcome with executed := earlier + outcome.executed }

namespace Hart

variable {hart after : Hart} {count done : Nat}

/-! ### One run after another -/

theorem stepFrom_add (earlier executed count : Nat) (hart : Hart) :
    stepFrom (earlier + executed) count hart =
      ((stepFrom executed count hart).1.following earlier, (stepFrom executed count hart).2) := by
  induction count generalizing executed hart with
  | zero => rfl
  | succ count ih =>
      rw [stepFrom, stepFrom]
      split
      · rfl
      · rw [Nat.add_assoc, ih]

theorem stepFrom_eq (executed count : Nat) (hart : Hart) :
    stepFrom executed count hart =
      ((hart.step count).1.following executed, (hart.step count).2) :=
  stepFrom_add executed 0 count hart

theorem step_succ_of_stop {reason : StopReason} (hadvance : hart.advance = (some reason, after))
    (count : Nat) : hart.step (count + 1) = (⟨0, some reason⟩, after) := by
  rw [step, stepFrom, hadvance]

theorem step_succ_of_advance (hadvance : hart.advance = (none, after)) (count : Nat) :
    hart.step (count + 1) = ((after.step count).1.following 1, (after.step count).2) := by
  rw [step, stepFrom, hadvance]
  exact stepFrom_eq 1 count after

/-- What each instruction keeps, a run keeps. -/
theorem step_induction (property : Hart → Prop)
    (hadvance : ∀ hart, property hart → property hart.advance.2) (hproperty : property hart)
    (count : Nat) : property (hart.step count).2 := by
  induction count generalizing hart with
  | zero => exact hproperty
  | succ count ih =>
      have hnext := hadvance hart hproperty
      rcases hadvanced : hart.advance with ⟨_ | reason, after⟩ <;> rw [hadvanced] at hnext
      · rw [step_succ_of_advance hadvanced]
        exact ih hnext
      · rwa [step_succ_of_stop hadvanced]

/-- The instructions of a run are all that were asked for, or the run stops before. -/
theorem executed_step_cases (hart : Hart) (count : Nat) :
    (hart.step count).1 = ⟨count, none⟩ ∨
      (hart.step count).1.executed < count ∧ (hart.step count).1.stop ≠ none := by
  induction count generalizing hart with
  | zero => exact .inl rfl
  | succ count ih =>
      rcases hadvance : hart.advance with ⟨_ | reason, after⟩
      · rw [step_succ_of_advance hadvance]
        rcases ih after with hall | ⟨hexecuted, hstop⟩
        · rw [hall, StepOutcome.following, Nat.add_comm]
          exact .inl rfl
        · refine .inr ⟨?_, hstop⟩
          change 1 + (after.step count).1.executed < count + 1
          omega
      · rw [step_succ_of_stop hadvance]
        exact .inr ⟨Nat.succ_pos count, Option.some_ne_none reason⟩

theorem executed_step_le (hart : Hart) (count : Nat) : (hart.step count).1.executed ≤ count := by
  rcases executed_step_cases hart count with hall | ⟨hexecuted, -⟩
  · rw [hall]
  · exact Nat.le_of_lt hexecuted

theorem step_add_of_none (hrun : (hart.step done).1.stop = none) (count : Nat) :
    hart.step (done + count) =
      (((hart.step done).2.step count).1.following done, ((hart.step done).2.step count).2) := by
  induction done generalizing hart with
  | zero =>
      rw [Nat.zero_add]
      exact (stepFrom_eq 0 count hart)
  | succ done ih =>
      rcases hadvance : hart.advance with ⟨_ | reason, after⟩
      · rw [step_succ_of_advance hadvance] at hrun ⊢
        rw [Nat.add_right_comm, step_succ_of_advance hadvance, ih hrun]
        simp only [StepOutcome.following, Nat.add_assoc, Nat.add_comm 1]
      · rw [step_succ_of_stop hadvance] at hrun
        cases hrun

theorem step_add_of_stop {reason : StopReason} (hstop : (hart.step done).1.stop = some reason)
    (count : Nat) : hart.step (done + count) = hart.step done := by
  induction done generalizing hart with
  | zero => cases hstop
  | succ done ih =>
      rw [Nat.add_right_comm]
      rcases hadvance : hart.advance with ⟨_ | reason, after⟩
      · rw [step_succ_of_advance hadvance] at hstop ⊢
        rw [step_succ_of_advance hadvance, ih hstop]
      · rw [step_succ_of_stop hadvance, step_succ_of_stop hadvance]

/-- A run that executes so many instructions has executed fewer of them before. -/
theorem step_of_le_executed (hle : done ≤ (hart.step count).1.executed) :
    (hart.step done).1 = ⟨done, none⟩ := by
  rcases executed_step_cases hart done with hall | ⟨hexecuted, hstop⟩
  · exact hall
  · obtain ⟨reason, hreason⟩ := Option.ne_none_iff_exists'.mp hstop
    obtain ⟨rest, rfl⟩ := Nat.exists_eq_add_of_le (hle.trans (executed_step_le hart count))
    rw [step_add_of_stop hreason] at hle
    exact absurd hexecuted (Nat.not_lt_of_le hle)

/-! ### What all operations and traps keep -/

/-- Effects of operations and traps keep a property that says nothing of the place of the hart in its
program, of what it remembers and records, and of its counter. -/
structure KeptByOperations (property : Hart → Prop) : Prop where
  effect : ∀ {hart after : Hart} {operands : Operands} {operation : Operation} {flow : Flow},
    Effect hart operands operation flow after → property hart → property after
  trap : ∀ (hart : Hart) (cause : TrapCause) (value : Word),
    property hart → property (hart.enterTrap cause value)
  moved : ∀ (hart : Hart) (pc cycles : Word) (translation : Translation)
    (debugger : Option Debugger) (journal : Option (Array Event)), property hart → property
      { hart with
        pc := pc, cycles := cycles, translation := translation, debugger := debugger,
        journal := journal }

section Kept

variable {property : Hart → Prop} (hkept : KeptByOperations property) (hholds : property hart)
include hkept hholds

theorem KeptByOperations.perform {raw : Encoding} {completion : Completion}
    (hperform : hart.perform raw = (completion, after)) : property after := by
  rw [Hart.perform] at hperform
  split at hperform
  · cases hperform
    exact hkept.moved hart _ _ _ _ _ hholds
  · cases hperform
    exact hkept.moved hart _ _ _ _ _ hholds
  · rename_i binding operands hdispatch
    split at hperform
    · rename_i hexecute
      cases hperform
      obtain ⟨⟨translation, rfl⟩, -⟩ := execute_eq_error hexecute
      exact hkept.moved hart _ _ _ _ _ hholds
    · rename_i hexecute
      cases hperform
      exact hkept.effect (execute_eq_ok hexecute) hholds
    · rename_i hexecute
      cases hperform
      have hended := hkept.effect (execute_eq_ok hexecute) hholds
      split
      · exact hkept.moved _ _ _ _ _ _ hended
      · exact hended

theorem KeptByOperations.attempt {completion : Completion}
    (hattempt : hart.attempt = (completion, after)) : property after := by
  rw [Hart.attempt] at hattempt
  split at hattempt
  · rename_i hfetch
    cases hattempt
    obtain ⟨translation, rfl⟩ := (fetch_spec hfetch).1
    exact hkept.moved hart _ _ _ _ _ hholds
  · rename_i raw fetched hfetch
    obtain ⟨translation, rfl⟩ := (fetch_spec hfetch).1
    obtain ⟨_, journal, hready⟩ := undisturbed_recordInstruction
      { hart with translation := translation } raw
    refine hkept.perform ?_ hattempt
    rw [hready]
    exact hkept.moved hart _ _ _ _ _ hholds

theorem KeptByOperations.executeNext : property hart.executeNext := by
  rw [Hart.executeNext]
  split
  · rename_i hattempt
    exact hkept.attempt hholds hattempt
  · rename_i exception resume ended hattempt
    exact hkept.moved _ _ _ _ _ _ (hkept.trap ended _ _ (hkept.attempt hholds hattempt))

theorem KeptByOperations.advance {stop : Option StopReason}
    (hadvance : hart.advance = (stop, after)) : property after := by
  have hchecked : property hart.checkBreakpoint.2 := by
    rw [checkBreakpoint]
    split
    · exact hholds
    · exact hkept.moved hart _ _ _ _ _ hholds
  rw [Hart.advance] at hadvance
  split at hadvance
  · cases hadvance
    exact hholds
  · split at hadvance <;> rename_i hcheck <;> rw [hcheck] at hchecked <;> cases hadvance
    · exact hkept.moved _ _ _ _ _ _ hchecked
    · exact hkept.moved _ _ _ _ _ _ (hkept.executeNext hchecked)

theorem KeptByOperations.step (count : Nat) : property (hart.step count).2 :=
  step_induction property (fun _ hholds => hkept.advance hholds rfl) hholds count

end Kept

/-! ### Memory -/

theorem memory_checkBreakpoint (hart : Hart) : hart.checkBreakpoint.2.memory = hart.memory := by
  rw [checkBreakpoint]
  split <;> rfl

theorem memory_of_stop {reason : StopReason} (hadvance : hart.advance = (some reason, after)) :
    after.memory = hart.memory := by
  rw [advance] at hadvance
  split at hadvance
  · cases hadvance
    rfl
  · split at hadvance <;> cases hadvance
    rename_i hcheck
    have hmemory := memory_checkBreakpoint hart
    rwa [hcheck] at hmemory

/-- A stop leaves memory as it was after the last instruction. -/
theorem memory_step_executed (hart : Hart) (count : Nat) :
    (hart.step (hart.step count).1.executed).2.memory = (hart.step count).2.memory := by
  induction count generalizing hart with
  | zero => rfl
  | succ count ih =>
      rcases hadvance : hart.advance with ⟨_ | reason, after⟩
      · rw [step_succ_of_advance hadvance, StepOutcome.following, Nat.add_comm,
          step_succ_of_advance hadvance]
        exact ih after
      · rw [step_succ_of_stop hadvance]
        exact (memory_of_stop hadvance).symm

theorem stored_of_eq {before after : MemoryMap} (heq : after = before) : before.Stored after := by
  rw [heq]
  exact .refl

theorem memory_of_retranslated (hframe : Retranslated hart after) : after.memory = hart.memory := by
  obtain ⟨translation, rfl⟩ := hframe
  rfl

theorem stored_executeStore (hart : Hart) (size : AccessSize) (operands : Operands) :
    hart.memory.Stored (hart.executeStore size operands).2.memory := by
  rw [executeStore]
  split <;> rename_i hstore
  · exact stored_of_eq (memory_of_retranslated (store_eq_error hstore).1)
  · obtain ⟨translation, memory, physical, rfl, -, hmemory⟩ := store_eq_ok hstore
    exact .single ⟨physical, _, size, hmemory⟩

/-- No operation but a store touches memory. -/
theorem memory_of_effect {operands : Operands} {operation : Operation} {flow : Flow}
    (heffect : Effect hart operands operation flow after)
    (hoperation : ∀ size, operation ≠ .store size) : after.memory = hart.memory := by
  cases heffect with
  | store => exact absurd rfl (hoperation _)
  | writeCsr =>
      rw [writeRegister, setCsr]
      split <;> rfl
  | _ => rfl

theorem memory_of_execute {operation : Operation} (hoperation : ∀ size, operation ≠ .store size)
    (hart : Hart) (operands : Operands) :
    (operation.execute operands hart).2.memory = hart.memory := by
  rcases hexecute : operation.execute operands hart with ⟨exception | flow, after⟩
  · exact memory_of_retranslated (execute_eq_error hexecute).1
  · exact memory_of_effect (execute_eq_ok hexecute) hoperation

theorem stored_execute (hart : Hart) (operation : Operation) (operands : Operands) :
    hart.memory.Stored (operation.execute operands hart).2.memory := by
  by_cases hstore : ∃ size, operation = .store size
  · obtain ⟨size, rfl⟩ := hstore
    exact stored_executeStore hart size operands
  · exact stored_of_eq (memory_of_execute (fun size heq => hstore ⟨size, heq⟩) hart operands)

theorem memory_conclude (hart : Hart) (raw : Encoding) (binding : Binding) (execution : Execution) :
    (hart.conclude raw binding execution).2.memory = execution.2.memory := by
  rcases execution with ⟨exception | flow, after⟩
  · rfl
  · cases flow <;> simp only [conclude] <;> split <;> rfl

theorem stored_perform (hart : Hart) (raw : Encoding) :
    hart.memory.Stored (hart.perform raw).2.memory := by
  cases hdispatch : hart.instructions.dispatch hart.xlen raw hart.pc with
  | illegal =>
      simp only [perform, hdispatch]
      exact .refl
  | nop =>
      simp only [perform, hdispatch]
      exact .refl
  | execute binding operands =>
      rw [perform_of_dispatch hdispatch, memory_conclude]
      exact stored_execute hart binding.operation operands

theorem stored_attempt (hart : Hart) : hart.memory.Stored hart.attempt.2.memory := by
  rcases hfetch : hart.fetch hart.pc with ⟨cause | raw, fetched⟩
  · rw [attempt, hfetch]
    exact stored_of_eq (memory_of_retranslated (fetch_spec hfetch).1)
  · have hraw : (hart.fetch hart.pc).1 = .ok raw := by rw [hfetch]
    obtain ⟨ready, ⟨translation, journal, hready⟩, hattempt⟩ := attempt_of_fetch hraw
    have hmemory : ready.memory = hart.memory := by rw [hready]
    rw [hattempt, ← hmemory]
    exact stored_perform ready raw

theorem memory_enterTrap (hart : Hart) (cause : TrapCause) (value : Word) :
    (hart.enterTrap cause value).memory = hart.memory := by
  simp only [enterTrap]
  split <;> rfl

theorem stored_executeNext (hart : Hart) : hart.memory.Stored hart.executeNext.memory := by
  have hstored := stored_attempt hart
  rcases hattempt : hart.attempt with ⟨_ | ⟨exception, resume⟩, attempted⟩ <;>
    rw [hattempt] at hstored
  · rwa [executeNext, hattempt]
  · have hmemory : hart.executeNext.memory = attempted.memory := by
      simp only [executeNext, hattempt, memory_enterTrap]
    rwa [hmemory]

theorem stored_advance (hart : Hart) : hart.memory.Stored hart.advance.2.memory := by
  have hmemory := memory_checkBreakpoint hart
  rw [advance]
  split
  · exact .refl
  · split <;> rename_i hcheck <;> rw [hcheck] at hmemory
    · exact stored_of_eq hmemory
    · rw [← hmemory]
      exact stored_executeNext _

theorem stored_step (hart : Hart) (count : Nat) :
    hart.memory.Stored (hart.step count).2.memory :=
  step_induction (fun after => hart.memory.Stored after.memory)
    (fun between hstored => hstored.trans (stored_advance between)) .refl count

end Hart

end RiscvMachine
