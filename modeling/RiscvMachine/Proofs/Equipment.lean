import RiscvMachine.Proofs.Runs
/-!
What instructions find and leave: the instruction set and the width, the translation without what it
remembers, the breakpoints, and whether events are recorded. Only the environment of a hart changes
these.
-/

namespace RiscvMachine

structure Equipment where
  instructions : InstructionSet
  xlen : Xlen
  /-- With no page remembered. -/
  translation : Translation
  debugger : Option Debugger
  recording : Bool

namespace Translation

@[simp]
theorem invalidate_invalidate (translation : Translation) :
    translation.invalidate.invalidate = translation.invalidate := by
  cases translation <;> rfl

@[simp]
theorem invalidate_translate (translation : Translation) (memory : MemoryMap) (address : Word)
    (access : Access) :
    (translation.translate memory address access).2.invalidate = translation.invalidate := by
  cases translation <;> rfl

end Translation

namespace Hart

def equipment (hart : Hart) : Equipment where
  instructions := hart.instructions
  xlen := hart.xlen
  translation := hart.translation.invalidate
  debugger := hart.debugger
  recording := hart.journal.isSome

variable {hart after : Hart}

@[simp]
theorem equipment_record (hart : Hart) (event : Event) :
    (hart.record event).equipment = hart.equipment := by
  simp [equipment, record]

@[simp]
theorem equipment_invalidate (hart : Hart) : hart.invalidate.equipment = hart.equipment := by
  simp [equipment, invalidate]

theorem equipment_setCsr (hart : Hart) (address : CsrAddress) (value : Word) :
    (hart.setCsr address value).equipment = hart.equipment := by
  unfold setCsr
  split
  · rfl
  · rfl
  · rfl
  · rfl
  · rfl
  · rfl
  · exact equipment_invalidate _
  · rfl

theorem equipment_enterTrap (hart : Hart) (cause : TrapCause) (value : Word) :
    (hart.enterTrap cause value).equipment = hart.equipment := by
  have hrecorded := hart.equipment_record
    (.trapTaken cause hart.pc value hart.privilege (hart.delegates cause))
  rw [enterTrap]
  split
  · exact hrecorded
  · exact hrecorded

/-! ### Accesses to memory -/

theorem equipment_translate (hart : Hart) (address : Word) (access : Access) :
    (hart.translate address access).2.equipment = hart.equipment := by
  simp [equipment, translate]

theorem equipment_fetchHigh (hart : Hart) (pc physical : Word) :
    (hart.fetchHigh pc physical).2.equipment = hart.equipment := by
  have htranslated := hart.equipment_translate (hart.xlen.address (pc + 2)) .fetch
  rw [fetchHigh]
  split
  · split <;> rename_i htranslate <;> rwa [htranslate] at htranslated
  · rfl

theorem equipment_fetch (hart : Hart) (pc : Word) :
    (hart.fetch pc).2.equipment = hart.equipment := by
  have htranslated := hart.equipment_translate pc .fetch
  rw [fetch]
  split <;> rename_i htranslate <;> rw [htranslate] at htranslated
  · exact htranslated
  · rename_i physical translated
    have hhigh := translated.equipment_fetchHigh pc physical
    split
    · exact htranslated
    · split
      · exact htranslated
      · split <;> rename_i hfetched <;> rw [hfetched] at hhigh <;> exact hhigh.trans htranslated

theorem equipment_load (hart : Hart) (address : Word) (size : AccessSize) :
    (hart.load address size).2.equipment = hart.equipment := by
  have htranslated := hart.equipment_translate (hart.xlen.address address) .load
  rw [load]
  split <;> rename_i htranslate <;> rw [htranslate] at htranslated
  · exact htranslated
  · split <;> exact htranslated

theorem equipment_store (hart : Hart) (address value : Word) (size : AccessSize) :
    (hart.store address value size).2.equipment = hart.equipment := by
  have htranslated := hart.equipment_translate (hart.xlen.address address) .store
  rw [store]
  split <;> rename_i htranslate <;> rw [htranslate] at htranslated
  · exact htranslated
  · split <;> exact htranslated

/-! ### Instructions -/

theorem equipment_of_effect {operands : Operands} {operation : Operation} {flow : Flow}
    (heffect : Effect hart operands operation flow after)
    (hload : ∀ size signed, operation ≠ .load size signed)
    (hstore : ∀ size, operation ≠ .store size) : after.equipment = hart.equipment := by
  cases heffect with
  | load => exact absurd rfl (hload _ _)
  | store => exact absurd rfl (hstore _)
  | writeCsr => exact equipment_setCsr hart _ _
  | fence => exact equipment_invalidate hart
  | _ => rfl

/-- An operation that fails without an access to memory leaves the hart as it is. -/
theorem equipment_of_complete {operands : Operands} {operation : Operation}
    {outcome : Except Exception Hart}
    (hexecute : operation.execute operands hart = hart.complete outcome)
    (hload : ∀ size signed, operation ≠ .load size signed)
    (hstore : ∀ size, operation ≠ .store size) :
    (operation.execute operands hart).2.equipment = hart.equipment := by
  cases outcome with
  | error exception =>
      rw [hexecute]
      rfl
  | ok after =>
      have heffect := execute_eq_ok hexecute
      rw [hexecute]
      exact equipment_of_effect heffect hload hstore

theorem equipment_execute (hart : Hart) (operation : Operation) (operands : Operands) :
    (operation.execute operands hart).2.equipment = hart.equipment := by
  cases operation with
  | load size signed =>
      have hloaded :=
        hart.equipment_load (hart.readRegister (operands.register 1) + operands.get 2) size
      rw [Operation.execute, executeLoad]
      split <;> rename_i hload <;> rw [hload] at hloaded <;> exact hloaded
  | store size =>
      have hstored :=
        hart.equipment_store (hart.readRegister (operands.register 0) + operands.get 2)
          (hart.readRegister (operands.register 1)) size
      rw [Operation.execute, executeStore]
      split <;> rename_i hstore <;> rw [hstore] at hstored <;> exact hstored
  | branch condition =>
      rw [Operation.execute, executeBranch]
      split <;> rfl
  | csrSwap source => exact equipment_of_complete rfl (by simp) (by simp)
  | csrSet source => exact equipment_of_complete rfl (by simp) (by simp)
  | csrClear source => exact equipment_of_complete rfl (by simp) (by simp)
  | machineReturn => exact equipment_of_complete rfl (by simp) (by simp)
  | supervisorReturn => exact equipment_of_complete rfl (by simp) (by simp)
  | waitForInterrupt => exact equipment_of_complete rfl (by simp) (by simp)
  | translationFence => exact equipment_of_complete rfl (by simp) (by simp)
  | _ => rfl

theorem equipment_conclude (hart : Hart) (raw : Encoding) (binding : Binding)
    (execution : Execution) :
    (hart.conclude raw binding execution).2.equipment = execution.2.equipment := by
  rcases execution with ⟨exception | flow, after⟩
  · rfl
  · cases flow <;> simp only [conclude] <;> split <;> rfl

theorem equipment_perform (hart : Hart) (raw : Encoding) :
    (hart.perform raw).2.equipment = hart.equipment := by
  cases hdispatch : hart.instructions.dispatch hart.xlen raw hart.pc with
  | illegal =>
      simp only [perform, hdispatch]
      exact equipment_record _ _
  | nop =>
      simp only [perform, hdispatch]
      rfl
  | execute binding operands =>
      rw [perform_of_dispatch hdispatch, equipment_conclude]
      exact equipment_execute hart binding.operation operands

theorem equipment_recordInstruction (hart : Hart) (raw : Encoding) :
    (hart.recordInstruction raw).equipment = hart.equipment := by
  rw [recordInstruction]
  split
  · rfl
  · split
    · rfl
    · exact equipment_record _ _

theorem equipment_attempt (hart : Hart) : hart.attempt.2.equipment = hart.equipment := by
  have hfetched := hart.equipment_fetch hart.pc
  rw [attempt]
  split <;> rename_i hfetch <;> rw [hfetch] at hfetched
  · exact hfetched
  · rw [equipment_perform, equipment_recordInstruction, hfetched]

theorem equipment_executeNext (hart : Hart) : hart.executeNext.equipment = hart.equipment := by
  have hattempted := hart.equipment_attempt
  rw [executeNext]
  split <;> rename_i hattempt <;> rw [hattempt] at hattempted
  · exact hattempted
  · exact (equipment_enterTrap _ _ _).trans hattempted

/-! ### Runs -/

theorem equipment_checkBreakpoint (hart : Hart) :
    ∃ debugger, hart.checkBreakpoint.2 = { hart with debugger := debugger } := by
  rw [checkBreakpoint]
  split
  · exact ⟨hart.debugger, rfl⟩
  · exact ⟨_, rfl⟩

theorem equipment_advance (hdebugger : hart.debugger = none) :
    hart.advance.2.equipment = hart.equipment := by
  have hcheck : hart.checkBreakpoint = (false, hart) := by rw [checkBreakpoint, hdebugger]
  rw [advance]
  split
  · rfl
  · simp only [hcheck]
    exact hart.equipment_executeNext

/-- Without breakpoints a run leaves what it found. -/
theorem equipment_step (hdebugger : hart.debugger = none) (count : Nat) :
    (hart.step count).2.equipment = hart.equipment := by
  refine step_induction (fun after => after.equipment = hart.equipment) ?_ rfl count
  intro between hkept
  have hnone : between.debugger = none := (congrArg Equipment.debugger hkept).trans hdebugger
  exact (equipment_advance hnone).trans hkept

end Hart

end RiscvMachine
