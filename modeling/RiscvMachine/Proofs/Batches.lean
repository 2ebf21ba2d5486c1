import Mathlib.Algebra.GroupWithZero.Nat
import RiscvMachine.Proofs.Runs
import RiscvMachine.Simulation.Environment
/-!
Runs in batches. However the number of instructions to execute is split, the same ones are executed,
and the hart stops at the same place for the same reason.
-/

namespace RiscvMachine

section Batches

variable {State : Type} (run : State → Nat → StepOutcome × State)

/-- A run that does not stop executes all that it is asked to, and a longer run goes on where it
ends; a run that stops before is all there is of a longer one. -/
def Composes : Prop :=
  ∀ (state : State) (first second : Nat),
    match run state first with
    | (⟨executed, none⟩, between) =>
        executed = first ∧ run state (first + second) =
          ((run between second).1.following executed, (run between second).2)
    | (⟨executed, some reason⟩, after) =>
        executed < first ∧ run state (first + second) = (⟨executed, some reason⟩, after)

/-- One batch after the other, until one of them stops. -/
def inBatches : List Nat → State → StepOutcome × State
  | [], state => (⟨0, none⟩, state)
  | count :: rest, state =>
      match run state count with
      | (⟨executed, none⟩, between) =>
          ((inBatches rest between).1.following executed, (inBatches rest between).2)
      | (⟨executed, some reason⟩, after) => (⟨executed, some reason⟩, after)

variable {run}

theorem Composes.inBatches_eq (hcomposes : Composes run)
    (hzero : ∀ state, run state 0 = (⟨0, none⟩, state)) (counts : List Nat) (state : State) :
    inBatches run counts state = run state counts.sum := by
  induction counts generalizing state with
  | nil => exact (hzero state).symm
  | cons count rest ih =>
      have hsplit := hcomposes state count rest.sum
      rw [List.sum_cons, inBatches]
      rcases hrun : run state count with ⟨⟨executed, _ | reason⟩, after⟩ <;> rw [hrun] at hsplit
      · rw [hsplit.2]
        simp only [ih after]
      · exact hsplit.2.symm

end Batches

theorem composes_step : Composes Hart.step := by
  intro hart first second
  rcases hrun : hart.step first with ⟨⟨executed, _ | reason⟩, after⟩
  · have hnone : (hart.step first).1.stop = none := by rw [hrun]
    have hsplit := Hart.step_add_of_none hnone second
    have hall : executed = first := by
      rcases hart.executed_step_cases first with hall | ⟨-, hstop⟩
      · rw [hrun] at hall
        exact congrArg StepOutcome.executed hall
      · exact absurd hnone hstop
    rw [hrun] at hsplit
    exact ⟨hall, by rw [hsplit, hall]⟩
  · have hsome : (hart.step first).1.stop = some reason := by rw [hrun]
    have hsplit := Hart.step_add_of_stop hsome second
    rcases hart.executed_step_cases first with hall | ⟨hless, -⟩
    · rw [hall] at hsome
      cases hsome
    · rw [hrun] at hless hsplit
      exact ⟨hless, hsplit⟩

/-- The count of a simulation goes on with that of its hart. -/
theorem composes_run : Composes Simulation.run := by
  intro simulation first second
  have hsplit := composes_step simulation.hart first second
  simp only [Simulation.run]
  rcases hrun : simulation.hart.step first with ⟨⟨executed, _ | reason⟩, after⟩ <;>
    rw [hrun] at hsplit
  · refine ⟨hsplit.1, ?_⟩
    rw [hsplit.2]
    simp only [StepOutcome.following, Nat.add_assoc]
  · refine ⟨hsplit.1, ?_⟩
    rw [hsplit.2]

/-- Batches change neither what is executed nor where a run stops nor what is counted. -/
theorem step_run_split :
    Composes Hart.step ∧ Composes Simulation.run ∧
      (∀ counts hart, inBatches Hart.step counts hart = hart.step counts.sum) ∧
      ∀ counts simulation, inBatches Simulation.run counts simulation = simulation.run counts.sum :=
  ⟨composes_step, composes_run, composes_step.inBatches_eq fun _ => rfl,
    composes_run.inBatches_eq fun _ => rfl⟩

end RiscvMachine
