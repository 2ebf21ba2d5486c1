import RiscvMachine.Proofs.Canonical
import RiscvMachine.Proofs.Equipment
/-!
Sessions as an observer sees them: the instructions that are executed one after the other, and the
runs that stop at a breakpoint in between.
-/

namespace RiscvMachine

inductive Moment where
  /-- An instruction is executed; the hart is the one that is about to fetch it. -/
  | fetch (hart : Hart)
  /-- A run stops at a breakpoint. -/
  | stop (address : Word)

namespace Hart

variable {hart after fetching : Hart}

/-- The moments of a run: one for each executed instruction, and the stop that ends it. -/
def stepMoments (hart : Hart) (count : Nat) : List Moment :=
  let outcome := (hart.step count).1
  (List.range outcome.executed).map (fun done => .fetch (hart.step done).2) ++
    match outcome.stop with
    | some (.breakpoint address) => [.stop address]
    | some .waitForInterrupt | none => []

def actionMoments (hart : Hart) : Action → List Moment
  | .step count => hart.stepMoments count
  | _ => []

/-- The moments of a session. -/
def moments (hart : Hart) : List Action → List Moment
  | [] => []
  | action :: rest => hart.actionMoments action ++ (hart.act action).moments rest

theorem stepMoments_of_waiting (hadvance : hart.advance = (some .waitForInterrupt, after))
    (count : Nat) : hart.stepMoments (count + 1) = [] := by
  rw [stepMoments, step_succ_of_stop hadvance]
  rfl

theorem stepMoments_of_breakpoint {address : Word}
    (hadvance : hart.advance = (some (.breakpoint address), after)) (count : Nat) :
    hart.stepMoments (count + 1) = [.stop address] := by
  rw [stepMoments, step_succ_of_stop hadvance]
  rfl

theorem stepMoments_of_advance (hadvance : hart.advance = (none, after)) (count : Nat) :
    hart.stepMoments (count + 1) = .fetch hart :: after.stepMoments count := by
  have hlater (done : Nat) : (hart.step (done + 1)).2 = (after.step done).2 := by
    rw [step_succ_of_advance hadvance]
  rw [stepMoments, stepMoments, step_succ_of_advance hadvance]
  simp only [StepOutcome.following, Nat.add_comm 1, List.range_succ_eq_map, List.map_cons,
    List.map_map, List.cons_append, Function.comp_def, Nat.succ_eq_add_one, hlater]
  rfl

theorem fetch_mem_stepMoments_iff {count : Nat} :
    Moment.fetch fetching ∈ hart.stepMoments count ↔
      ∃ done < (hart.step count).1.executed, fetching = (hart.step done).2 := by
  rw [stepMoments, List.mem_append, List.mem_map]
  constructor
  · rintro (⟨done, hdone, heq⟩ | hstop)
    · cases heq
      exact ⟨done, List.mem_range.mp hdone, rfl⟩
    · split at hstop <;> simp at hstop
  · rintro ⟨done, hdone, rfl⟩
    exact .inl ⟨done, List.mem_range.mpr hdone, rfl⟩

theorem moments_append (hart : Hart) (first second : List Action) :
    hart.moments (first ++ second) = hart.moments first ++ (hart.run first).moments second := by
  induction first generalizing hart with
  | nil => rfl
  | cons action rest ih =>
      rw [List.cons_append, moments, moments, ih, List.append_assoc]
      rfl

/-- An instruction of a session is one of a run that follows on some of its actions. -/
theorem fetch_mem_moments_iff {actions : List Action} :
    Moment.fetch fetching ∈ hart.moments actions ↔
      ∃ earlier count later, actions = earlier ++ .step count :: later ∧
        .fetch fetching ∈ (hart.run earlier).stepMoments count := by
  constructor
  · intro hmem
    induction actions generalizing hart with
    | nil => cases hmem
    | cons action rest ih =>
        rw [moments, List.mem_append] at hmem
        rcases hmem with hfirst | hrest
        · cases action with
          | step count => exact ⟨[], count, rest, rfl, hfirst⟩
          | _ => cases hfirst
        · obtain ⟨earlier, count, later, rfl, hstep⟩ := ih hrest
          exact ⟨action :: earlier, count, later, rfl, hstep⟩
  · rintro ⟨earlier, count, later, rfl, hstep⟩
    rw [moments_append, moments]
    exact List.mem_append_right _ (List.mem_append_left _ hstep)

end Hart

end RiscvMachine
