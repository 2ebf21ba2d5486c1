import RiscvMachine.Proofs.Moments
/-!
Breakpoints. The hart remembers the breakpoint at which it stopped last; it is let through there, and
nowhere else. So an instruction at a breakpoint is executed just after a stop there, and after a stop
the hart does not stop again for nothing.
-/

namespace RiscvMachine

namespace Debugger

variable {debugger : Debugger} {pc : Word}

theorem check_of_resume (hresume : debugger.resumeFrom = some pc) :
    debugger.check pc = (false, { debugger with resumeFrom := none }) := if_pos hresume

theorem check_of_has (hresume : debugger.resumeFrom ≠ some pc) (hhas : debugger.has pc = true) :
    debugger.check pc = (true, { debugger with resumeFrom := some pc }) := by
  rw [check, if_neg hresume, if_pos hhas]

theorem check_of_not_has (hhas : debugger.has pc = false) :
    debugger.check pc = (false, { debugger with resumeFrom := none }) := by
  rw [check]
  split
  · rfl
  · rw [hhas]
    rfl

end Debugger

namespace Hart

variable {hart after : Hart} {debugger : Debugger} {address : Word} {last : Option Moment}

/-- A breakpoint is set at the next instruction. -/
def FacesBreakpoint (hart : Hart) : Prop :=
  ∃ debugger, hart.debugger = some debugger ∧ debugger.has hart.pc = true

/-- The hart after a stop at a breakpoint. -/
def stopped (hart : Hart) (debugger : Debugger) : Hart :=
  { hart with debugger := some { debugger with resumeFrom := some hart.pc } }.record
    (.breakpointHit hart.pc)

/-! ### One step -/

theorem advance_of_waiting (hwaiting : hart.waiting = true) :
    hart.advance = (some .waitForInterrupt, hart) := if_pos hwaiting

/-- A hart with breakpoints stops at one that it does not come from, and else executes an instruction
and comes from nowhere. -/
theorem advance_cases (hwaiting : hart.waiting = false) (hdebugger : hart.debugger = some debugger) :
    (debugger.resumeFrom ≠ some hart.pc ∧ debugger.has hart.pc = true ∧
      hart.advance = (some (.breakpoint hart.pc), hart.stopped debugger)) ∨
    ((debugger.has hart.pc = true → debugger.resumeFrom = some hart.pc) ∧
      ∃ after, hart.advance = (none, after) ∧
        after.debugger = some { debugger with resumeFrom := none }) := by
  have hnotWaiting : ¬hart.waiting = true := by simp [hwaiting]
  have hexecuted (hcheck : debugger.check hart.pc = (false, { debugger with resumeFrom := none })) :
      ∃ after, hart.advance = (none, after) ∧
        after.debugger = some { debugger with resumeFrom := none } := by
    let checked := { hart with debugger := some { debugger with resumeFrom := none } }
    refine ⟨{ checked.executeNext with cycles := checked.executeNext.cycles + 1 }, ?_,
      congrArg Equipment.debugger checked.equipment_executeNext⟩
    simp only [advance, if_neg hnotWaiting, checkBreakpoint, hdebugger, hcheck, checked]
  by_cases hresume : debugger.resumeFrom = some hart.pc
  · exact .inr ⟨fun _ => hresume, hexecuted (Debugger.check_of_resume hresume)⟩
  · cases hhas : debugger.has hart.pc with
    | true =>
        refine .inl ⟨hresume, rfl, ?_⟩
        simp only [advance, if_neg hnotWaiting, checkBreakpoint, hdebugger,
          Debugger.check_of_has hresume hhas]
        rfl
    | false => exact .inr ⟨by simp, hexecuted (Debugger.check_of_not_has hhas)⟩

theorem advance_of_not_debugger (hwaiting : hart.waiting = false) (hdebugger : hart.debugger = none) :
    ∃ after, hart.advance = (none, after) ∧ after.debugger = none := by
  have hnotWaiting : ¬hart.waiting = true := by simp [hwaiting]
  refine ⟨{ hart.executeNext with cycles := hart.executeNext.cycles + 1 }, ?_,
    (congrArg Equipment.debugger hart.equipment_executeNext).trans hdebugger⟩
  simp only [advance, if_neg hnotWaiting, checkBreakpoint, hdebugger]

/-- A hart stops because it waits, and then as it is, or because it faces a breakpoint. -/
theorem advance_eq_stop {reason : StopReason} (hadvance : hart.advance = (some reason, after)) :
    (reason = .waitForInterrupt ∧ hart.waiting = true ∧ after = hart) ∨
    ∃ debugger, reason = .breakpoint hart.pc ∧ hart.debugger = some debugger ∧
      debugger.has hart.pc = true ∧ after = hart.stopped debugger := by
  cases hwaiting : hart.waiting with
  | true =>
      rw [advance_of_waiting hwaiting] at hadvance
      cases hadvance
      exact .inl ⟨rfl, rfl, rfl⟩
  | false =>
      cases hdebugger : hart.debugger with
      | none =>
          obtain ⟨executed, hexecuted, -⟩ := advance_of_not_debugger hwaiting hdebugger
          rw [hexecuted] at hadvance
          cases hadvance
      | some debugger =>
          rcases advance_cases hwaiting hdebugger with
            ⟨-, hhas, hstopped⟩ | ⟨-, executed, hexecuted, -⟩
          · rw [hstopped] at hadvance
            cases hadvance
            exact .inr ⟨debugger, rfl, rfl, hhas, rfl⟩
          · rw [hexecuted] at hadvance
            cases hadvance

/-! ### Stops before instructions -/

/-- The breakpoint that the hart comes from is the last thing that was seen of it. -/
def Announced (last : Option Moment) (hart : Hart) : Prop :=
  ∀ debugger, hart.debugger = some debugger → ∀ address, debugger.resumeFrom = some address →
    last = some (.stop address)

theorem Announced.of_debugger_eq (hannounced : hart.Announced last)
    (hdebugger : after.debugger = hart.debugger) : after.Announced last := by
  intro debugger hafter
  exact hannounced debugger (hdebugger ▸ hafter)

end Hart

namespace Moment

variable {last : Option Moment}

/-- An instruction at a breakpoint follows on a stop there. -/
def Follows (last : Option Moment) : Moment → Prop
  | fetch hart => hart.FacesBreakpoint → last = some (.stop hart.pc)
  | stop _ => True

/-- Each of some moments follows on the one before. -/
def AllFollow : Option Moment → List Moment → Prop
  | _, [] => True
  | last, moment :: rest => moment.Follows last ∧ AllFollow (some moment) rest

theorem getLast?_cons_or (moment : Moment) (rest : List Moment) (last : Option Moment) :
    (moment :: rest).getLast?.or last = rest.getLast?.or (some moment) := by
  cases hrest : rest.getLast? <;> simp [List.getLast?_cons, hrest]

theorem allFollow_append {first second : List Moment} : AllFollow last (first ++ second) ↔
    AllFollow last first ∧ AllFollow (first.getLast?.or last) second := by
  induction first generalizing last with
  | nil => simp [AllFollow]
  | cons moment rest ih =>
      rw [List.cons_append, AllFollow, AllFollow, ih, getLast?_cons_or, and_assoc]

end Moment

namespace Hart

variable {hart after : Hart} {debugger : Debugger} {address : Word} {last : Option Moment}

open Moment (AllFollow)

/-- By induction on the number of instructions: what a hart comes from is either what it came from
before, or where it has just stopped. -/
theorem allFollow_stepMoments (hannounced : hart.Announced last) (count : Nat) :
    AllFollow last (hart.stepMoments count) ∧
      (hart.step count).2.Announced ((hart.stepMoments count).getLast?.or last) := by
  induction count generalizing hart last with
  | zero => exact ⟨trivial, hannounced⟩
  | succ count ih =>
      cases hwaiting : hart.waiting with
      | true =>
          have hadvance := advance_of_waiting hwaiting
          rw [stepMoments_of_waiting hadvance, step_succ_of_stop hadvance]
          exact ⟨trivial, hannounced⟩
      | false =>
          -- An instruction at a breakpoint is executed only if the hart comes from there.
          have executed {after : Hart} (hadvance : hart.advance = (none, after))
              (hfollows : (Moment.fetch hart).Follows last)
              (hafter : after.Announced (some (.fetch hart))) :
              AllFollow last (hart.stepMoments (count + 1)) ∧ (hart.step (count + 1)).2.Announced
                ((hart.stepMoments (count + 1)).getLast?.or last) := by
            rw [stepMoments_of_advance hadvance, step_succ_of_advance hadvance,
              Moment.getLast?_cons_or]
            obtain ⟨hrest, hended⟩ := ih hafter
            exact ⟨⟨hfollows, hrest⟩, hended⟩
          cases hdebugger : hart.debugger with
          | none =>
              obtain ⟨after, hadvance, hafter⟩ := advance_of_not_debugger hwaiting hdebugger
              refine executed hadvance ?_ fun debugger hsome => ?_
              · rintro ⟨debugger, hsome, -⟩
                rw [hdebugger] at hsome
                cases hsome
              · rw [hafter] at hsome
                cases hsome
          | some debugger =>
              rcases advance_cases hwaiting hdebugger with
                ⟨-, -, hadvance⟩ | ⟨hresume, after, hadvance, hafter⟩
              · rw [stepMoments_of_breakpoint hadvance, step_succ_of_stop hadvance]
                refine ⟨⟨trivial, trivial⟩, fun debugger hstopped address hresumed => ?_⟩
                cases hstopped
                cases hresumed
                rfl
              · refine executed hadvance ?_ fun debugger hsome address hresumed => ?_
                · rintro ⟨found, hfound, hhas⟩
                  obtain rfl : debugger = found := Option.some.inj (hdebugger.symm.trans hfound)
                  exact hannounced debugger hdebugger hart.pc (hresume hhas)
                · rw [hafter] at hsome
                  cases hsome
                  cases hresumed

/-! ### Sessions -/

namespace Action

/-- The action changes no breakpoint, and executes no instruction. -/
def LeavesDebugger : Action → Prop
  | .step count => count = 0
  | .enableDebugger | .disableDebugger | .editDebugger _ => False
  | _ => True

/-- Breakpoints are changed by adding, removing and clearing them, if at all. -/
def EditsBreakpoints : Action → Prop
  | .editDebugger edit =>
      (∃ address, edit = fun debugger => (debugger.add address).2) ∨
        (∃ address, edit = fun debugger => (debugger.remove address).2) ∨ edit = Debugger.clear
  | _ => True

end Action

theorem debugger_act {action : Action} (hleaves : action.LeavesDebugger) :
    (hart.act action).debugger = hart.debugger := by
  cases action with
  | step count =>
      obtain rfl : count = 0 := hleaves
      rfl
  | setXlen xlen =>
      rw [act, setXlen]
      split <;> rfl
  | setCsr address value => exact congrArg Equipment.debugger (hart.equipment_setCsr address value)
  | writeCsr address value =>
      rw [act]
      split
      · rename_i written hwrite
        rw [(writeCsr_eq_ok hwrite).2]
        exact congrArg Equipment.debugger (hart.equipment_setCsr address value)
      · rfl
  | load address size => exact congrArg Equipment.debugger (hart.equipment_load address size)
  | store address value size =>
      exact congrArg Equipment.debugger (hart.equipment_store address value size)
  | enterTrap cause value =>
      exact congrArg Equipment.debugger (hart.equipment_enterTrap cause value)
  | reset hard pc =>
      rw [act, reset]
      split <;> rfl
  | enableDebugger => exact hleaves.elim
  | disableDebugger => exact hleaves.elim
  | editDebugger edit => exact hleaves.elim
  | _ => rfl

theorem debugger_run {actions : List Action}
    (hleave : ∀ action ∈ actions, action.LeavesDebugger) :
    (hart.run actions).debugger = hart.debugger :=
  run_induction (fun after => after.debugger = hart.debugger)
    (fun action hmem _ hsame => (debugger_act (hleave action hmem)).trans hsame) rfl

theorem announced_enableDebugger (hannounced : hart.Announced last) :
    hart.enableDebugger.Announced last := by
  intro debugger henabled address hresume
  cases hdebugger : hart.debugger with
  | none =>
      rw [enableDebugger, hdebugger] at henabled
      cases henabled
      cases hresume
  | some found =>
      rw [enableDebugger, hdebugger] at henabled
      cases henabled
      exact hannounced found hdebugger address hresume

theorem announced_editDebugger {edit : Debugger → Debugger}
    (hedit : (Action.editDebugger edit).EditsBreakpoints) (hannounced : hart.Announced last) :
    (hart.act (.editDebugger edit)).Announced last := by
  intro debugger hedited address hresume
  obtain ⟨found, hfound, rfl⟩ := Option.map_eq_some_iff.mp hedited
  rcases hedit with ⟨place, rfl⟩ | ⟨place, rfl⟩ | rfl
  · exact hannounced found hfound address hresume
  · exact hannounced found hfound address hresume
  · cases hresume

theorem allFollow_actionMoments {action : Action} (hedits : action.EditsBreakpoints)
    (hannounced : hart.Announced last) :
    AllFollow last (hart.actionMoments action) ∧
      (hart.act action).Announced ((hart.actionMoments action).getLast?.or last) := by
  cases action with
  | step count => exact allFollow_stepMoments hannounced count
  | enableDebugger => exact ⟨trivial, announced_enableDebugger hannounced⟩
  | disableDebugger => exact ⟨trivial, by simp [Announced, act, disableDebugger]⟩
  | editDebugger edit => exact ⟨trivial, announced_editDebugger hedits hannounced⟩
  | _ => exact ⟨trivial, hannounced.of_debugger_eq (debugger_act trivial)⟩

theorem allFollow_moments {actions : List Action}
    (hedits : ∀ action ∈ actions, action.EditsBreakpoints) (hannounced : hart.Announced last) :
    AllFollow last (hart.moments actions) := by
  induction actions generalizing hart last with
  | nil => trivial
  | cons action rest ih =>
      obtain ⟨hfirst, hrest⟩ := List.forall_mem_cons.mp hedits
      obtain ⟨hfollow, hafter⟩ := allFollow_actionMoments hfirst hannounced
      exact Moment.allFollow_append.mpr ⟨hfollow, ih hrest hafter⟩

/-! ### Stops -/

/-- A run stops at a breakpoint between two instructions, in front of one that it does not come
from. -/
theorem step_breakpoint {count : Nat} (hstop : (hart.step count).1.stop = some (.breakpoint address)) :
    let before := (hart.step (hart.step count).1.executed).2
    before.pc = address ∧ ∃ debugger, before.debugger = some debugger ∧
      debugger.has address = true ∧ (hart.step count).2 = before.stopped debugger := by
  induction count generalizing hart with
  | zero => cases hstop
  | succ count ih =>
      intro before
      rcases hadvance : hart.advance with ⟨_ | reason, after⟩
      · have hbefore : before = (after.step (after.step count).1.executed).2 := by
          simp only [before, step_succ_of_advance hadvance, StepOutcome.following,
            Nat.add_comm 1]
        rw [step_succ_of_advance hadvance] at hstop ⊢
        rw [hbefore]
        exact ih hstop
      · rw [step_succ_of_stop hadvance] at hstop ⊢
        cases hstop
        have hbefore : before = hart := by
          simp only [before, step_succ_of_stop hadvance]
          rfl
        rw [hbefore]
        rcases advance_eq_stop hadvance with ⟨hwait, -, -⟩ | ⟨debugger, hat, hdebugger, hhas, hafter⟩
        · cases hwait
        · cases hat
          exact ⟨rfl, debugger, hdebugger, hhas, hafter⟩

/-- A hart that comes from the breakpoint before it goes on. -/
theorem executed_step_pos (hdebugger : hart.debugger = some debugger)
    (hresume : debugger.resumeFrom = some hart.pc) (hwaiting : hart.waiting = false) {count : Nat}
    (hcount : 0 < count) : 0 < (hart.step count).1.executed := by
  obtain ⟨count, rfl⟩ := Nat.exists_eq_add_of_le' hcount
  rcases advance_cases hwaiting hdebugger with ⟨hne, -, -⟩ | ⟨-, after, hadvance, -⟩
  · exact absurd hresume hne
  · rw [step_succ_of_advance hadvance]
    exact Nat.add_pos_left Nat.one_pos _

/-- With breakpoints that were none at first: an instruction at one is executed only after a stop
there, with no instruction in between; a stop leaves everything as it was before but what is known of
breakpoints; and until the breakpoints are changed again the hart goes on from the stop. -/
theorem breakpoint_stops_once (hart : Hart) {actions : List Action}
    (hedits : ∀ action ∈ actions, action.EditsBreakpoints) :
    let start := { hart with debugger := some .empty }
    (∀ earlier fetching later, start.moments actions = earlier ++ .fetch fetching :: later →
      fetching.FacesBreakpoint → earlier.getLast? = some (.stop fetching.pc)) ∧
    ∀ count address, ((start.run actions).step count).1.stop = some (.breakpoint address) →
      let outcome := ((start.run actions).step count).1
      let before := ((start.run actions).step outcome.executed).2
      let stopped := ((start.run actions).step count).2
      (before.pc = address ∧ ∃ debugger, before.debugger = some debugger ∧
        debugger.has address = true ∧ stopped = before.stopped debugger) ∧
      ∀ between : List Action, (∀ action ∈ between, action.LeavesDebugger) →
        let later := stopped.run between
        later.pc = address → later.waiting = false → ∀ count > 0,
          0 < (later.step count).1.executed := by
  intro start
  refine ⟨fun earlier fetching later hsplit hfaces => ?_, fun count address hstop => ?_⟩
  · have hannounced : start.Announced none := by
      intro debugger hdebugger address hresume
      cases hdebugger
      cases hresume
    have hfollow := allFollow_moments hedits hannounced
    rw [hsplit, Moment.allFollow_append, Option.or_none] at hfollow
    exact hfollow.2.1 hfaces
  · intro outcome before stopped
    obtain ⟨hpc, debugger, hdebugger, hhas, hstopped⟩ := step_breakpoint hstop
    refine ⟨⟨hpc, debugger, hdebugger, hhas, hstopped⟩, ?_⟩
    intro between hleave later hlater hwaiting count hcount
    have hremembered : later.debugger = some { debugger with resumeFrom := some before.pc } := by
      rw [debugger_run hleave]
      exact congrArg Hart.debugger hstopped
    exact executed_step_pos hremembered (congrArg some (hpc.trans hlater.symm)) hwaiting hcount

/-- The jump `j .` at a breakpoint is executed once between two stops. -/
theorem breakpoint_stops_once_selfLoop :
    let actions : List Action := [.editDebugger fun debugger => (debugger.add 0x1000).2]
    let reached := { facing 0x0000006F with debugger := some .empty }.run actions
    let stopped := (reached.step 3).2.run [.wake]
    (∀ action ∈ actions, action.EditsBreakpoints) ∧
      (reached.step 3).1 = ⟨0, some (.breakpoint 0x1000)⟩ ∧ stopped.pc = 0x1000 ∧
      0 < (stopped.step 3).1.executed ∧
      (stopped.step 3).1 = ⟨1, some (.breakpoint 0x1000)⟩ := by
  intro actions reached stopped
  have hedits : ∀ action ∈ actions, action.EditsBreakpoints :=
    List.forall_mem_singleton.mpr (.inl ⟨0x1000, rfl⟩)
  obtain ⟨hstop, hpc, hwaiting, hagain⟩ :
      (reached.step 3).1 = ⟨0, some (.breakpoint 0x1000)⟩ ∧ stopped.pc = 0x1000 ∧
        stopped.waiting = false ∧ (stopped.step 3).1 = ⟨1, some (.breakpoint 0x1000)⟩ := by
    decide +kernel
  obtain ⟨-, hstops⟩ := breakpoint_stops_once (facing 0x0000006F) hedits
  obtain ⟨-, hgoesOn⟩ := hstops 3 0x1000 (congrArg StepOutcome.stop hstop)
  exact ⟨hedits, hstop, hpc, hgoesOn [.wake] (List.forall_mem_singleton.mpr trivial) hpc hwaiting 3
    (by decide), hagain⟩

end Hart

end RiscvMachine
