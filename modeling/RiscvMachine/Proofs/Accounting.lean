import RiscvMachine.Proofs.Batches
import RiscvMachine.Proofs.Breakpoints
import RiscvMachine.Proofs.ByteStore
import RiscvMachine.Proofs.Polling
/-!
What a test counts and what it leaves behind. Its batches come to an end, and together they are one
run of the hart. That run executes what the test counts; it falls short of the budget only where
there is a report, which is then acknowledged, or where the hart is held.
-/

namespace RiscvMachine

theorem Verdict.ofReport_ne_timeout {report : BitVec 32} (hreport : report ≠ 0) :
    ofReport report ≠ timeout := by
  rw [ofReport, if_neg hreport]
  split <;> nofun

/-- Aligned accesses of one size have all their bytes in common or none. -/
theorem AccessSize.apart_of_aligned {size : AccessSize} {address other : Word}
    (haddress : address.toNat % size.bytes = 0) (hother : other.toNat % size.bytes = 0)
    (hne : address ≠ other) :
    address.toNat + size.bytes ≤ other.toNat ∨ other.toNat + size.bytes ≤ address.toNat := by
  have hdifferent : address.toNat ≠ other.toNat := fun heq => hne (BitVec.eq_of_toNat_eq heq)
  cases size <;> simp only [bytes] at * <;> omega

namespace Hart

variable {hart : Hart} {count : Nat} {reason : StopReason}

/-- Why the hart does not go on with its next instruction. -/
def HeldBy (hart : Hart) : StopReason → Prop
  | .breakpoint address => hart.pc = address ∧ hart.FacesBreakpoint
  | .waitForInterrupt => hart.waiting = true

theorem heldBy_step (hstop : (hart.step count).1.stop = some reason) :
    (hart.step count).2.HeldBy reason := by
  induction count generalizing hart with
  | zero => cases hstop
  | succ count ih =>
      rcases hadvance : hart.advance with ⟨_ | other, after⟩
      · rw [step_succ_of_advance hadvance] at hstop ⊢
        exact ih hstop
      · rw [step_succ_of_stop hadvance] at hstop ⊢
        obtain rfl : other = reason := Option.some.inj hstop
        rcases advance_eq_stop hadvance with ⟨rfl, hwaiting, rfl⟩ | ⟨debugger, rfl, -, hhas, rfl⟩
        · exact hwaiting
        · exact ⟨rfl, _, rfl, hhas⟩

theorem HeldBy.record (hheld : hart.HeldBy reason) (event : Event) :
    (hart.record event).HeldBy reason := by
  cases reason <;> exact hheld

end Hart

namespace Simulation

variable {simulation ran after : Simulation} {mailbox : Word} {outcome : StepOutcome}
  {verdict : Verdict} {remaining rest : Nat} {report : BitVec 32}

/-! ### Reports -/

theorem eq_of_takeReport_none (htake : simulation.takeReport = (none, after)) :
    after = simulation := by
  cases hmailbox : simulation.config.toHost with
  | none =>
      simp only [takeReport, hmailbox] at htake
      exact (congrArg Prod.snd htake).symm
  | some mailbox =>
      rcases takeReport_cases hmailbox with ⟨-, hnothing⟩ | ⟨-, -, hreport⟩
      · exact (congrArg Prod.snd (hnothing.symm.trans htake)).symm
      · cases hreport.symm.trans htake

theorem takeReport_eq_some (hmailbox : simulation.config.toHost = some mailbox)
    (htake : simulation.takeReport = (some report, after)) :
    simulation.hart.memory.Readable mailbox .word ∧
      report = simulation.hart.memory.wordAt mailbox ∧ report ≠ 0 ∧
      after = simulation.relay mailbox report := by
  rcases takeReport_cases hmailbox with ⟨-, hnothing⟩ | ⟨hfound, hword, hreport⟩
  · cases hnothing.symm.trans htake
  · cases hreport.symm.trans htake
    exact ⟨hfound, rfl, hword, rfl⟩

theorem memory_post {memory : MemoryMap} {address : Word} {value : BitVec 32}
    (hstore : simulation.hart.memory.store address (value.setWidth 64) .word = .ok memory) :
    (simulation.post address value).hart.memory = memory := by
  rw [post, hstore]

/-- After a report one mailbox is clear and the other one holds the report. -/
theorem mailboxes_relay {acknowledgement : Word}
    (hother : simulation.config.fromHost = some acknowledgement) (hne : acknowledgement ≠ mailbox)
    (hfound : simulation.hart.memory.Readable mailbox .word)
    (hreadable : simulation.hart.memory.Readable acknowledgement .word) (report : BitVec 32) :
    let relayed := (simulation.relay mailbox report).hart.memory
    relayed.load mailbox .word = .ok 0 ∧
      relayed.load acknowledgement .word = .ok (report.setWidth 64) := by
  obtain ⟨cleared, hcleared⟩ := hfound.exists_store 0
  obtain ⟨acknowledged, hacknowledged⟩ :=
    (hreadable.store hcleared).exists_store (report.setWidth 64)
  intro relayed
  have hmemory : relayed = acknowledged := by
    have hfirst : (simulation.post mailbox 0).hart.memory = cleared := memory_post hcleared
    simp only [relayed, relay, hother]
    exact memory_post (hfirst ▸ hacknowledged)
  have hapart := AccessSize.apart_of_aligned hfound.aligned hreadable.aligned hne.symm
  rw [hmemory, MemoryMap.load_of_store_of_apart hacknowledged hapart]
  exact ⟨MemoryMap.load_of_store hcleared, MemoryMap.load_of_store_word hacknowledged⟩

/-! ### Batches -/

/-- How a test ends after a batch: with a report, or where the hart stops without one. -/
inductive Concludes (stop : Option StopReason) (ran : Simulation) : Verdict → Simulation → Prop
  | reported {report : BitVec 32} {after : Simulation}
      (htake : ran.takeReport = (some report, after)) : Concludes stop ran (.ofReport report) after
  | stopped {reason : StopReason} (htake : ran.takeReport = (none, ran))
      (hstop : stop = some reason) :
      Concludes stop ran .timeout
        { ran with hart := ran.hart.record (.stoppedEarly reason ran.hart.pc) }

/-- The batches of a test come to an end, with some instructions left over from those that remained.
What a batch executes is taken from what remains and is never more than that; batches that went on
without end would have no derivation. -/
inductive Finishes : (remaining : Nat) → Simulation → Verdict → (rest : Nat) → Simulation → Prop
  | exhausted (simulation : Simulation) : Finishes 0 simulation .timeout 0 simulation
  | concluded {remaining rest : Nat} {simulation ran after : Simulation} {outcome : StepOutcome}
      {verdict : Verdict} (hremains : 0 < remaining)
      (hrun : simulation.run (min remaining pollInterval) = (outcome, ran))
      (hrest : outcome.executed + rest = remaining)
      (hconcludes : Concludes outcome.stop ran verdict after) :
      Finishes remaining simulation verdict rest after
  | again {remaining next rest executed : Nat} {simulation ran after : Simulation}
      {verdict : Verdict} (hremains : 0 < remaining)
      (hrun : simulation.run (min remaining pollInterval) = (⟨executed, none⟩, ran))
      (hnext : executed + next = remaining) (htake : ran.takeReport = (none, ran))
      (hlater : Finishes next ran verdict rest after) :
      Finishes remaining simulation verdict rest after

theorem run_spec {count : Nat} (hrun : simulation.run count = (outcome, ran)) :
    simulation.hart.step count = (outcome, ran.hart) ∧ ran.config = simulation.config ∧
      ran.executed = simulation.executed + outcome.executed := by
  cases hrun
  exact ⟨rfl, rfl, rfl⟩

theorem executed_run_le {count : Nat} (hrun : simulation.run count = (outcome, ran)) :
    outcome.executed ≤ count := by
  have hle := simulation.hart.executed_step_le count
  rwa [(run_spec hrun).1] at hle

/-- By induction on the fuel: a batch that does not stop executes an instruction at least, so that
less than the fuel remains. -/
theorem finishes_runBatches {fuel : Nat} (hfuel : remaining ≤ fuel) (simulation : Simulation) :
    let ended := runBatches fuel remaining simulation
    Finishes remaining simulation ended.1 ended.2.1 ended.2.2 := by
  induction fuel generalizing remaining simulation with
  | zero =>
      obtain rfl := Nat.le_zero.mp hfuel
      exact .exhausted simulation
  | succ fuel ih =>
      rcases Nat.eq_zero_or_pos remaining with rfl | hremains
      · exact .exhausted simulation
      rcases hrun : simulation.run (min remaining pollInterval) with ⟨⟨executed, stop⟩, ran⟩
      have hexecuted : executed ≤ min remaining pollInterval := executed_run_le hrun
      obtain ⟨next, hnext⟩ := Nat.exists_eq_add_of_le (hexecuted.trans (Nat.min_le_left _ _))
      have hleft : remaining - executed = next := by omega
      rcases htake : ran.takeReport with ⟨_ | report, after⟩
      · obtain rfl := eq_of_takeReport_none htake
        cases stop with
        | some reason =>
            simp only [runBatches, if_neg (Nat.ne_of_gt hremains), hrun, htake, hleft]
            exact .concluded hremains hrun hnext.symm (.stopped htake rfl)
        | none =>
            have hall := composes_run simulation (min remaining pollInterval) 0
            rw [hrun] at hall
            have hprogress : next ≤ fuel := by
              rw [pollInterval] at hall
              omega
            simp only [runBatches, if_neg (Nat.ne_of_gt hremains), hrun, htake, hleft]
            exact .again hremains hrun hnext.symm htake (ih hprogress after)
      · simp only [runBatches, if_neg (Nat.ne_of_gt hremains), hrun, htake, hleft]
        exact .concluded hremains hrun hnext.symm (.reported htake)

/-- All batches of a test together are one run, that is over with the budget or as the last of them
is. -/
theorem Finishes.exists_run (hfinishes : Finishes remaining simulation verdict rest after) :
    ∃ count ≤ remaining, ∃ outcome ran, simulation.run count = (outcome, ran) ∧
      outcome.executed + rest = remaining ∧
      (Concludes outcome.stop ran verdict after ∨ rest = 0 ∧ verdict = .timeout ∧ after = ran) := by
  induction hfinishes with
  | exhausted simulation =>
      exact ⟨0, Nat.le_refl 0, ⟨0, none⟩, simulation, rfl, rfl, .inr ⟨rfl, rfl, rfl⟩⟩
  | concluded _ hrun hrest hconcludes =>
      exact ⟨_, Nat.min_le_left _ _, _, _, hrun, hrest, .inl hconcludes⟩
  | @again remaining next rest executed simulation ran after verdict _ hrun hnext _ _ ih =>
      obtain ⟨count, hcount, outcome, last, hlast, hrest, hended⟩ := ih
      have hsplit := composes_run simulation (min remaining pollInterval) count
      rw [hrun] at hsplit
      obtain ⟨hbatch, hboth⟩ := hsplit
      rw [hlast] at hboth
      refine ⟨_, ?_, _, _, hboth, ?_, hended⟩
      · omega
      · change executed + outcome.executed + rest = remaining
        omega

/-! ### Conclusions -/

namespace Concludes

variable {stop : Option StopReason} {start : Simulation} {count budget : Nat}

theorem executed (hconcludes : Concludes stop ran verdict after)
    (hmailbox : ran.config.toHost = some mailbox) : after.executed = ran.executed := by
  cases hconcludes with
  | reported htake =>
      obtain ⟨-, -, -, rfl⟩ := takeReport_eq_some hmailbox htake
      exact executed_relay ran _ _
  | stopped _ _ => rfl

theorem exists_reason (hconcludes : Concludes stop ran .timeout after)
    (hmailbox : ran.config.toHost = some mailbox) :
    ∃ reason, stop = some reason ∧
      after.hart = ran.hart.record (.stoppedEarly reason ran.hart.pc) := by
  generalize hverdict : Verdict.timeout = verdict at hconcludes
  cases hconcludes with
  | reported htake =>
      obtain ⟨-, -, hreport, -⟩ := takeReport_eq_some hmailbox htake
      exact absurd hverdict.symm (Verdict.ofReport_ne_timeout hreport)
  | stopped _ hstop => exact ⟨_, hstop, rfl⟩

theorem exists_report (hconcludes : Concludes stop ran verdict after)
    (hverdict : verdict ≠ .timeout) :
    ∃ report, verdict = .ofReport report ∧ ran.takeReport = (some report, after) := by
  cases hconcludes with
  | reported htake => exact ⟨_, rfl, htake⟩
  | stopped _ _ => exact absurd rfl hverdict

/-- Without a report a run is concluded where the hart is held, and no budget would lead further. -/
theorem heldBy (hconcludes : Concludes outcome.stop ran .timeout after)
    (hmailbox : ran.config.toHost = some mailbox) (hrun : start.run count = (outcome, ran))
    (hcount : count ≤ budget) :
    outcome.executed < budget ∧ ∃ reason,
      (start.hart.step budget).1 = ⟨outcome.executed, some reason⟩ ∧ after.hart.HeldBy reason := by
  obtain ⟨reason, hreason, hafter⟩ := hconcludes.exists_reason hmailbox
  have hstep := (run_spec hrun).1
  have hstop : (start.hart.step count).1.stop = some reason := by rw [hstep, hreason]
  have hheld := Hart.heldBy_step hstop
  rw [hstep] at hheld
  obtain ⟨rest, rfl⟩ := Nat.exists_eq_add_of_le hcount
  refine ⟨?_, reason, ?_, ?_⟩
  · rcases start.hart.executed_step_cases count with hall | ⟨hless, -⟩
    · rw [hall] at hstop
      cases hstop
    · rw [hstep] at hless
      exact Nat.lt_add_right rest hless
  · rw [Hart.step_add_of_stop hstop, hstep, ← hreason]
  · rw [hafter]
    exact hheld.record _

/-- A report is what the run leaves in the mailbox, and it is moved to the other mailbox. -/
theorem acknowledged {acknowledgement : Word}
    (hconcludes : Concludes outcome.stop ran verdict after) (hverdict : verdict ≠ .timeout)
    (hrun : start.run count = (outcome, ran)) (hmailbox : start.config.toHost = some mailbox)
    (hother : start.config.fromHost = some acknowledgement) (hne : acknowledgement ≠ mailbox)
    (hreadable : start.hart.memory.Readable acknowledgement .word) :
    ∃ report, verdict = .ofReport report ∧ report = start.wordAfter mailbox outcome.executed ∧
      after.hart.memory.load mailbox .word = .ok 0 ∧
      after.hart.memory.load acknowledgement .word = .ok (report.setWidth 64) := by
  obtain ⟨report, hreport, htake⟩ := hconcludes.exists_report hverdict
  obtain ⟨hstep, hconfig, -⟩ := run_spec hrun
  rw [← hconfig] at hmailbox hother
  have hmemory := start.hart.memory_step_executed count
  have hstored := start.hart.stored_step count
  rw [hstep] at hmemory hstored
  obtain ⟨hfound, hword, -, rfl⟩ := takeReport_eq_some hmailbox htake
  refine ⟨report, hreport, ?_,
    mailboxes_relay hother hne hfound (hreadable.stored hstored) report⟩
  rw [hword, wordAfter, hmemory]

end Concludes

/-! ### Tests -/

theorem runTest_ended (hmailbox : simulation.config.toHost = some mailbox) (count : Nat) :
    let ended := runBatches (simulation.testBudget count) (simulation.testBudget count)
      simulation.clearMailboxes
    (simulation.runTest count).2 = if ended.1 = .timeout ∧ ended.2.1 = 0 then
        { ended.2.2 with
          hart := ended.2.2.hart.record
            (.verdictMissing (ended.2.2.executed - simulation.executed)) }
      else ended.2.2 := by
  simp only [runTest, hmailbox]
  rw [← testBudget]
  split <;> rfl

/-- The simulation after a test that has used up its budget without a report. -/
def withoutVerdict (simulation : Simulation) (executed : Nat) : Simulation :=
  { simulation with hart := simulation.hart.record (.verdictMissing executed) }

/-- A test is the run of its batches, which counts what is executed. -/
theorem runTest_finishes (hmailbox : simulation.config.toHost = some mailbox) (count : Nat) :
    let start := simulation.clearMailboxes
    let budget := simulation.testBudget count
    let verdict := (simulation.runTest count).1.1
    let executed := (simulation.runTest count).1.2
    let after := (simulation.runTest count).2
    ∃ rest ended, Finishes budget start verdict rest ended ∧ executed + rest = budget ∧
      ended.executed = simulation.executed + executed ∧
      ∃ steps ≤ budget, ∃ outcome ran, start.run steps = (outcome, ran) ∧
        outcome.executed = executed ∧
        (Concludes outcome.stop ran verdict ended ∧ after = ended ∨
          rest = 0 ∧ verdict = .timeout ∧ after = ended.withoutVerdict executed) := by
  intro start budget verdict executed after
  obtain ⟨hconfig, hcounted, -⟩ := clearMailboxes_frame simulation
  have hfinishes := finishes_runBatches (Nat.le_refl budget) start
  have hresult : (simulation.runTest count).1 = _ := runTest_eq hmailbox count
  have hafter : after = _ := runTest_ended hmailbox count
  generalize runBatches (simulation.testBudget count) (simulation.testBudget count)
    simulation.clearMailboxes = result at hfinishes hresult hafter
  obtain ⟨decided, rest, ended⟩ := result
  dsimp only at hfinishes hresult hafter
  obtain rfl : verdict = decided := congrArg Prod.fst hresult
  have hexecuted : executed = ended.executed - simulation.executed := congrArg Prod.snd hresult
  rw [← hexecuted] at hafter
  obtain ⟨steps, hsteps, outcome, ran, hrun, hrest, hended⟩ := hfinishes.exists_run
  obtain ⟨-, hsame, hran⟩ := run_spec hrun
  have hposted : ran.config.toHost = some mailbox := by rw [hsame, hconfig, hmailbox]
  have hlast : ended.executed = simulation.executed + outcome.executed := by
    rw [← hcounted, ← hran]
    rcases hended with hconcludes | ⟨-, -, rfl⟩
    · exact hconcludes.executed hposted
    · rfl
  have hcount : outcome.executed = executed := by
    rw [hexecuted, hlast, Nat.add_sub_cancel_left]
  rw [hcount] at hrest hlast
  refine ⟨rest, ended, hfinishes, hrest, hlast, steps, hsteps, outcome, ran, hrun, hcount, ?_⟩
  rcases hended with hconcludes | ⟨hrest, htimeout, -⟩
  · refine .inl ⟨hconcludes, ?_⟩
    rw [hafter, if_neg]
    rintro ⟨htimeout : verdict = .timeout, hnone : rest = 0⟩
    -- A test that is held has not used up its budget.
    rw [htimeout] at hconcludes
    have hless := (hconcludes.heldBy hposted hrun hsteps).1
    rw [hcount, ← hrest, hnone] at hless
    exact absurd hless (Nat.lt_irrefl executed)
  · exact .inr ⟨hrest, htimeout, by rw [hafter, if_pos ⟨htimeout, hrest⟩]; rfl⟩

/-- A test ends within its budget, and all that it executes is counted. If it runs out of time
before its budget is used up, the hart is held; if it has a verdict, the reported word has gone from
one mailbox to the other. -/
theorem runTest_accounted (hmailbox : simulation.config.toHost = some mailbox) (count : Nat) :
    let start := simulation.clearMailboxes
    let budget := simulation.testBudget count
    let verdict := (simulation.runTest count).1.1
    let executed := (simulation.runTest count).1.2
    let after := (simulation.runTest count).2
    (∃ rest ended, Finishes budget start verdict rest ended ∧ executed + rest = budget ∧
      (after = ended ∨ after = ended.withoutVerdict executed)) ∧
    (after.executed = simulation.executed + executed ∧ executed ≤ budget) ∧
    (verdict = .timeout → executed < budget → ∃ reason,
      (start.hart.step budget).1 = ⟨executed, some reason⟩ ∧ after.hart.HeldBy reason) ∧
    (verdict ≠ .timeout → ∀ acknowledgement, simulation.config.fromHost = some acknowledgement →
      acknowledgement ≠ mailbox → simulation.hart.memory.Readable acknowledgement .word →
        ∃ report, verdict = .ofReport report ∧ report = start.wordAfter mailbox executed ∧
          after.hart.memory.load mailbox .word = .ok 0 ∧
          after.hart.memory.load acknowledgement .word = .ok (report.setWidth 64)) := by
  intro start budget verdict executed after
  obtain ⟨rest, ended, hfinishes, hrest, hlast, steps, hsteps, outcome, ran, hrun, hcount,
    hended⟩ := runTest_finishes hmailbox count
  obtain ⟨hconfig, -, hkept⟩ := clearMailboxes_frame simulation
  have hstart : start.config.toHost = some mailbox := by rw [hconfig, hmailbox]
  have hposted : ran.config.toHost = some mailbox := by rw [(run_spec hrun).2.1, hstart]
  refine ⟨⟨rest, ended, hfinishes, hrest, ?_⟩, ⟨?_, Nat.le.intro hrest⟩, ?_, ?_⟩
  · exact hended.imp And.right fun hexhausted => hexhausted.2.2
  · rw [← hlast]
    rcases hended with ⟨-, hafter : after = _⟩ | ⟨-, -, hafter : after = _⟩ <;> rw [hafter]
    rfl
  · intro (htimeout : (simulation.runTest count).1.1 = .timeout) hless
    rcases hended with ⟨hconcludes, hafter⟩ | ⟨hnone, -, -⟩
    · rw [htimeout] at hconcludes
      have hheld := (hconcludes.heldBy hposted hrun hsteps).2
      rwa [hcount, ← hafter] at hheld
    · omega
  · intro hdecided acknowledgement hother hne hreadable
    rcases hended with ⟨hconcludes, hafter⟩ | ⟨-, htimeout, -⟩
    · have hacknowledged := hconcludes.acknowledged hdecided hrun hstart
        (by rw [hconfig, hother]) hne (hkept _ hreadable)
      rwa [hcount, ← hafter] at hacknowledged
    · exact absurd htimeout hdecided

/-- A program that reports a failure has its report acknowledged, and one that waits is held. -/
theorem runTest_accounted_failure :
    let failing := reporting [0x00300093, 0x00001137, 0x00112023, 0x0000006F]
    let simulation := { failing with config := { failing.config with fromHost := some 0x1008 } }
    let waiting := reporting [0x10500073]
    (simulation.config.toHost = some 0x1000 ∧ waiting.config.toHost = some 0x1000) ∧
      ((simulation.runTest 5).1 = (.fail 1, 5) ∧ (simulation.runTest 5).2.executed = 5 ∧
        (simulation.runTest 5).2.hart.memory.load 0x1000 .word = .ok 0 ∧
        (simulation.runTest 5).2.hart.memory.load 0x1008 .word = .ok 3) ∧
      (waiting.runTest 10).1 = (.timeout, 1) ∧
      ∃ reason, (waiting.runTest 10).2.hart.HeldBy reason := by
  intro failing simulation waiting
  have hmailbox : simulation.config.toHost = some 0x1000 := rfl
  have hwaiting : waiting.config.toHost = some 0x1000 := rfl
  obtain ⟨-, ⟨hexecuted, -⟩, -, hreported⟩ := runTest_accounted hmailbox 5
  obtain ⟨-, -, hheld, -⟩ := runTest_accounted hwaiting 10
  have hruns : (simulation.runTest 5).1 = (.fail 1, 5) ∧
      simulation.clearMailboxes.wordAfter 0x1000 5 = 3 ∧
      (waiting.runTest 10).1 = (.timeout, 1) := by decide +kernel
  have hreadable : simulation.hart.memory.Readable 0x1008 .word := ⟨0, by decide +kernel⟩
  obtain ⟨hresult, hword, htimeout⟩ := hruns
  rw [hresult] at hexecuted hreported
  rw [htimeout] at hheld
  obtain ⟨report, -, hreport, htoHost, hfromHost⟩ :=
    hreported (by decide) 0x1008 rfl (by decide) hreadable
  obtain rfl : report = 3 := hreport.trans hword
  obtain ⟨reason, -, hreason⟩ := hheld rfl (by decide)
  exact ⟨⟨hmailbox, hwaiting⟩, ⟨hresult, hexecuted, htoHost, hfromHost⟩, htimeout, reason, hreason⟩

end Simulation

end RiscvMachine
