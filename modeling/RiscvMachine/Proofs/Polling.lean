import RiscvMachine.Proofs.Runs
import RiscvMachine.Simulation.Environment
/-!
Verdicts of test programs. A test looks into its mailbox after every batch of instructions, where it
stops, and at the end of its budget; the first word that it finds there decides.
-/

namespace RiscvMachine

namespace Simulation

/-- The number of instructions that a run of at most `budget` executes. -/
def runLength (simulation : Simulation) (budget : Nat) : Nat :=
  (simulation.hart.step budget).1.executed

/-- The word in a mailbox after so many instructions. -/
def wordAfter (simulation : Simulation) (mailbox : Word) (done : Nat) : BitVec 32 :=
  (simulation.hart.step done).2.memory.wordAt mailbox

/-- The number of instructions that a test may execute. -/
def testBudget (simulation : Simulation) (count : Nat) : Nat :=
  if count = 0 then simulation.config.stepLimit else count

/-- A test that executes `last` instructions looks into the mailbox after `done` of them. -/
def Polled (last done : Nat) : Prop :=
  done = last ∨ 0 < done ∧ done < last ∧ done % pollInterval = 0

/-- The verdict that the words in the mailbox call for, and the number of instructions before it. -/
inductive Judged (last : Nat) (word : Nat → BitVec 32) : Verdict → Nat → Prop
  | reported {poll : Nat} (hpolled : Polled last poll) (hword : word poll ≠ 0)
      (hfirst : ∀ earlier < poll, Polled last earlier → word earlier = 0) :
      Judged last word (.ofReport (word poll)) poll
  | silent (hsilent : ∀ poll, Polled last poll → word poll = 0) : Judged last word .timeout last

/-- A test of which `done` instructions are executed in whole batches, without a report so far. -/
structure Underway (start : Simulation) (mailbox : Word) (budget done : Nat)
    (current : Simulation) : Prop where
  toHost : current.config.toHost = some mailbox
  executed : current.executed = start.executed + done
  run : start.hart.step done = (⟨done, none⟩, current.hart)
  batches : done % pollInterval = 0 ∨ done = budget
  within : done ≤ budget
  silent : ∀ poll ≤ done, Polled (start.runLength budget) poll → start.wordAfter mailbox poll = 0

variable {simulation start current : Simulation} {mailbox : Word} {budget done : Nat}

/-! ### Polls -/

theorem not_polled_between {last next poll : Nat} (hbatches : done % pollInterval = 0)
    (hnext : next ≤ done + pollInterval) (hlast : next ≤ last) (hafter : done < poll)
    (hbefore : poll < next) : ¬Polled last poll := by
  simp only [Polled, pollInterval] at *
  omega

theorem Judged.eq_of_reported {last poll executed : Nat} {word : Nat → BitVec 32}
    {verdict : Verdict} (hjudged : Judged last word verdict executed) (hpolled : Polled last poll)
    (hword : word poll ≠ 0) (hfirst : ∀ earlier < poll, Polled last earlier → word earlier = 0) :
    verdict = .ofReport (word poll) ∧ executed = poll := by
  cases hjudged with
  | reported hotherPolled hotherWord hotherFirst =>
      rcases Nat.lt_trichotomy poll executed with hlt | heq | hlt
      · exact absurd (hotherFirst poll hlt hpolled) hword
      · rw [heq]
        exact ⟨rfl, rfl⟩
      · exact absurd (hfirst executed hlt hotherPolled) hotherWord
  | silent hsilent => exact absurd (hsilent poll hpolled) hword

theorem executed_post (simulation : Simulation) (address : Word) (value : BitVec 32) :
    (simulation.post address value).executed = simulation.executed := by
  rw [post]
  split <;> rfl

theorem config_post (simulation : Simulation) (address : Word) (value : BitVec 32) :
    (simulation.post address value).config = simulation.config := by
  rw [post]
  split <;> rfl

/-- The simulation after a report has been taken from its mailbox: it is acknowledged in the other
one. -/
def relay (simulation : Simulation) (mailbox : Word) (report : BitVec 32) : Simulation :=
  match simulation.config.fromHost with
  | none => simulation.post mailbox 0
  | some acknowledgement => (simulation.post mailbox 0).post acknowledgement report

theorem executed_relay (simulation : Simulation) (mailbox : Word) (report : BitVec 32) :
    (simulation.relay mailbox report).executed = simulation.executed := by
  rw [relay]
  split
  · exact executed_post simulation mailbox 0
  · exact (executed_post _ _ _).trans (executed_post simulation mailbox 0)

/-- A word other than zero is a report, that is taken; else nothing happens. -/
theorem takeReport_cases (hmailbox : simulation.config.toHost = some mailbox) :
    simulation.hart.memory.wordAt mailbox = 0 ∧ simulation.takeReport = (none, simulation) ∨
      simulation.hart.memory.Readable mailbox .word ∧ simulation.hart.memory.wordAt mailbox ≠ 0 ∧
        simulation.takeReport = (some (simulation.hart.memory.wordAt mailbox),
          simulation.relay mailbox (simulation.hart.memory.wordAt mailbox)) := by
  simp only [takeReport, hmailbox, config_post, relay]
  cases hload : simulation.hart.memory.load mailbox .word with
  | error error => exact .inl ⟨by rw [MemoryMap.wordAt, hload], rfl⟩
  | ok value =>
      have hword : simulation.hart.memory.wordAt mailbox = value.setWidth 32 := by
        rw [MemoryMap.wordAt, hload]
      rw [hword]
      by_cases hzero : value.setWidth 32 = 0
      · exact .inl ⟨hzero, if_pos hzero⟩
      · refine .inr ⟨⟨value, hload⟩, hzero, (if_neg hzero).trans ?_⟩
        cases simulation.config.fromHost <;> rfl

theorem takeReport_of_eq_zero (simulation : Simulation)
    (hmailbox : simulation.config.toHost = some mailbox)
    (hword : simulation.hart.memory.wordAt mailbox = 0) :
    simulation.takeReport = (none, simulation) := by
  rcases takeReport_cases hmailbox with ⟨-, htake⟩ | ⟨-, hother, -⟩
  · exact htake
  · exact absurd hword hother

theorem takeReport_of_ne_zero (simulation : Simulation)
    (hmailbox : simulation.config.toHost = some mailbox)
    (hword : simulation.hart.memory.wordAt mailbox ≠ 0) :
    simulation.takeReport = (some (simulation.hart.memory.wordAt mailbox),
      simulation.relay mailbox (simulation.hart.memory.wordAt mailbox)) := by
  rcases takeReport_cases hmailbox with ⟨hother, -⟩ | ⟨-, -, htake⟩
  · exact absurd hother hword
  · exact htake

/-! ### One batch -/

section Iteration

variable {remaining batch : Nat}

/-- A batch that neither stops nor leaves a report is followed by the next one. -/
theorem runBatches_of_unreported (fuel : Nat) (hbatch : batch = min remaining pollInterval)
    (hremaining : remaining ≠ 0) (hmailbox : current.config.toHost = some mailbox)
    (hall : (current.hart.step batch).1 = ⟨batch, none⟩)
    (hword : (current.hart.step batch).2.memory.wordAt mailbox = 0) :
    runBatches (fuel + 1) remaining current =
      runBatches fuel (remaining - batch) (current.run batch).2 := by
  have htake := takeReport_of_eq_zero (current.run batch).2 hmailbox hword
  have hrun : (current.run batch).1 = ⟨batch, none⟩ := hall
  rw [runBatches, if_neg hremaining, ← hbatch]
  simp only [htake, hrun]

theorem runBatches_of_stop (fuel : Nat) (hbatch : batch = min remaining pollInterval)
    (hremaining : remaining ≠ 0) (hmailbox : current.config.toHost = some mailbox)
    (hstop : (current.hart.step batch).1.stop ≠ none)
    (hword : (current.hart.step batch).2.memory.wordAt mailbox = 0) :
    (runBatches (fuel + 1) remaining current).1 = .timeout ∧
      (runBatches (fuel + 1) remaining current).2.2.executed =
        current.executed + (current.hart.step batch).1.executed := by
  have htake := takeReport_of_eq_zero (current.run batch).2 hmailbox hword
  obtain ⟨reason, hreason⟩ := Option.ne_none_iff_exists'.mp hstop
  have hrun : (current.run batch).1.stop = some reason := hreason
  rw [runBatches, if_neg hremaining, ← hbatch]
  simp only [htake, hrun, true_and]
  rfl

theorem runBatches_of_report (fuel : Nat) (hbatch : batch = min remaining pollInterval)
    (hremaining : remaining ≠ 0) (hmailbox : current.config.toHost = some mailbox)
    (hword : (current.hart.step batch).2.memory.wordAt mailbox ≠ 0) :
    (runBatches (fuel + 1) remaining current).1 =
        .ofReport ((current.hart.step batch).2.memory.wordAt mailbox) ∧
      (runBatches (fuel + 1) remaining current).2.2.executed =
        current.executed + (current.hart.step batch).1.executed := by
  have htake := takeReport_of_ne_zero (current.run batch).2 hmailbox hword
  rw [runBatches, if_neg hremaining, ← hbatch]
  simp only [htake, executed_relay]
  exact ⟨rfl, rfl⟩

end Iteration

namespace Underway

/-- The next batch leads as far as a run from the start does. -/
theorem step_add (hunderway : Underway start mailbox budget done current) (batch : Nat) :
    start.hart.step (done + batch) =
      ((current.hart.step batch).1.following done, (current.hart.step batch).2) := by
  have hnone : (start.hart.step done).1.stop = none := by rw [hunderway.run]
  rw [Hart.step_add_of_none hnone, hunderway.run]

theorem wordAfter_batch (hunderway : Underway start mailbox budget done current) (batch : Nat) :
    start.wordAfter mailbox (done + (current.hart.step batch).1.executed) =
      (current.hart.step batch).2.memory.wordAt mailbox := by
  have hmemory := Hart.memory_step_executed start.hart (done + batch)
  rw [hunderway.step_add batch] at hmemory
  exact congrArg (fun memory : MemoryMap => memory.wordAt mailbox) hmemory

/-- A batch that stops is the last one. -/
theorem runLength_of_stop (hunderway : Underway start mailbox budget done current) {batch : Nat}
    (hbatch : done + batch ≤ budget) (hstop : (current.hart.step batch).1.stop ≠ none) :
    start.runLength budget = done + (current.hart.step batch).1.executed := by
  obtain ⟨reason, hreason⟩ := Option.ne_none_iff_exists'.mp hstop
  obtain ⟨rest, rfl⟩ := Nat.exists_eq_add_of_le hbatch
  have hstopped : (start.hart.step (done + batch)).1.stop = some reason := by
    rw [hunderway.step_add batch]
    exact hreason
  rw [runLength, Hart.step_add_of_stop hstopped, hunderway.step_add batch]
  rfl

theorem le_runLength_of_all (hunderway : Underway start mailbox budget done current) {batch : Nat}
    (hbatch : done + batch ≤ budget) (hall : (current.hart.step batch).1 = ⟨batch, none⟩) :
    done + batch ≤ start.runLength budget := by
  obtain ⟨rest, rfl⟩ := Nat.exists_eq_add_of_le hbatch
  have hnone : (start.hart.step (done + batch)).1.stop = none := by
    rw [hunderway.step_add batch, hall]
    rfl
  rw [runLength, Hart.step_add_of_none hnone]
  exact Nat.le_add_right (done + batch) _

variable {batch : Nat}

/-- The mailbox is looked into after the next batch, and not before. -/
theorem polled_batch (hunderway : Underway start mailbox budget done current)
    (hremains : done < budget) (hbatch : batch = min (budget - done) pollInterval) :
    Polled (start.runLength budget) (done + (current.hart.step batch).1.executed) ∧
      ∀ poll < done + (current.hart.step batch).1.executed,
        Polled (start.runLength budget) poll → start.wordAfter mailbox poll = 0 := by
  have hbatches : done % pollInterval = 0 := hunderway.batches.resolve_right (Nat.ne_of_lt hremains)
  have hsize : (current.hart.step batch).1.executed ≤ batch := Hart.executed_step_le _ _
  have hwithin : done + batch ≤ budget := by omega
  have hlength : start.runLength budget ≤ budget := Hart.executed_step_le _ _
  have hreached : done + (current.hart.step batch).1.executed ≤ start.runLength budget ∧
      Polled (start.runLength budget) (done + (current.hart.step batch).1.executed) := by
    rcases Hart.executed_step_cases current.hart batch with hall | ⟨-, hstop⟩
    · have hlast := hunderway.le_runLength_of_all hwithin hall
      simp only [hall, Polled]
      rw [pollInterval] at *
      omega
    · have hlast := hunderway.runLength_of_stop hwithin hstop
      exact ⟨Nat.le_of_eq hlast.symm, .inl hlast.symm⟩
  refine ⟨hreached.2, fun poll hpoll hpolled => ?_⟩
  by_cases hdone : poll ≤ done
  · exact hunderway.silent poll hdone hpolled
  · refine absurd hpolled (not_polled_between hbatches ?_ hreached.1 (by omega) hpoll)
    omega

theorem next (hunderway : Underway start mailbox budget done current) (hremains : done < budget)
    (hbatch : batch = min (budget - done) pollInterval)
    (hall : (current.hart.step batch).1 = ⟨batch, none⟩)
    (hword : start.wordAfter mailbox (done + batch) = 0) :
    Underway start mailbox budget (done + batch) (current.run batch).2 := by
  have hbatches : done % pollInterval = 0 := hunderway.batches.resolve_right (Nat.ne_of_lt hremains)
  obtain ⟨-, hsilent⟩ := hunderway.polled_batch hremains hbatch
  rw [hall] at hsilent
  refine ⟨hunderway.toHost, ?_, ?_, ?_, ?_, fun poll hpoll hpolled => ?_⟩
  · simp only [Simulation.run, hunderway.executed, hall, Nat.add_assoc]
  · rw [hunderway.step_add, hall]
    rfl
  · rw [pollInterval] at *
    omega
  · omega
  · rcases Nat.lt_or_eq_of_le hpoll with hlt | heq
    · exact hsilent poll hlt hpolled
    · rw [heq]
      exact hword

/-! ### All batches -/

theorem judged_of_eq (hunderway : Underway start mailbox budget done current)
    (hdone : done = budget) :
    Judged (start.runLength budget) (start.wordAfter mailbox) .timeout done := by
  have hlast : start.runLength budget = done := by
    rw [← hdone, runLength, hunderway.run]
  have hsilent : ∀ poll, Polled done poll → start.wordAfter mailbox poll = 0 := by
    intro poll hpolled
    have hpoll : poll ≤ done := by
      rw [Polled] at hpolled
      omega
    exact hunderway.silent poll hpoll (by rwa [hlast])
  rw [hlast]
  exact .silent hsilent

theorem judged_of_stop (hunderway : Underway start mailbox budget done current)
    (hremains : done < budget) (hbatch : batch = min (budget - done) pollInterval)
    (hstop : (current.hart.step batch).1.stop ≠ none)
    (hword : start.wordAfter mailbox (done + (current.hart.step batch).1.executed) = 0) :
    Judged (start.runLength budget) (start.wordAfter mailbox) .timeout
      (done + (current.hart.step batch).1.executed) := by
  obtain ⟨-, hsilent⟩ := hunderway.polled_batch hremains hbatch
  have hlast := hunderway.runLength_of_stop (by omega) hstop
  rw [hlast] at hsilent ⊢
  refine .silent fun poll hpolled => ?_
  rcases hpolled with rfl | ⟨hpos, hlt, hmultiple⟩
  · exact hword
  · exact hsilent poll hlt (.inr ⟨hpos, hlt, hmultiple⟩)

/-- The batches end with the verdict that the polls call for, by induction on the batches. -/
theorem judged {fuel : Nat} (hunderway : Underway start mailbox budget done current)
    (hfuel : budget - done ≤ fuel) :
    ∃ executed, (runBatches fuel (budget - done) current).2.2.executed = start.executed + executed ∧
      Judged (start.runLength budget) (start.wordAfter mailbox)
        (runBatches fuel (budget - done) current).1 executed := by
  have hwithin := hunderway.within
  induction fuel generalizing done current with
  | zero => exact ⟨done, hunderway.executed, hunderway.judged_of_eq (by omega)⟩
  | succ fuel ih =>
      by_cases hdone : done = budget
      · rw [runBatches, if_pos (by omega)]
        exact ⟨done, hunderway.executed, hunderway.judged_of_eq hdone⟩
      have hremains : done < budget := by omega
      have hremaining : budget - done ≠ 0 := by omega
      obtain ⟨batch, hbatch⟩ : ∃ batch, batch = min (budget - done) pollInterval := ⟨_, rfl⟩
      obtain ⟨hpolled, hsilent⟩ := hunderway.polled_batch hremains hbatch
      have hfound := hunderway.wordAfter_batch batch
      have hexecuted : current.executed + (current.hart.step batch).1.executed =
          start.executed + (done + (current.hart.step batch).1.executed) := by
        rw [hunderway.executed, Nat.add_assoc]
      by_cases hword : (current.hart.step batch).2.memory.wordAt mailbox = 0
      · rcases Hart.executed_step_cases current.hart batch with hall | ⟨-, hstop⟩
        · rw [hall] at hfound
          have hnext := hunderway.next hremains hbatch hall (hfound.trans hword)
          rw [runBatches_of_unreported fuel hbatch hremaining hunderway.toHost hall hword,
            Nat.sub_sub]
          exact ih hnext (by rw [pollInterval] at *; omega) hnext.within
        · obtain ⟨hverdict, hran⟩ :=
            runBatches_of_stop fuel hbatch hremaining hunderway.toHost hstop hword
          refine ⟨_, hran.trans hexecuted, ?_⟩
          rw [hverdict]
          exact hunderway.judged_of_stop hremains hbatch hstop (hfound.trans hword)
      · obtain ⟨hverdict, hran⟩ :=
          runBatches_of_report fuel hbatch hremaining hunderway.toHost hword
        refine ⟨_, hran.trans hexecuted, ?_⟩
        rw [hverdict, ← hfound]
        rw [← hfound] at hword
        exact .reported hpolled hword hsilent

end Underway

/-! ### Tests -/

section Mailboxes

variable {address : Word}

/-- A mailbox that is cleared, or cannot be, leaves nothing else changed. -/
theorem clearMailbox_cases (simulation : Simulation) (address : Word) :
    (simulation.clearMailbox address).config = simulation.config ∧
      (simulation.clearMailbox address).executed = simulation.executed ∧
      ((simulation.clearMailbox address).hart.memory = simulation.hart.memory ∨
        simulation.hart.memory.store address 0 .word =
          .ok (simulation.clearMailbox address).hart.memory) := by
  rw [clearMailbox]
  split <;> rename_i hstore
  · exact ⟨rfl, rfl, .inl rfl⟩
  · exact ⟨rfl, rfl, .inr hstore⟩

theorem blank_clearMailbox_self (hreadable : simulation.hart.memory.Readable mailbox .word) :
    (simulation.clearMailbox mailbox).hart.memory.Blank mailbox := by
  obtain ⟨memory, hstore⟩ := hreadable.exists_store 0
  rw [clearMailbox, hstore]
  exact MemoryMap.blank_of_store_zero hstore

theorem blank_clearMailbox (hblank : simulation.hart.memory.Blank mailbox) (address : Word) :
    (simulation.clearMailbox address).hart.memory.Blank mailbox := by
  obtain ⟨-, -, hkept | hstore⟩ := clearMailbox_cases simulation address
  · rwa [hkept]
  · exact hblank.store_zero hstore

theorem readable_clearMailbox (hreadable : simulation.hart.memory.Readable mailbox .word)
    (address : Word) : (simulation.clearMailbox address).hart.memory.Readable mailbox .word := by
  obtain ⟨-, -, hkept | hstore⟩ := clearMailbox_cases simulation address
  · rwa [hkept]
  · exact hreadable.store hstore

/-- Clearing mailboxes takes nothing out of memory, and is no part of the execution. -/
theorem clearMailboxes_frame (simulation : Simulation) :
    simulation.clearMailboxes.config = simulation.config ∧
      simulation.clearMailboxes.executed = simulation.executed ∧
      ∀ address, simulation.hart.memory.Readable address .word →
        simulation.clearMailboxes.hart.memory.Readable address .word := by
  rw [clearMailboxes]
  generalize simulation.config.mailboxes = mailboxes
  induction mailboxes generalizing simulation with
  | nil => exact ⟨rfl, rfl, fun _ hreadable => hreadable⟩
  | cons first rest ih =>
      obtain ⟨hconfig, hexecuted, -⟩ := clearMailbox_cases simulation first
      obtain ⟨hconfig', hexecuted', hreadable'⟩ := ih (simulation.clearMailbox first)
      exact ⟨hconfig'.trans hconfig, hexecuted'.trans hexecuted,
        fun address hreadable => hreadable' address (readable_clearMailbox hreadable first)⟩

theorem blank_clearMailboxes (hmailbox : simulation.config.toHost = some mailbox)
    (hreadable : simulation.hart.memory.Readable mailbox .word) :
    simulation.clearMailboxes.hart.memory.Blank mailbox := by
  have hcleared := blank_clearMailbox_self hreadable
  rw [clearMailboxes, SimulationConfig.mailboxes, hmailbox]
  cases simulation.config.fromHost with
  | none => exact hcleared
  | some acknowledgement => exact blank_clearMailbox hcleared acknowledgement

theorem runTest_eq (hmailbox : simulation.config.toHost = some mailbox) (count : Nat) :
    let ended := runBatches (simulation.testBudget count) (simulation.testBudget count)
      simulation.clearMailboxes
    (simulation.runTest count).1 = (ended.1, ended.2.2.executed - simulation.executed) := by
  intro ended
  simp only [runTest, hmailbox]
  rw [← testBudget]
  split
  · rename_i hsilent
    exact congrArg (fun verdict => (verdict, ended.2.2.executed - simulation.executed)) hsilent.1.symm
  · rfl

/-- The verdict of a test is that of the first word that a poll finds in the mailbox, and of the
first word of all if it is still there at the next poll. -/
theorem runTest_judged (hmailbox : simulation.config.toHost = some mailbox)
    (hreadable : simulation.hart.memory.Readable mailbox .word) (count : Nat) :
    let start := simulation.clearMailboxes
    let last := start.runLength (simulation.testBudget count)
    let word := start.wordAfter mailbox
    let result := (simulation.runTest count).1
    (word 0 = 0 ∧ ∀ done ≤ last, (start.hart.step done).1 = ⟨done, none⟩ ∧
      (start.hart.step done).2.memory.load mailbox .word = .ok ((word done).setWidth 64)) ∧
    Judged last word result.1 result.2 ∧
    ∀ first ≤ last, 0 < first → word first ≠ 0 → (∀ earlier < first, word earlier = 0) →
      ∀ poll, first ≤ poll → Polled last poll →
        (∀ other, first ≤ other → Polled last other → poll ≤ other) → word poll = word first →
          result = (.ofReport (word first), poll) := by
  intro start last word result
  have hempty : word 0 = 0 := (blank_clearMailboxes hmailbox hreadable).wordAt_eq_zero
  obtain ⟨hconfig, hexecuted, hkept⟩ := clearMailboxes_frame simulation
  replace hreadable := hkept mailbox hreadable
  have hunderway : Underway start mailbox (simulation.testBudget count) 0 start := by
    refine ⟨by rw [hconfig, hmailbox], rfl, rfl, .inl rfl, Nat.zero_le _, fun poll hpoll _ => ?_⟩
    rw [Nat.le_zero.mp hpoll]
    exact hempty
  have hjudged : Judged last word result.1 result.2 := by
    obtain ⟨executed, hran, hjudged⟩ := hunderway.judged (Nat.le_refl _)
    have hresult : result = _ := runTest_eq hmailbox count
    rw [hresult]
    simp only [Nat.sub_zero] at hran hjudged
    rw [hran, hexecuted, Nat.add_sub_cancel_left]
    exact hjudged
  refine ⟨⟨hempty, fun done hdone => ⟨Hart.step_of_le_executed hdone, ?_⟩⟩, hjudged, ?_⟩
  · exact MemoryMap.load_eq_wordAt (hreadable.stored (Hart.stored_step start.hart done))
  · intro first hfirst hpos hword hbefore poll hafter hpolled hnext hkept
    have hsilent : ∀ earlier < poll, Polled last earlier → word earlier = 0 := by
      intro earlier hearlier hearlierPolled
      refine hbefore earlier (Nat.lt_of_not_le fun hle => ?_)
      exact absurd hearlier (Nat.not_lt_of_le (hnext earlier hle hearlierPolled))
    have hreported : word poll ≠ 0 := by rwa [hkept]
    obtain ⟨hverdict, hpoll⟩ := hjudged.eq_of_reported hpolled hreported hsilent
    rw [hkept] at hverdict
    exact Prod.ext hverdict hpoll

end Mailboxes

/-- A program at the start of memory, and a mailbox behind it. -/
def reporting (program : List Word) : Simulation where
  hart :=
    let memory := MemoryMap.withRegion 0 0x2000
    let bytes := program.flatMap fun instruction => bytesOf 4 instruction.toNat
    .initial .standard ((memory.writeBytes 0 bytes).toOption.getD memory) (.identity .empty) .x64 0
  config := { SimulationConfig.default with toHost := some 0x1000 }
  executed := 0

/-- `addi x1, x0, 3`, `lui x2, 1`, `sw x1, 0(x2)` report the failure of the first test. -/
theorem runTest_judged_failure :
    let simulation := reporting [0x00300093, 0x00001137, 0x00112023, 0x0000006F]
    simulation.config.toHost = some 0x1000 ∧ simulation.hart.memory.Readable 0x1000 .word ∧
      (simulation.runTest 5).1 = (.fail 1, 5) := by
  intro simulation
  have hmailbox : simulation.config.toHost = some 0x1000 := rfl
  have hreadable : simulation.hart.memory.Readable 0x1000 .word := ⟨0, by decide +kernel⟩
  have hwords : simulation.clearMailboxes.runLength 5 = 5 ∧
      (∀ done < 3, simulation.clearMailboxes.wordAfter 0x1000 done = 0) ∧
      simulation.clearMailboxes.wordAfter 0x1000 3 = 3 ∧
      simulation.clearMailboxes.wordAfter 0x1000 5 = 3 := by
    decide +kernel
  obtain ⟨hlast, hbefore, hfirst, hpoll⟩ := hwords
  obtain ⟨-, -, hreport⟩ := runTest_judged hmailbox hreadable 5
  have hbudget : simulation.testBudget 5 = 5 := rfl
  rw [hbudget, hlast] at hreport
  refine ⟨hmailbox, hreadable, ?_⟩
  have hresult := hreport 3 (by decide) (by decide) (by rw [hfirst]; decide) hbefore 5 (by decide)
    (.inl rfl) ?_ (hpoll.trans hfirst.symm)
  · rw [hresult, hfirst]
    rfl
  · intro other hother hpolled
    rw [Polled, pollInterval] at hpolled
    omega

/-- A program that replaces its report of a failure before the next poll passes. -/
theorem runTest_replacedReport :
    let simulation :=
      reporting [0x00300093, 0x00001137, 0x00112023, 0x00100093, 0x00112023, 0x0000006F]
    (simulation.config.toHost = some 0x1000 ∧
      simulation.hart.memory.load 0x1000 .word = .ok 0) ∧
      (∀ done < 3, simulation.clearMailboxes.wordAfter 0x1000 done = 0) ∧
      simulation.clearMailboxes.wordAfter 0x1000 3 = 3 ∧
      (simulation.runTest 100).1 = (.pass, 100) ∧ Verdict.ofReport 3 = .fail 1 := by
  decide +kernel

end Simulation

end RiscvMachine
