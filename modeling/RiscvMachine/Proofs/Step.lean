import RiscvMachine.Hart.Step
import RiscvMachine.Proofs.Dispatch
import RiscvMachine.Proofs.Execution
/-!
One instruction, from its fetch to the trap in which it may end. `Hart.Performed` lists how a
fetched encoding is carried out, case by case of the decision that the decoder makes on it.
-/

namespace RiscvMachine

namespace Hart

/-- The second hart may differ in remembered translations and recorded events, and nothing else. -/
def Undisturbed (before after : Hart) : Prop :=
  ∃ translation journal, after = { before with translation := translation, journal := journal }

def decision (hart : Hart) (raw : Encoding) : Decoder.Decision :=
  (hart.instructions.decoder hart.xlen).decide raw

def nextPc (hart : Hart) (raw : Encoding) : Word :=
  hart.xlen.address (hart.pc + BitVec.ofNat 64 (EncodedLength.of raw).bytes)

def operandsOf (hart : Hart) (row : Row) (raw : Encoding) : Operands :=
  BoundDecoder.operandsOf row.binding row.declaration raw hart.pc

/-- The hart after an operation: moved on behind the instruction unless the flow says otherwise. -/
def finish (hart : Hart) (row : Row) (raw : Encoding) (flow : Flow) (after : Hart) : Hart :=
  if row.binding.pcUpdate.advances flow then { after with pc := hart.nextPc raw } else after

/-- How an encoding ends whose bound operation has had an outcome. -/
def conclude (hart : Hart) (raw : Encoding) (binding : Binding) : Execution → Completion × Hart
  | (.error exception, after) =>
      (.trapped ⟨exception.cause, trapValue exception raw⟩ none, { after with pc := hart.pc })
  | (.ok .call, after) =>
      (.trapped ⟨.callFrom after.privilege, 0⟩
        (if binding.pcUpdate.advances .call then some (hart.nextPc raw) else none), after)
  | (.ok flow, after) =>
      (.retired, if binding.pcUpdate.advances flow then { after with pc := hart.nextPc raw } else after)

/-- The ways in which an encoding is carried out with an instruction set of bound declarations. -/
inductive Performed (bound : List Row) (hart : Hart) (raw : Encoding) : Completion → Hart → Prop
  | illegal (journal : Option (Array Event)) (hdecision : hart.decision raw = .illegal) :
      Performed bound hart raw (.trapped ⟨.illegalInstruction, raw.setWidth 64⟩ none)
        { hart with journal := journal }
  | nop {entry : Entry} (hdecision : hart.decision raw = .nop entry) :
      Performed bound hart raw .retired { hart with pc := hart.nextPc raw }
  | failed {entry : Entry} {row : Row} {exception : Exception} (translation : Translation)
      (hdecision : hart.decision raw = .instruction entry) (hrow : row ∈ bound)
      (hdeclaration : row.declaration = entry.declaration)
      (hfailure : Failure hart (hart.operandsOf row raw) row.binding.operation exception) :
      Performed bound hart raw (.trapped ⟨exception.cause, trapValue exception raw⟩ none)
        { hart with translation := translation }
  | called {entry : Entry} {row : Row} (hdecision : hart.decision raw = .instruction entry)
      (hrow : row ∈ bound) (hdeclaration : row.declaration = entry.declaration)
      (hoperation : row.binding.operation = .environmentCall) :
      Performed bound hart raw
        (.trapped ⟨.callFrom hart.privilege, 0⟩
          (if row.binding.pcUpdate.advances .call then some (hart.nextPc raw) else none))
        hart
  | succeeded {entry : Entry} {row : Row} {flow : Flow} {after : Hart}
      (hdecision : hart.decision raw = .instruction entry) (hrow : row ∈ bound)
      (hdeclaration : row.declaration = entry.declaration) (hflow : flow ≠ .call)
      (hexecute : row.binding.operation.execute (hart.operandsOf row raw) hart =
        (.ok flow, after)) :
      Performed bound hart raw .retired (hart.finish row raw flow after)

variable {hart after : Hart} {raw : Encoding} {completion : Completion}

theorem Undisturbed.refl (hart : Hart) : Undisturbed hart hart :=
  ⟨hart.translation, hart.journal, rfl⟩

theorem Undisturbed.trans {first second third : Hart} (hfirst : Undisturbed first second)
    (hsecond : Undisturbed second third) : Undisturbed first third := by
  obtain ⟨translation, journal, rfl⟩ := hfirst
  obtain ⟨translation, journal, rfl⟩ := hsecond
  exact ⟨translation, journal, rfl⟩

theorem Undisturbed.instructions_eq (hready : Undisturbed hart after) :
    after.instructions = hart.instructions := by
  obtain ⟨translation, journal, rfl⟩ := hready
  rfl

theorem Undisturbed.controls_eq (hready : Undisturbed hart after) :
    after.controls = hart.controls := by
  obtain ⟨translation, journal, rfl⟩ := hready
  rfl

theorem Undisturbed.decision_eq (hready : Undisturbed hart after) (raw : Encoding) :
    after.decision raw = hart.decision raw := by
  obtain ⟨translation, journal, rfl⟩ := hready
  rfl

theorem undisturbed_record (hart : Hart) (event : Event) : Undisturbed hart (hart.record event) :=
  ⟨hart.translation, _, rfl⟩

theorem undisturbed_recordInstruction (hart : Hart) (raw : Encoding) :
    Undisturbed hart (hart.recordInstruction raw) := by
  rw [recordInstruction]
  split
  · exact .refl hart
  · split
    · exact .refl hart
    · exact undisturbed_record hart _

theorem perform_of_dispatch {binding : Binding} {operands : Operands}
    (hdispatch : hart.instructions.dispatch hart.xlen raw hart.pc = .execute binding operands) :
    hart.perform raw = hart.conclude raw binding (binding.operation.execute operands hart) := by
  simp only [perform, hdispatch]
  rcases binding.operation.execute operands hart with ⟨_ | flow, after⟩
  · rfl
  · cases flow <;> rfl

theorem effect_call {operands : Operands} {operation : Operation}
    (heffect : Effect hart operands operation .call after) :
    operation = .environmentCall ∧ after = hart := by
  cases heffect
  exact ⟨rfl, rfl⟩

theorem performed_of_execute {bound : List Row} {entry : Entry} {row : Row}
    (hdecision : hart.decision raw = .instruction entry) (hrow : row ∈ bound)
    (hdeclaration : row.declaration = entry.declaration)
    (hdispatch : hart.instructions.dispatch hart.xlen raw hart.pc =
      .execute row.binding (hart.operandsOf row raw))
    (hperform : hart.perform raw = (completion, after)) :
    Performed bound hart raw completion after := by
  simp only [perform, hdispatch] at hperform
  split at hperform
  · rename_i exception failed hexecute
    obtain ⟨⟨translation, rfl⟩, hfailure⟩ := execute_eq_error hexecute
    cases hperform
    exact .failed translation hdecision hrow hdeclaration hfailure
  · rename_i called hexecute
    obtain ⟨hoperation, rfl⟩ := effect_call (execute_eq_ok hexecute)
    cases hperform
    exact .called hdecision hrow hdeclaration hoperation
  · rename_i flow succeeded hflow hexecute
    cases hperform
    exact .succeeded hdecision hrow hdeclaration hflow hexecute

/-- An instruction set of declarations and handlers carries out every encoding in a listed way. -/
theorem performed_of_perform {declarations : List Declaration} {handlers : List Handler}
    (hbuild : InstructionSet.build declarations handlers = .ok hart.instructions)
    (hperform : hart.perform raw = (completion, after)) :
    Performed (boundRows declarations handlers) hart raw completion after := by
  have hdispatch := InstructionSet.dispatch_of_decide hbuild hart.xlen raw hart.pc
  rw [← Hart.decision] at hdispatch
  cases hdecision : hart.decision raw with
  | illegal =>
      rw [hdecision] at hdispatch
      simp only [perform, hdispatch] at hperform
      cases hperform
      exact .illegal _ hdecision
  | nop entry =>
      rw [hdecision] at hdispatch
      simp only [perform, hdispatch] at hperform
      cases hperform
      exact .nop hdecision
  | instruction entry =>
      rw [hdecision] at hdispatch
      obtain ⟨row, hrow, hdeclaration, hdispatch⟩ := hdispatch
      rw [← hdeclaration] at hdispatch
      exact performed_of_execute hdecision hrow hdeclaration hdispatch hperform

/-- What was fetched is carried out by a hart that remembers the fetch and may have recorded it. -/
theorem attempt_of_fetch (hfetch : (hart.fetch hart.pc).1 = .ok raw) :
    ∃ ready, Undisturbed hart ready ∧ hart.attempt = ready.perform raw := by
  rcases hresult : hart.fetch hart.pc with ⟨result, fetched⟩
  rw [hresult] at hfetch
  cases hfetch
  obtain ⟨⟨translation, rfl⟩, -⟩ := fetch_spec hresult
  refine ⟨_, .trans ⟨translation, hart.journal, rfl⟩ (undisturbed_recordInstruction _ raw), ?_⟩
  rw [attempt, hresult]

/-- An attempt ends with a fault of the fetch, or carries out what was fetched. -/
theorem attempt_cases {declarations : List Declaration} {handlers : List Handler}
    (hbuild : InstructionSet.build declarations handlers = .ok hart.instructions)
    (hattempt : hart.attempt = (completion, after)) :
    (∃ cause, (hart.fetch hart.pc).1 = .error cause ∧ cause ∈ TrapCause.faults .fetch ∧
      completion = .trapped ⟨cause, hart.pc⟩ none ∧ Undisturbed hart after) ∨
    ∃ raw ready, (hart.fetch hart.pc).1 = .ok raw ∧ Undisturbed hart ready ∧
      Performed (boundRows declarations handlers) ready raw completion after := by
  cases hfetch : (hart.fetch hart.pc).1 with
  | error cause =>
      have hresult : hart.fetch hart.pc = (.error cause, (hart.fetch hart.pc).2) :=
        Prod.ext hfetch rfl
      obtain ⟨⟨translation, hframe⟩, hcause⟩ := fetch_spec hresult
      rw [attempt, hresult, hframe] at hattempt
      cases hattempt
      exact .inl ⟨cause, rfl, hcause cause rfl, rfl, translation, hart.journal, rfl⟩
  | ok raw =>
      obtain ⟨ready, hready, hperform⟩ := attempt_of_fetch hfetch
      rw [hperform] at hattempt
      refine .inr ⟨raw, ready, rfl, hready, performed_of_perform ?_ hattempt⟩
      rw [hready.instructions_eq, hbuild]

end Hart

end RiscvMachine
