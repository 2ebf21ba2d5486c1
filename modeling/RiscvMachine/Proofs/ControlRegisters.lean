import RiscvMachine.Proofs.Canonical
/-!
Which control registers there are. Programs and traps write only to registers that are there
already, so every run keeps the registers of a reset and the views derived from them; an unchecked
write of the environment is the one way to a register beyond these.
-/

namespace RiscvMachine

namespace Csr

/-- The addresses whose value is computed from other state. -/
def views : List CsrAddress :=
  [supervisorStatus, isa, cycle, time, retired, machineCycle, machineRetired]

/-- The stored registers and the views. -/
def known : List CsrAddress :=
  registered.map Prod.fst ++ views

variable {address : CsrAddress}

theorem mem_views_iff : address ∈ views ↔ (role address).isDerived = true := by
  simp only [views, List.mem_cons, List.not_mem_nil, or_false]
  constructor
  · rintro (rfl | rfl | rfl | rfl | rfl | rfl | rfl) <;> rfl
  · intro hderived
    unfold role at hderived
    split_ifs at hderived
    · cases hderived
    · tauto
    · tauto
    · tauto
    · tauto
    · cases hderived
    · cases hderived
    · cases hderived

theorem name?_isSome_iff : (name? address).isSome = true ↔ address ∈ registered.map Prod.fst := by
  rw [name?, List.lookup_isSome_iff, List.mem_map]
  exact exists_congr fun register => and_congr_right fun _ => by rw [beq_iff_eq, eq_comm]

theorem mem_known_iff :
    address ∈ known ↔ (name? address).isSome = true ∨ (role address).isDerived = true := by
  rw [known, List.mem_append, name?_isSome_iff, mem_views_iff]

/-- Every address with a rule of its own is a known one. -/
theorem role_of_not_mem_known (hunknown : address ∉ known) : role address = .plain := by
  have hne : ∀ other ∈ known, address ≠ other := fun other hother heq => hunknown (heq ▸ hother)
  have hviews : (role address).isDerived ≠ true :=
    fun hderived => hunknown (mem_known_iff.mpr (.inr hderived))
  unfold role at hviews ⊢
  rw [if_neg (hne machineStatus (by decide)), if_neg (hne supervisorTranslation (by decide)),
    if_neg (not_or.mpr ⟨hne vendorId (by decide), not_or.mpr ⟨hne architectureId (by decide),
      not_or.mpr ⟨hne implementationId (by decide), hne hartId (by decide)⟩⟩⟩)] at hviews ⊢
  split_ifs at hviews ⊢
  · exact absurd rfl hviews
  · exact absurd rfl hviews
  · exact absurd rfl hviews
  · exact absurd rfl hviews
  · rfl

end Csr

namespace CsrBank

/-- The bank holds the registers of a reset and those at some further addresses. -/
def Holds (bank : CsrBank) (added : List CsrAddress) : Prop :=
  ∀ address, bank.contains address = true ↔
    (Csr.name? address).isSome = true ∨ address ∈ added

variable {bank : CsrBank} {added : List CsrAddress} {address : CsrAddress}

theorem holds_reset : reset.Holds [] := by
  intro address
  rw [contains_reset]
  simp

theorem Holds.add (hholds : bank.Holds added) (address : CsrAddress) (value : Word) :
    (bank.write address value).Holds (address :: added) := by
  intro other
  rw [contains_write, Bool.or_eq_true, beq_iff_eq, hholds other, List.mem_cons, eq_comm]
  tauto

/-- A write to a register that is there adds none. -/
theorem Holds.write (hholds : bank.Holds added) (hcontains : bank.contains address = true)
    (value : Word) : (bank.write address value).Holds added := by
  intro other
  rw [contains_write, Bool.or_eq_true, beq_iff_eq, ← hholds other]
  refine or_iff_right_of_imp ?_
  rintro rfl
  exact hcontains

theorem Holds.writeRegistered (hholds : bank.Holds added)
    (hregistered : (Csr.name? address).isSome = true) (value : Word) :
    (bank.write address value).Holds added :=
  hholds.write ((hholds address).mpr (.inl hregistered)) value

theorem read_of_not_contains (hmissing : bank.contains address = false) : bank.read address = 0 :=
  Std.TreeMap.getD_eq_fallback_of_contains_eq_false hmissing

end CsrBank

namespace Hart

variable {hart after : Hart} {added : List CsrAddress} {address : CsrAddress}

/-! ### Runs of instructions -/

/-- Effects of operations and traps keep a property of the control registers. -/
structure KeptByInstructions (property : CsrBank → Prop) : Prop where
  effect : ∀ {hart after : Hart} {operands : Operands} {operation : Operation} {flow : Flow},
    Effect hart operands operation flow after → property hart.controls → property after.controls
  trap : ∀ (hart : Hart) (cause : TrapCause) (value : Word),
    property hart.controls → property (hart.enterTrap cause value).controls

theorem KeptByInstructions.keptByOperations {property : CsrBank → Prop}
    (hkept : KeptByInstructions property) : KeptByOperations fun hart => property hart.controls where
  effect := hkept.effect
  trap := hkept.trap
  moved := fun _ _ _ _ _ _ hholds => hholds

/-! ### Registers that are there -/

theorem hasCsr_iff (hholds : hart.controls.Holds added) :
    hart.hasCsr address = true ↔ address ∈ Csr.known ∨ address ∈ added := by
  rw [hasCsr, Bool.or_eq_true, hholds address, Csr.mem_known_iff]
  tauto

/-- A write to a register that is there adds none, whatever the rules of its address are. -/
theorem holds_setCsr (hholds : hart.controls.Holds added) (hhas : hart.hasCsr address = true)
    (value : Word) : (hart.setCsr address value).controls.Holds added := by
  unfold setCsr
  split
  · exact hholds.writeRegistered rfl _
  · exact hholds.writeRegistered rfl _
  · exact hholds
  · exact hholds
  · exact hholds
  · exact hholds
  · rename_i hrole
    rw [hasCsr, hrole] at hhas
    exact hholds.write hhas value
  · rename_i hrole
    rw [hasCsr, hrole] at hhas
    exact hholds.write hhas value

theorem controls_setCsr_of_not_mem_known (hunknown : address ∉ Csr.known) (value : Word) :
    (hart.setCsr address value).controls = hart.controls.write address value := by
  rw [setCsr, Csr.role_of_not_mem_known hunknown]

theorem hasCsr_of_mayAccess {write : Bool} (haccess : hart.mayAccess address write = true) :
    hart.hasCsr address = true := by
  rw [mayAccess, Bool.and_eq_true, Bool.and_eq_true] at haccess
  exact haccess.1.1

theorem keptByInstructions_holds (added : List CsrAddress) :
    KeptByInstructions fun bank => bank.Holds added where
  effect := by
    intro hart after operands operation flow heffect hholds
    cases heffect with
    | compute => exact hholds
    | load => exact hholds
    | store => exact hholds
    | branch => exact hholds
    | stay => exact hholds
    | jump => exact hholds
    | jumpRegister => exact hholds
    | call => exact hholds
    | readCsr => exact hholds
    | writeCsr haccess hwrite value old =>
        exact holds_setCsr hholds (hasCsr_of_mayAccess hwrite) value
    | machineReturn => exact hholds.writeRegistered rfl _
    | supervisorReturn => exact hholds.writeRegistered rfl _
    | wait => exact hholds
    | fence => exact hholds
  trap := by
    intro hart cause value hholds
    rw [enterTrap]
    split
    · exact (((hholds.writeRegistered rfl _).writeRegistered rfl _).writeRegistered rfl
        _).writeRegistered rfl _
    · exact (((hholds.writeRegistered rfl _).writeRegistered rfl _).writeRegistered rfl
        _).writeRegistered rfl _

/-! ### Registers that are not there -/

theorem mayAccess_of_not_hasCsr (hmissing : hart.hasCsr address = false) (write : Bool) :
    hart.mayAccess address write = false := by
  rw [mayAccess, hmissing, Bool.false_and, Bool.false_and]

theorem csr_of_not_hasCsr (hmissing : hart.hasCsr address = false) : hart.csr address = 0 := by
  rw [hasCsr, Bool.or_eq_false_iff] at hmissing
  obtain ⟨hderived, hcontains⟩ := hmissing
  have hread := CsrBank.read_of_not_contains hcontains
  rw [csr]
  cases hrole : Csr.role address <;> rw [hrole] at hderived
  case supervisorStatus | isa | counter | counterView => cases hderived
  all_goals
    dsimp only
    rw [hread, Xlen.address_zero]

theorem readCsr_of_not_hasCsr (hmissing : hart.hasCsr address = false) :
    hart.readCsr address = .error .illegal := by
  rw [readCsr, mayAccess_of_not_hasCsr hmissing, if_neg Bool.false_ne_true]

theorem writeCsr_of_not_hasCsr (hmissing : hart.hasCsr address = false) (value : Word) :
    hart.writeCsr address value = .error .illegal := by
  rw [writeCsr, mayAccess_of_not_hasCsr hmissing, if_neg Bool.false_ne_true]

/-- An instruction that names a missing register is refused before it does anything. -/
theorem execute_of_not_hasCsr {operation : Operation} {operands : Operands}
    (haccess : operation.isCsrAccess = true)
    (hmissing : hart.hasCsr (csrOperand operands) = false) :
    operation.execute operands hart = (.error .illegal, hart) := by
  have hread := readCsr_of_not_hasCsr hmissing
  have hwrite := writeCsr_of_not_hasCsr hmissing
  cases operation
  case csrSwap source =>
    simp only [Operation.execute, executeCsrSwap, hread, hwrite]
    split <;> rfl
  case csrSet source =>
    simp only [Operation.execute, executeCsrModify, hread]
    rfl
  case csrClear source =>
    simp only [Operation.execute, executeCsrModify, hread]
    rfl
  all_goals cases haccess

theorem perform_of_not_hasCsr {raw : Encoding} {binding : Binding} {operands : Operands}
    (hdispatch : hart.instructions.dispatch hart.xlen raw hart.pc = .execute binding operands)
    (haccess : binding.operation.isCsrAccess = true)
    (hmissing : hart.hasCsr (csrOperand operands) = false) :
    (hart.perform raw).1 = .trapped ⟨.illegalInstruction, raw.setWidth 64⟩ none := by
  rw [perform_of_dispatch hdispatch, execute_of_not_hasCsr haccess hmissing]
  rfl

theorem attempt_of_not_hasCsr {raw : Encoding} {binding : Binding} {operands : Operands}
    (hfetch : (hart.fetch hart.pc).1 = .ok raw)
    (hdispatch : hart.instructions.dispatch hart.xlen raw hart.pc = .execute binding operands)
    (haccess : binding.operation.isCsrAccess = true)
    (hmissing : hart.hasCsr (csrOperand operands) = false) :
    hart.attempt.1 = .trapped ⟨.illegalInstruction, raw.setWidth 64⟩ none := by
  obtain ⟨ready, ⟨translation, journal, rfl⟩, hattempt⟩ := attempt_of_fetch hfetch
  rw [hattempt]
  exact perform_of_not_hasCsr hdispatch haccess hmissing

/-! ### Actions of the environment -/

/-- The addresses beyond the known ones to which the environment has written without a check, and
which no hard reset has cleared, after an action. -/
def Action.strays (before : List CsrAddress) : Action → List CsrAddress
  | .setCsr address _ => if address ∈ Csr.known then before else address :: before
  | .reset true _ => []
  | _ => before

def strays (actions : List Action) : List CsrAddress :=
  actions.foldl Action.strays []

theorem strays_eq_nil {actions : List Action}
    (hknown : ∀ address value, .setCsr address value ∈ actions → address ∈ Csr.known) :
    strays actions = [] := by
  rw [strays]
  induction actions with
  | nil => rfl
  | cons action rest ih =>
      have hrest := ih fun address value hmem => hknown address value (List.mem_cons_of_mem _ hmem)
      have hfirst : Action.strays [] action = [] := by
        cases action with
        | setCsr address value => exact if_pos (hknown address value List.mem_cons_self)
        | reset hard pc => cases hard <;> rfl
        | _ => rfl
      rw [List.foldl_cons, hfirst, hrest]

theorem holds_act (hholds : hart.controls.Holds added) (action : Action) :
    (hart.act action).controls.Holds (action.strays added) := by
  cases action with
  | step count => exact (keptByInstructions_holds added).keptByOperations.step hholds count
  | setXlen xlen =>
      rw [act, setXlen]
      split <;> exact hholds
  | writeRegister index value => exact hholds
  | setPc pc => exact hholds
  | setPrivilege privilege => exact hholds
  | setCsr address value =>
      rw [act, Action.strays]
      split
      · rename_i hknown
        exact holds_setCsr hholds ((hasCsr_iff hholds).mpr (.inl hknown)) value
      · rename_i hunknown
        rw [controls_setCsr_of_not_mem_known hunknown]
        exact hholds.add address value
  | writeCsr address value =>
      rw [act]
      split
      · rename_i hwrite
        obtain ⟨haccess, rfl⟩ := writeCsr_eq_ok hwrite
        exact holds_setCsr hholds (hasCsr_of_mayAccess haccess) value
      · exact hholds
  | load address size =>
      obtain ⟨translation, hframe⟩ := hart.retranslated_load address size
      rw [act, hframe]
      exact hholds
  | store address value size =>
      obtain ⟨translation, memory, hframe⟩ := hart.store_frame address value size
      rw [act, hframe]
      exact hholds
  | enterTrap cause value => exact (keptByInstructions_holds added).trap hart cause value hholds
  | reset hard pc =>
      cases hard with
      | false => exact hholds
      | true => exact CsrBank.holds_reset
  | wake => exact hholds
  | invalidate => exact hholds
  | mapPage virtual physical => exact hholds
  | unmapPage virtual => exact hholds
  | editMemory edit => exact hholds
  | enableDebugger => exact hholds
  | disableDebugger => exact hholds
  | editDebugger edit => exact hholds
  | startJournal => exact hholds

theorem holds_run (hholds : hart.controls.Holds added) (actions : List Action) :
    (hart.run actions).controls.Holds (actions.foldl Action.strays added) := by
  induction actions generalizing hart added with
  | nil => exact hholds
  | cons action rest ih => exact ih (holds_act hholds action)

/-- The control registers that are there after any run of a program and its environment: the stored
ones, the views, and strays of unchecked writes. All others read as zero, and an instruction that
names one is illegal. -/
theorem hasCsr_run_initial (instructions : InstructionSet) (memory : MemoryMap)
    (translation : Translation) (xlen : Xlen) (entry : Word) (actions : List Action) :
    let hart := (initial instructions memory translation xlen entry).run actions
    (∀ address, hart.hasCsr address = true ↔ address ∈ Csr.known ∨ address ∈ strays actions) ∧
    ((∀ address value, .setCsr address value ∈ actions → address ∈ Csr.known) →
      strays actions = []) ∧
    ∀ address, address ∉ Csr.known → address ∉ strays actions →
      hart.csr address = 0 ∧ hart.readCsr address = .error .illegal ∧
      (∀ value, hart.writeCsr address value = .error .illegal) ∧
      ∀ raw binding operands, (hart.fetch hart.pc).1 = .ok raw →
        hart.instructions.dispatch hart.xlen raw hart.pc = .execute binding operands →
        binding.operation.isCsrAccess = true → csrOperand operands = address →
          hart.attempt.1 = .trapped ⟨.illegalInstruction, raw.setWidth 64⟩ none := by
  intro hart
  have hholds : hart.controls.Holds (strays actions) := holds_run CsrBank.holds_reset actions
  refine ⟨fun address => hasCsr_iff hholds, strays_eq_nil, fun address hunknown hstray => ?_⟩
  have hmissing : hart.hasCsr address = false := by
    rw [Bool.eq_false_iff, ne_eq, hasCsr_iff hholds]
    tauto
  refine ⟨csr_of_not_hasCsr hmissing, readCsr_of_not_hasCsr hmissing,
    writeCsr_of_not_hasCsr hmissing, ?_⟩
  rintro raw binding operands hfetch hdispatch haccess rfl
  exact attempt_of_not_hasCsr hfetch hdispatch haccess hmissing

/-- After an unchecked write to an address without a register the register is there, also in the
read-only range, and an instruction reads from it what was written. -/
theorem hasCsr_run_stray :
    let hart := (initial .standard (.withRegion 0 0x1000) (.identity .empty) .x64 0).run
      [.setCsr 0x7C0 7, .setCsr 0xC03 5]
    (∀ address ∈ [0x7C0, 0xC03], address ∉ Csr.known ∧ hart.hasCsr address = true) ∧
      hart.csr 0x7C0 = 7 ∧ hart.csr 0xC03 = 5 ∧
      ∃ after, (Operation.csrSet .register).execute ⟨[5, 0, 0x7C0], by decide⟩ hart =
        (.ok .next, after) ∧ after.readRegister 5 = 7 := by
  intro hart
  refine ⟨?_, by decide, by decide, _, rfl, by decide⟩
  simp only [List.forall_mem_cons, List.not_mem_nil, false_implies, implies_true, and_true]
  exact ⟨⟨by decide, by decide⟩, by decide, by decide⟩

end Hart

end RiscvMachine
