import RiscvMachine.Proofs.PreciseTrap
/-!
Privilege containment. Only a trap leads to a higher mode, and then to its trap vector; an
instruction that does not trap changes no state that belongs to a mode above its own.
-/

namespace RiscvMachine

namespace Csr

theorem role_eq_machineStatus {address : CsrAddress} (hrole : role address = .machineStatus) :
    address = machineStatus := by
  unfold role at hrole
  split_ifs at hrole
  assumption

theorem role_eq_counter {address : CsrAddress} (hrole : role address = .counter) :
    address = machineCycle ∨ address = machineRetired := by
  unfold role at hrole
  split_ifs at hrole
  assumption

theorem role_eq_counterView {address : CsrAddress} (hrole : role address = .counterView) :
    address = cycle ∨ address = time ∨ address = retired := by
  unfold role at hrole
  split_ifs at hrole
  assumption

/-- Of all registers the counter views alone are open to user mode. -/
theorem role_of_open {address : CsrAddress}
    (hexists : (role address).isDerived = true ∨ (name? address).isSome = true)
    (hopen : requiredPrivilege address = 0) : role address = .counterView := by
  rcases hexists with hderived | hregistered
  · unfold role at hderived ⊢
    split_ifs at hderived ⊢ with _ hstatus hisa hcounter
    · cases hderived
    · subst hstatus
      cases hopen
    · subst hisa
      cases hopen
    · rcases hcounter with rfl | rfl <;> cases hopen
    · rfl
    · cases hderived
    · cases hderived
    · cases hderived
  · obtain ⟨register, hmem, hkey⟩ := List.lookup_isSome_iff.mp hregistered
    have hall : ∀ register ∈ registered, requiredPrivilege register.1 ≠ 0 := by decide
    rw [eq_of_beq hkey] at hopen
    exact absurd hopen (hall register hmem)

theorem isReadOnly_of_counterView {address : CsrAddress} (hrole : role address = .counterView) :
    isReadOnly address = true := by
  rcases role_eq_counterView hrole with rfl | rfl | rfl <;> rfl

theorem requiredPrivilege_of_counterView {address : CsrAddress}
    (hrole : role address = .counterView) : requiredPrivilege address = 0 := by
  rcases role_eq_counterView hrole with rfl | rfl | rfl <;> rfl

/-- The counter views are the only registers that are open to user mode, and they are read-only. -/
theorem one_le_requiredPrivilege {address : CsrAddress}
    (hexists : (role address).isDerived = true ∨ (name? address).isSome = true)
    (hwritable : isReadOnly address = false) : 1 ≤ requiredPrivilege address := by
  refine Nat.one_le_iff_ne_zero.mpr fun hopen => ?_
  have hview := isReadOnly_of_counterView (role_of_open hexists hopen)
  exact Bool.false_ne_true (hwritable.symm.trans hview)

end Csr

namespace CsrBank

/-- The bank holds no other registers than those that a reset puts there. -/
def Registered (bank : CsrBank) : Prop :=
  ∀ address, bank.contains address = true → (Csr.name? address).isSome = true

theorem contains_reset (address : CsrAddress) :
    reset.contains address = (Csr.name? address).isSome := by
  have hfold : ∀ (registers : List (CsrAddress × String)) (table : Std.TreeMap CsrAddress Word),
      (registers.foldl (fun table register => table.insert register.1 0) table).contains address =
        (table.contains address || (registers.lookup address).isSome) := by
    intro registers
    induction registers with
    | nil => simp
    | cons register rest ih =>
        intro table
        have hinsert : (table.insert register.1 0).contains address =
            (register.1 == address || table.contains address) :=
          contains_write ⟨table⟩ register.1 address 0
        rw [List.foldl_cons, ih, hinsert, List.lookup_cons]
        cases hkey : address == register.1 with
        | true => simp [eq_of_beq hkey]
        | false =>
            have hne : (register.1 == address) = false := by
              rw [BEq.comm, hkey]
            simp [hne]
  rw [contains, reset, hfold, Csr.name?]
  simp

theorem registered_reset : reset.Registered := by
  intro address hcontains
  rwa [contains_reset] at hcontains

theorem Keeps.refl (bank : CsrBank) (address : CsrAddress) : bank.Keeps bank address :=
  ⟨rfl, rfl⟩

theorem keeps_write {bank : CsrBank} {address other : CsrAddress} (hne : other ≠ address)
    (value : Word) : bank.Keeps (bank.write address value) other := by
  constructor
  · rw [read_write, if_neg hne.symm]
  · rw [contains_write, beq_eq_false_iff_ne.mpr hne.symm, Bool.false_or]

end CsrBank

/-- The status bits that an instruction of a form may change in supervisor mode. -/
def Form.statusMask (form : Form) : Word :=
  if form = .supervisorReturn then
    MachineStatus.supervisorWritable ||| MachineStatus.modifyPrivilege
  else MachineStatus.supervisorWritable

namespace Hart

structure SupervisorKeeps (mask : Word) (before after : CsrBank) : Prop where
  others : ∀ address, Privilege.supervisor.code < Csr.requiredPrivilege address →
    address ≠ Csr.machineStatus → before.Keeps after address
  status : after.read Csr.machineStatus &&& ~~~mask = before.read Csr.machineStatus &&& ~~~mask

/-- What an instruction that does not trap cannot do in its mode. -/
structure Contained (form : Form) (before after : Hart) : Prop where
  privilege : after.privilege.code ≤ before.privilege.code
  cycles : before.privilege ≠ .machine → after.cycles = before.cycles
  user : before.privilege = .user →
    after.privilege = .user ∧ ∀ address, before.controls.Keeps after.controls address
  supervisor : before.privilege = .supervisor →
    SupervisorKeeps form.statusMask before.controls after.controls

variable {hart after : Hart} {form : Form}

theorem SupervisorKeeps.refl (mask : Word) (bank : CsrBank) : SupervisorKeeps mask bank bank :=
  ⟨fun address _ _ => .refl bank address, rfl⟩

/-- Most instructions touch neither control registers nor the mode. -/
theorem contained_of_eq (hcontrols : after.controls = hart.controls)
    (hprivilege : after.privilege = hart.privilege) (hcycles : after.cycles = hart.cycles) :
    Contained form hart after where
  privilege := by rw [hprivilege]
  cycles := fun _ => hcycles
  user := fun huser => ⟨hprivilege.trans huser, fun address => by
    rw [hcontrols]
    exact .refl hart.controls address⟩
  supervisor := fun _ => by
    rw [hcontrols]
    exact .refl _ hart.controls

/-! ### Writes to control registers -/

theorem setCsr_privilege (hart : Hart) (address : CsrAddress) (value : Word) :
    (hart.setCsr address value).privilege = hart.privilege := by
  unfold setCsr
  split <;> rfl

theorem setCsr_cycles {address : CsrAddress}
    (hlow : Csr.requiredPrivilege address ≤ Privilege.supervisor.code) (value : Word) :
    (hart.setCsr address value).cycles = hart.cycles := by
  unfold setCsr
  split
  · rfl
  · rfl
  · rfl
  · rfl
  · rfl
  · rename_i hrole
    rcases Csr.role_eq_counter hrole with rfl | rfl <;> exact absurd hlow (by decide)
  · rfl
  · rfl

theorem supervisorKeeps_updateStatus (hart : Hart) (value : Word) :
    SupervisorKeeps MachineStatus.supervisorWritable hart.controls
      (hart.updateStatus (MachineStatus.supervisorMask &&& MachineStatus.writableMask)
        value).controls where
  others := fun _ _ hne => CsrBank.keeps_write hne _
  status := by
    rw [updateStatus, CsrBank.read_write, if_pos rfl, MachineStatus.supervisorMask_and_writableMask,
      MachineStatus.replace_and_not]

theorem supervisorKeeps_write {bank : CsrBank} {address : CsrAddress}
    (hlow : Csr.requiredPrivilege address ≤ Privilege.supervisor.code)
    (value : Word) : SupervisorKeeps MachineStatus.supervisorWritable bank
      (bank.write address value) where
  others := by
    intro other hhigh _
    refine CsrBank.keeps_write ?_ value
    rintro rfl
    exact absurd hhigh (Nat.not_lt_of_le hlow)
  status := by
    have hne : address ≠ Csr.machineStatus := by
      rintro rfl
      exact absurd hlow (by decide)
    rw [CsrBank.read_write, if_neg hne]

/-- The status register is within reach through its supervisor view alone. -/
theorem supervisorKeeps_setCsr {address : CsrAddress}
    (hlow : Csr.requiredPrivilege address ≤ Privilege.supervisor.code) (value : Word) :
    SupervisorKeeps MachineStatus.supervisorWritable hart.controls
      (hart.setCsr address value).controls := by
  unfold setCsr
  split
  · rename_i hrole
    rw [Csr.role_eq_machineStatus hrole] at hlow
    exact absurd hlow (by decide)
  · exact supervisorKeeps_updateStatus hart value
  · exact .refl _ hart.controls
  · exact .refl _ hart.controls
  · exact .refl _ hart.controls
  · exact .refl _ hart.controls
  · exact supervisorKeeps_write hlow value
  · exact supervisorKeeps_write hlow value

theorem requiredPrivilege_le_of_mayAccess {address : CsrAddress} {write : Bool}
    (haccess : hart.mayAccess address write = true) :
    Csr.requiredPrivilege address ≤ hart.privilege.code := by
  rw [mayAccess, Bool.and_eq_true, Bool.and_eq_true, decide_eq_true_iff] at haccess
  exact haccess.1.2

theorem ne_user_of_mayAccess {address : CsrAddress}
    (hregistered : hart.controls.Registered)
    (haccess : hart.mayAccess address true = true) : hart.privilege ≠ .user := by
  intro huser
  have hle := requiredPrivilege_le_of_mayAccess haccess
  rw [mayAccess, Bool.and_eq_true, Bool.and_eq_true, hasCsr, Bool.or_eq_true, Bool.true_and,
    Bool.not_eq_true'] at haccess
  obtain ⟨⟨hexists, -⟩, hwritable⟩ := haccess
  have hrequired := Csr.one_le_requiredPrivilege (hexists.imp_right (hregistered address)) hwritable
  rw [huser] at hle
  exact absurd (hrequired.trans hle) (by decide)

/-! ### Returns from traps -/

theorem getLsbD_supervisorReturnStatus (status : Word) (bit : Nat) :
    (supervisorReturnStatus status).getLsbD bit =
      if bit = 17 ∨ bit = 8 then false
      else if bit = 5 then true
      else if bit = 1 then status.getLsbD 5 else status.getLsbD bit := by
  rw [supervisorReturnStatus, MachineStatus.modifyPrivilege,
    MachineStatus.getLsbD_and_not_flag (by decide), MachineStatus.getLsbD_withSupervisorPrevious,
    MachineStatus.supervisorPreviousEnable, MachineStatus.getLsbD_or_flag (by decide),
    MachineStatus.supervisorEnable, MachineStatus.getLsbD_copyFlag (by decide) (by decide)]
  by_cases hmodify : bit = 17
  · rw [if_pos hmodify, if_pos (.inl hmodify)]
  by_cases hmode : bit = 8
  · rw [if_neg hmodify, if_pos hmode, if_pos (.inr hmode)]
    rfl
  · rw [if_neg hmodify, if_neg hmode, if_neg (not_or.mpr ⟨hmodify, hmode⟩)]

/-- The low half of a stored value is read as it is, whatever the width. -/
theorem getLsbD_address {xlen : Xlen} {value : Word} {bit : Nat} (hlow : bit < 32) :
    (xlen.address value).getLsbD bit = value.getLsbD bit := by
  cases xlen with
  | x64 => rfl
  | x32 =>
      have hbit : bit < 64 := by omega
      simp [Xlen.address, zeroExtendLow, hlow, hbit]

theorem supervisorKeeps_returned (hart : Hart) (mode : Privilege) (address : CsrAddress) :
    SupervisorKeeps (Form.statusMask .supervisorReturn) hart.controls
      (hart.returned (supervisorReturnStatus (hart.csr Csr.machineStatus)) mode
        address).controls where
  others := fun _ _ hne => CsrBank.keeps_write hne _
  status := by
    rw [returned, CsrBank.read_write, if_pos rfl]
    apply MachineStatus.and_not_eq_of_getLsbD
    intro bit hmask
    have hother : bit ≠ 1 ∧ bit ≠ 5 ∧ bit ≠ 8 ∧ bit ≠ 17 := by
      refine ⟨?_, ?_, ?_, ?_⟩ <;> rintro rfl <;> cases hmask
    obtain ⟨henable, hprevious, hmode, hmodify⟩ := hother
    rw [MachineStatus.getLsbD_replace]
    split
    · rename_i hwritable
      rw [getLsbD_supervisorReturnStatus, if_neg (not_or.mpr ⟨hmodify, hmode⟩), if_neg hprevious,
        if_neg henable]
      exact getLsbD_address (MachineStatus.lt_of_getLsbD_writableMask hwritable)
    · rfl

theorem code_supervisorReturnMode_le (status : Word) :
    (supervisorReturnMode status).code ≤ Privilege.supervisor.code := by
  rw [supervisorReturnMode]
  split <;> decide

theorem code_le_machine (privilege : Privilege) : privilege.code ≤ Privilege.machine.code := by
  cases privilege <;> decide

theorem code_le_supervisor {privilege : Privilege} (hne : privilege ≠ .machine) :
    privilege.code ≤ Privilege.supervisor.code := by
  cases privilege with
  | user => decide
  | supervisor => decide
  | machine => exact absurd rfl hne

/-! ### Instructions -/

/-- No effect of an operation reaches beyond the mode in which it is carried out. -/
theorem contained_of_effect {operands : Operands} {operation : Operation} {flow : Flow}
    (hregistered : hart.controls.Registered)
    (hform : form = .supervisorReturn ↔ operation = .supervisorReturn)
    (heffect : Effect hart operands operation flow after) : Contained form hart after := by
  cases heffect with
  | compute => exact contained_of_eq rfl rfl rfl
  | load => exact contained_of_eq rfl rfl rfl
  | store => exact contained_of_eq rfl rfl rfl
  | branch => exact contained_of_eq rfl rfl rfl
  | stay => exact contained_of_eq rfl rfl rfl
  | jump => exact contained_of_eq rfl rfl rfl
  | jumpRegister => exact contained_of_eq rfl rfl rfl
  | call => exact contained_of_eq rfl rfl rfl
  | readCsr => exact contained_of_eq rfl rfl rfl
  | wait => exact contained_of_eq rfl rfl rfl
  | fence => exact contained_of_eq rfl rfl rfl
  | writeCsr haccess hwrite value old =>
      have hnotUser := ne_user_of_mayAccess hregistered hwrite
      have hlow : hart.privilege ≠ .machine →
          Csr.requiredPrivilege (csrOperand operands) ≤ Privilege.supervisor.code :=
        fun hne => (requiredPrivilege_le_of_mayAccess hwrite).trans (code_le_supervisor hne)
      refine ⟨?_, fun hne => setCsr_cycles (hlow hne) value, fun huser => absurd huser hnotUser,
        fun hsupervisor => ?_⟩
      · rw [writeRegister, setCsr_privilege]
      · have hne : form ≠ .supervisorReturn := by
          intro hreturn
          rw [hform.mp hreturn] at haccess
          cases haccess
        rw [Form.statusMask, if_neg hne]
        exact supervisorKeeps_setCsr (hlow (by rw [hsupervisor]; decide)) value
  | machineReturn hmachine =>
      refine ⟨?_, ?_, ?_, ?_⟩
      · rw [hmachine]
        exact code_le_machine _
      · exact fun hne => absurd hmachine hne
      · exact fun huser => absurd (hmachine.symm.trans huser) (by decide)
      · exact fun hsupervisor => absurd (hmachine.symm.trans hsupervisor) (by decide)
  | supervisorReturn hallowed =>
      have hnotUser : hart.privilege ≠ .user := by
        intro huser
        rw [mayWhileClear, huser] at hallowed
        cases hallowed
      refine ⟨?_, fun _ => rfl, fun huser => absurd huser hnotUser, fun _ => ?_⟩
      · refine (code_supervisorReturnMode_le _).trans ?_
        cases hprivilege : hart.privilege with
        | user => exact absurd hprivilege hnotUser
        | supervisor => decide
        | machine => decide
      · rw [hform.mpr rfl]
        exact supervisorKeeps_returned hart _ _

theorem Contained.of_undisturbed {ready : Hart} (hready : Undisturbed hart ready)
    (hcontained : Contained form ready after) : Contained form hart after := by
  obtain ⟨translation, journal, rfl⟩ := hready
  exact { hcontained with }

theorem contained_of_performed {raw : Encoding} {completion : Completion}
    (hregistered : hart.controls.Registered)
    (hcompletion : completion = .retired)
    (hperformed : Performed Catalogue.bound hart raw completion after) :
    ∃ declaration, (hart.decision raw).declaration? = some declaration ∧
      Contained (.ofMnemonic declaration.mnemonic) hart after := by
  cases hperformed with
  | illegal => cases hcompletion
  | failed => cases hcompletion
  | called => cases hcompletion
  | @nop entry hdecision =>
      exact ⟨entry.declaration, by rw [hdecision]; rfl, contained_of_eq rfl rfl rfl⟩
  | @succeeded entry row flow after hdecision hrow hdeclaration hflow hexecute =>
      have hfits := Catalogue.fits_of_mem_bound row hrow
      refine ⟨row.declaration, by rw [hdecision, hdeclaration]; rfl, ?_⟩
      have hcontained := contained_of_effect hregistered hfits.eq_supervisorReturn_iff
        (execute_eq_ok hexecute)
      -- the advance of the program counter is out of the question here
      rw [finish]
      split
      · exact { hcontained with }
      · exact hcontained

/-- The trap is taken by a mode above or at the old one, at the base of the vector of that mode. -/
def Enters (target : TrapTarget) (before after : Hart) : Prop :=
  after.privilege = target.privilege ∧ before.privilege.code ≤ target.privilege.code ∧
    after.pc = before.xlen.address (TrapVector.base (before.controls.read target.vector))

theorem enters_trapTarget {exception : Exception}
    (htakes : (hart.trapTarget exception.cause).Takes exception hart after) :
    Enters (hart.trapTarget exception.cause) hart after := by
  refine ⟨htakes.privilege, ?_, htakes.pc⟩
  rw [trapTarget]
  split
  · rename_i hdelegated
    exact code_le_supervisor hdelegated.1
  · exact code_le_machine _

/-- One step leads to a higher mode by a trap alone, and reaches nothing that is above its mode. -/
theorem executeNext_contained (hstandard : hart.instructions = .standard)
    (hregistered : hart.controls.Registered) :
    (hart.privilege ≠ .machine → hart.executeNext.cycles = hart.cycles) ∧
    match hart.attempt.1 with
    | .trapped _ _ =>
        ∃ target ∈ [TrapTarget.supervisor, .machine], Enters target hart hart.executeNext
    | .retired => ∃ raw declaration, (hart.fetch hart.pc).1 = .ok raw ∧
        (hart.decision raw).declaration? = some declaration ∧
        Contained (.ofMnemonic declaration.mnemonic) hart hart.executeNext := by
  rcases hattempt : hart.attempt with ⟨completion, after⟩
  cases completion with
  | trapped exception resume =>
      have htakes := takes_of_attempt hstandard hattempt
      refine ⟨fun _ => htakes.cycles, hart.trapTarget exception.cause, ?_, enters_trapTarget htakes⟩
      rw [trapTarget]
      split <;> simp
  | retired =>
      have hretired : hart.attempt.1 = .retired := by rw [hattempt]
      obtain ⟨raw, ready, hfetch, hready, hperformed⟩ := performed_of_retired hstandard hretired
      have hreadyRegistered : ready.controls.Registered := by rwa [hready.controls_eq]
      obtain ⟨declaration, hdeclaration, hcontained⟩ :=
        contained_of_performed hreadyRegistered rfl hperformed
      rw [hready.decision_eq] at hdeclaration
      have hcontained := hcontained.of_undisturbed hready
      exact ⟨hcontained.cycles, raw, declaration, hfetch, hdeclaration, hcontained⟩

/-- Supervisor mode returns to user mode with `sret`. -/
theorem executeNext_contained_supervisorReturn :
    let hart := { facing 0x10200073 with privilege := .supervisor }
    hart.executeNext.cycles = hart.cycles ∧
      ∃ raw declaration, (hart.fetch hart.pc).1 = .ok raw ∧
        (hart.decision raw).declaration? = some declaration ∧
        Contained (.ofMnemonic declaration.mnemonic) hart hart.executeNext := by
  intro hart
  have hretired : hart.attempt.1 = .retired := by
    decide +kernel
  have hstandard : hart.instructions = .standard := by simp only [hart, facing_instructions]
  have hregistered : hart.controls.Registered := CsrBank.registered_reset
  obtain ⟨hcycles, hcontained⟩ := executeNext_contained hstandard hregistered
  rw [hretired] at hcontained
  exact ⟨hcycles (by decide), hcontained⟩

end Hart

end RiscvMachine
