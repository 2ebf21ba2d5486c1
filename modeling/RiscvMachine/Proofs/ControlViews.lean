import RiscvMachine.Proofs.Containment
/-!
Reads and writes of control registers. Some addresses share their state: the supervisor status is a
part of the machine status, and five addresses show the cycle counter. A write is seen at its own
address and at those that share the state, and nowhere else.
-/

namespace RiscvMachine

namespace Csr

def statusViews : List CsrAddress := [machineStatus, supervisorStatus]

def counters : List CsrAddress := [machineCycle, machineRetired]

def counterViews : List CsrAddress := [cycle, time, retired, machineCycle, machineRetired]

/-- The addresses at which every write is ignored. -/
def constants : List CsrAddress :=
  [isa, cycle, time, retired, vendorId, architectureId, implementationId, hartId]

/-- What is written to the first address may be seen at the second. -/
def Shares (address other : CsrAddress) : Prop :=
  address = other ∨ address ∈ statusViews ∧ other ∈ statusViews ∨
    address ∈ counters ∧ other ∈ counterViews

/-- The stored register behind an address. -/
def stored (address : CsrAddress) : CsrAddress :=
  if address = supervisorStatus then machineStatus else address

variable {address other : CsrAddress}

theorem role_eq_supervisorStatus (hrole : role address = .supervisorStatus) :
    address = supervisorStatus := by
  unfold role at hrole
  split_ifs at hrole
  assumption

theorem role_eq_isa (hrole : role address = .isa) : address = isa := by
  unfold role at hrole
  split_ifs at hrole
  assumption

theorem role_eq_identification (hrole : role address = .identification) :
    address = vendorId ∨ address = architectureId ∨ address = implementationId ∨
      address = hartId := by
  unfold role at hrole
  split_ifs at hrole
  assumption

theorem stored_of_role_ne (hrole : role address ≠ .supervisorStatus) :
    stored address = address := by
  refine if_neg fun heq => hrole ?_
  rw [heq]
  rfl

/-- Only the two status registers are behind the same stored register. -/
theorem stored_ne_of_not_shares (hshares : ¬Shares address other) :
    stored address ≠ stored other := by
  unfold Shares statusViews at hshares
  intro hsame
  unfold stored at hsame
  split_ifs at hsame
  · exact hshares (.inl (by simp [*]))
  · exact hshares (.inr (.inl ⟨by simp [*], by simp [← hsame]⟩))
  · exact hshares (.inr (.inl ⟨by simp [hsame], by simp [*]⟩))
  · exact hshares (.inl hsame)

theorem mem_counterViews_of_role (hrole : role address = .counter ∨ role address = .counterView) :
    address ∈ counterViews := by
  rcases hrole with hcounter | hview
  · rcases role_eq_counter hcounter with rfl | rfl <;> decide
  · rcases role_eq_counterView hview with rfl | rfl | rfl <;> decide

end Csr

theorem Xlen.address_and (xlen : Xlen) (value mask : Word) :
    xlen.address (value &&& mask) = xlen.address value &&& mask := by
  cases xlen with
  | x64 => rfl
  | x32 =>
      apply BitVec.eq_of_getLsbD_eq
      intro bit hbit
      by_cases hlow : bit < 32 <;> simp [address, zeroExtendLow, hlow, hbit]

/-- What a bit of an address is depends on that bit alone. -/
theorem Xlen.getLsbD_address_congr (xlen : Xlen) {left right : Word} {bit : Nat}
    (hbit : left.getLsbD bit = right.getLsbD bit) :
    (xlen.address left).getLsbD bit = (xlen.address right).getLsbD bit := by
  cases xlen with
  | x64 => exact hbit
  | x32 => simp [address, zeroExtendLow, hbit]

namespace Hart

/-- The status bits of a mask have been replaced, in what is stored and in what is read. -/
structure ReplacesStatus (mask value : Word) (before after : Hart) : Prop where
  stored : ∀ bit, (after.controls.read Csr.machineStatus).getLsbD bit =
    if mask.getLsbD bit then value.getLsbD bit
    else (before.controls.read Csr.machineStatus).getLsbD bit
  read : ∀ bit, (after.csr Csr.machineStatus).getLsbD bit =
    if mask.getLsbD bit then value.getLsbD bit else (before.csr Csr.machineStatus).getLsbD bit

variable {hart after : Hart} {address other : CsrAddress} {value : Word}

/-! ### What a write reaches -/

/-- A write to a control register is a matter of the registers, the counter and the translation. -/
theorem setCsr_frame (hart : Hart) (address : CsrAddress) (value : Word) :
    ∃ controls cycles translation, hart.setCsr address value =
      { hart with controls := controls, cycles := cycles, translation := translation } := by
  unfold setCsr
  split <;> exact ⟨_, _, _, rfl⟩

theorem registers_setCsr (hart : Hart) (address : CsrAddress) (value : Word) :
    (hart.setCsr address value).registers = hart.registers := by
  obtain ⟨controls, cycles, translation, hframe⟩ := hart.setCsr_frame address value
  rw [hframe]

theorem read_setCsr (hne : Csr.stored address ≠ other) (value : Word) :
    (hart.setCsr address value).controls.read other = hart.controls.read other := by
  unfold setCsr
  split
  · rename_i hrole
    obtain rfl := Csr.role_eq_machineStatus hrole
    exact (CsrBank.read_write _ _ _ _).trans (if_neg hne)
  · rename_i hrole
    obtain rfl := Csr.role_eq_supervisorStatus hrole
    exact (CsrBank.read_write _ _ _ _).trans (if_neg hne)
  · rfl
  · rfl
  · rfl
  · rfl
  · rename_i hrole
    rw [Csr.stored_of_role_ne (by simp [hrole])] at hne
    exact (CsrBank.read_write _ _ _ _).trans (if_neg hne)
  · rename_i hrole
    rw [Csr.stored_of_role_ne (by simp [hrole])] at hne
    exact (CsrBank.read_write _ _ _ _).trans (if_neg hne)

theorem cycles_setCsr (hcounter : address ∉ Csr.counters) (value : Word) :
    (hart.setCsr address value).cycles = hart.cycles := by
  unfold setCsr
  split
  case h_6 hrole =>
    refine absurd ?_ hcounter
    rcases Csr.role_eq_counter hrole with rfl | rfl <;> decide
  all_goals rfl

/-- What an address reads as depends on the stored register behind it, and on the counter where it
shows that. -/
theorem csr_congr (hxlen : after.xlen = hart.xlen) (hset : after.instructions = hart.instructions)
    (hread : after.controls.read (Csr.stored address) = hart.controls.read (Csr.stored address))
    (hcycles : address ∈ Csr.counterViews → after.cycles = hart.cycles) :
    after.csr address = hart.csr address := by
  have plain : Csr.role address ≠ .supervisorStatus →
      after.controls.read address = hart.controls.read address := by
    intro hrole
    rwa [Csr.stored_of_role_ne hrole] at hread
  unfold csr
  rw [hxlen]
  congr 1
  cases hrole : Csr.role address with
  | machineStatus => exact plain (by simp [hrole])
  | identification => exact plain (by simp [hrole])
  | translationRoot => exact plain (by simp [hrole])
  | plain => exact plain (by simp [hrole])
  | supervisorStatus =>
      obtain rfl := Csr.role_eq_supervisorStatus hrole
      exact congrArg (· &&& MachineStatus.supervisorMask) hread
  | isa => simp only [isa, hxlen, hset]
  | counter => exact hcycles (Csr.mem_counterViews_of_role (.inl hrole))
  | counterView => exact hcycles (Csr.mem_counterViews_of_role (.inr hrole))

theorem csr_setCsr_of_not_shares (hshares : ¬Csr.Shares address other) (value : Word) :
    (hart.setCsr address value).csr other = hart.csr other := by
  obtain ⟨controls, cycles, translation, hframe⟩ := setCsr_frame hart address value
  refine csr_congr (by rw [hframe]) (by rw [hframe])
    (read_setCsr (Csr.stored_ne_of_not_shares hshares) value) fun hview => ?_
  exact cycles_setCsr (fun hcounter => hshares (.inr (.inr ⟨hcounter, hview⟩))) value

/-! ### What a write leaves -/

theorem csr_setCsr_self (hstatus : address ∉ Csr.statusViews) (hconstant : address ∉ Csr.constants)
    (value : Word) : (hart.setCsr address value).csr address = hart.xlen.address value := by
  have written (hart : Hart) : (hart.controls.write address value).read address = value :=
    (CsrBank.read_write _ _ _ _).trans (if_pos rfl)
  unfold setCsr csr
  cases hrole : Csr.role address with
  | machineStatus =>
      obtain rfl := Csr.role_eq_machineStatus hrole
      exact absurd (by decide) hstatus
  | supervisorStatus =>
      obtain rfl := Csr.role_eq_supervisorStatus hrole
      exact absurd (by decide) hstatus
  | isa =>
      obtain rfl := Csr.role_eq_isa hrole
      exact absurd (by decide) hconstant
  | counterView =>
      refine absurd ?_ hconstant
      rcases Csr.role_eq_counterView hrole with rfl | rfl | rfl <;> decide
  | identification =>
      refine absurd ?_ hconstant
      rcases Csr.role_eq_identification hrole with rfl | rfl | rfl | rfl <;> decide
  | counter => rfl
  | translationRoot => exact congrArg hart.xlen.address (written hart)
  | plain => exact congrArg hart.xlen.address (written hart)

theorem setCsr_constant (hconstant : address ∈ Csr.constants) (value : Word) :
    hart.setCsr address value = hart := by
  simp only [Csr.constants, List.mem_cons, List.not_mem_nil, or_false] at hconstant
  rcases hconstant with rfl | rfl | rfl | rfl | rfl | rfl | rfl | rfl <;> rfl

theorem csr_supervisorStatus (hart : Hart) :
    hart.csr Csr.supervisorStatus = hart.csr Csr.machineStatus &&& MachineStatus.supervisorMask :=
  hart.xlen.address_and _ _

/-- A mask of writable bits replaces the same bits in a word of the hart's width. -/
theorem replacesStatus_updateStatus {mask : Word}
    (hmask : ∀ bit, mask.getLsbD bit = true → bit < 32) (hart : Hart) (value : Word) :
    ReplacesStatus mask value hart (hart.updateStatus mask value) := by
  have hstored : (hart.updateStatus mask value).controls.read Csr.machineStatus =
      MachineStatus.replace mask (hart.controls.read Csr.machineStatus) value :=
    (CsrBank.read_write _ _ _ _).trans (if_pos rfl)
  constructor
  · intro bit
    rw [hstored, MachineStatus.getLsbD_replace]
  · intro bit
    let old := hart.controls.read Csr.machineStatus
    have hread : (hart.updateStatus mask value).csr Csr.machineStatus =
        hart.xlen.address (MachineStatus.replace mask old value) :=
      congrArg hart.xlen.address hstored
    have hreplaced : (MachineStatus.replace mask old value).getLsbD bit =
        if mask.getLsbD bit then value.getLsbD bit else old.getLsbD bit :=
      MachineStatus.getLsbD_replace
    rw [hread]
    by_cases hbit : mask.getLsbD bit = true
    · rw [getLsbD_address (hmask bit hbit), hreplaced, if_pos hbit, if_pos hbit]
    · rw [if_neg hbit] at hreplaced ⊢
      exact hart.xlen.getLsbD_address_congr hreplaced

/-- What is read after a write to a control register, at every address. -/
theorem csr_setCsr (hart : Hart) (address : CsrAddress) (value : Word) :
    (∀ other, ¬Csr.Shares address other →
      (hart.setCsr address value).csr other = hart.csr other) ∧
    hart.csr Csr.supervisorStatus =
      hart.csr Csr.machineStatus &&& MachineStatus.supervisorMask ∧
    ReplacesStatus MachineStatus.writableMask value
      hart (hart.setCsr Csr.machineStatus value) ∧
    ReplacesStatus (MachineStatus.supervisorMask &&& MachineStatus.writableMask) value
      hart (hart.setCsr Csr.supervisorStatus value) ∧
    (address ∈ Csr.constants → hart.setCsr address value = hart) ∧
    (address ∉ Csr.statusViews → address ∉ Csr.constants →
      (hart.setCsr address value).csr address = hart.xlen.address value) := by
  have hwritable : ∀ bit, MachineStatus.writableMask.getLsbD bit = true → bit < 32 :=
    fun bit => MachineStatus.lt_of_getLsbD_writableMask
  have hsupervisor : ∀ bit,
      (MachineStatus.supervisorMask &&& MachineStatus.writableMask).getLsbD bit = true →
        bit < 32 := by
    intro bit hbit
    rw [BitVec.getLsbD_and, Bool.and_eq_true] at hbit
    exact hwritable bit hbit.2
  refine ⟨fun other hshares => csr_setCsr_of_not_shares hshares value, csr_supervisorStatus hart,
    replacesStatus_updateStatus hwritable hart value,
    replacesStatus_updateStatus hsupervisor hart value, fun hconstant => ?_,
    fun hstatus hplain => ?_⟩
  · exact setCsr_constant hconstant value
  · exact csr_setCsr_self hstatus hplain value

end Hart

end RiscvMachine
