import RiscvMachine.Catalogue
import RiscvMachine.Proofs.ControlViews
/-!
Instructions on control registers. They check, read and write in different orders, but one that
fails at a check has changed nothing yet, so each of them is a single update from the old state.
-/

namespace RiscvMachine

/-- The number in the source field: the index of a register, or the immediate itself. -/
def CsrSource.field : CsrSource → Operands → Nat
  | register, operands => operands.register 1
  | immediate, operands => (operands.get 1).toNat

/-- How the new value of a control register comes from the old one and the source. -/
inductive CsrUpdate where
  | swap
  | set
  | clear

namespace CsrUpdate

def mnemonic : CsrUpdate → CsrSource → String
  | swap, .register => "CSRRW"
  | swap, .immediate => "CSRRWI"
  | set, .register => "CSRRS"
  | set, .immediate => "CSRRSI"
  | clear, .register => "CSRRC"
  | clear, .immediate => "CSRRCI"

def operation : CsrUpdate → CsrSource → Operation
  | swap => .csrSwap
  | set => .csrSet
  | clear => .csrClear

def result (old source : Word) : CsrUpdate → Word
  | swap => source
  | set => old ||| source
  | clear => old &&& ~~~source

/-- A swap always writes, the others if there may be something to set or clear. -/
def writes (source : CsrSource) (operands : Operands) : CsrUpdate → Bool
  | swap => true
  | set | clear => source.field operands ≠ 0

theorem define_mem_handlers (update : CsrUpdate) (source : CsrSource) :
    Handler.define (update.mnemonic source) (update.operation source) ∈ Catalogue.handlers := by
  cases update <;> cases source <;> decide

end CsrUpdate

namespace Hart

/-- The current mode must not read the register, or not write it if `write` is set. -/
def Refuses (hart : Hart) (address : CsrAddress) (write : Bool) : Prop :=
  hart.hasCsr address = false ∨ hart.privilege.code < Csr.requiredPrivilege address ∨
    write = true ∧ Csr.isReadOnly address = true

/-- The hart after an instruction on a control register. All values are those before it. -/
def updated (hart : Hart) (update : CsrUpdate) (source : CsrSource) (operands : Operands) : Hart :=
  let address := csrOperand operands
  let old := hart.csr address
  let new := update.result old (hart.csrSourceValue source operands)
  let written := if update.writes source operands then hart.setCsr address new else hart
  written.writeRegister (operands.register 0) old

instance (hart : Hart) (address : CsrAddress) (write : Bool) :
    Decidable (hart.Refuses address write) :=
  inferInstanceAs (Decidable (_ ∨ _ ∨ _ ∧ _))

variable {address : CsrAddress} {write : Bool}

theorem mayAccess_eq_false_iff (hart : Hart) :
    hart.mayAccess address write = false ↔ hart.Refuses address write := by
  unfold mayAccess Refuses
  rw [Bool.and_eq_false_iff, Bool.and_eq_false_iff, or_assoc, decide_eq_false_iff_not, Nat.not_le,
    Bool.not_eq_false', Bool.and_eq_true]

/-- Whoever may write a register may read it. -/
theorem mayAccess_of_mayAccess {hart : Hart} (hmay : hart.mayAccess address write = true) :
    hart.mayAccess address false = true := by
  unfold mayAccess at hmay ⊢
  rw [Bool.and_eq_true] at hmay
  rw [Bool.false_and, Bool.not_false, Bool.and_true]
  exact hmay.1

theorem csrSourceWrites_eq (source : CsrSource) (operands : Operands) :
    csrSourceWrites source operands = decide (source.field operands ≠ 0) := by
  unfold csrSourceWrites CsrSource.field
  rw [Bool.eq_iff_iff, decide_eq_true_iff]
  cases source with
  | register => exact bne_iff_ne
  | immediate => exact bne_iff_ne.trans (not_congr BitVec.toNat_inj.symm)

/-- Without a destination the old value is not read, but then it is not needed either. -/
theorem executeCsrSwap_eq (hart : Hart) (source : CsrSource) (operands : Operands) :
    hart.executeCsrSwap source operands =
      if hart.mayAccess (csrOperand operands) true
      then (.ok .next, hart.updated .swap source operands)
      else (.error .illegal, hart) := by
  unfold executeCsrSwap writeCsr readCsr
  by_cases hmay : hart.mayAccess (csrOperand operands) true = true
  · simp only [hmay, mayAccess_of_mayAccess hmay, if_true]
    by_cases hdestination : operands.register 0 = 0
    · simp only [hdestination, if_true, updated, writeRegister, RegisterFile.write_zero]
      rfl
    · rw [if_neg hdestination]
      rfl
  · simp only [hmay]
    by_cases hdestination : operands.register 0 = 0
    · rw [if_pos hdestination]
      rfl
    · rw [if_neg hdestination]
      by_cases hread : hart.mayAccess (csrOperand operands) false = true
      · rw [if_pos hread]
        rfl
      · rw [if_neg hread]
        rfl

theorem executeCsrModify_eq (hart : Hart) (update : CsrUpdate) (source : CsrSource)
    (operands : Operands) (hmodify : update ≠ .swap) :
    hart.executeCsrModify source (fun old value => update.result old value) operands =
      if hart.mayAccess (csrOperand operands) (update.writes source operands)
      then (.ok .next, hart.updated update source operands)
      else (.error .illegal, hart) := by
  have hwrites : csrSourceWrites source operands = update.writes source operands := by
    rw [csrSourceWrites_eq]
    cases update with
    | swap => exact absurd rfl hmodify
    | set => rfl
    | clear => rfl
  unfold executeCsrModify writeCsr readCsr updated
  rw [hwrites]
  cases update.writes source operands with
  | false =>
      by_cases hmay : hart.mayAccess (csrOperand operands) false = true
      · simp only [if_pos hmay]
        rfl
      · simp only [if_neg hmay]
        rfl
  | true =>
      by_cases hmay : hart.mayAccess (csrOperand operands) true = true
      · simp only [if_pos hmay, if_pos (mayAccess_of_mayAccess hmay)]
        rfl
      · simp only [if_neg hmay]
        by_cases hread : hart.mayAccess (csrOperand operands) false = true
        · simp only [if_pos hread]
          rfl
        · simp only [if_neg hread]
          rfl

theorem execute_csrOperation (hart : Hart) (update : CsrUpdate) (source : CsrSource)
    (operands : Operands) :
    (update.operation source).execute operands hart =
      if hart.mayAccess (csrOperand operands) (update.writes source operands)
      then (.ok .next, hart.updated update source operands)
      else (.error .illegal, hart) := by
  cases update with
  | swap => exact executeCsrSwap_eq hart source operands
  | set => exact executeCsrModify_eq hart .set source operands nofun
  | clear => exact executeCsrModify_eq hart .clear source operands nofun

theorem updated_frame (hart : Hart) (update : CsrUpdate) (source : CsrSource)
    (operands : Operands) :
    ∃ controls cycles translation, hart.updated update source operands =
      { hart with
        controls := controls
        cycles := cycles
        translation := translation
        registers := hart.registers.write (operands.register 0)
          (hart.xlen.normalize (hart.csr (csrOperand operands))) } := by
  unfold updated
  by_cases hwrites : update.writes source operands = true
  · obtain ⟨controls, cycles, translation, hframe⟩ := setCsr_frame hart (csrOperand operands)
      (update.result (hart.csr (csrOperand operands)) (hart.csrSourceValue source operands))
    refine ⟨controls, cycles, translation, ?_⟩
    simp only [if_pos hwrites, hframe, writeRegister]
  · refine ⟨hart.controls, hart.cycles, hart.translation, ?_⟩
    simp only [if_neg hwrites, writeRegister]

end Hart

end RiscvMachine
