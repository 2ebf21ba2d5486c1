import RiscvMachine.Proofs.ControlRegisters
import RiscvMachine.Proofs.ControlViews
/-!
Registers over a history of writes. A register reads as what was last written to it, by whatever
index. Register 0 is guarded under the index 0 alone: the other multiples of the number of registers
denote it as well, and a write by one of them is stored and read back. No instruction names such an
index, so x0 stays zero as long as the environment does not either.
-/

namespace RiscvMachine

namespace RegisterFile

variable {count : Nat}

/-- The file after some writes of values to indices, the first one first. -/
def writeAll (file : RegisterFile count) (writes : List (Nat × Word)) : RegisterFile count :=
  writes.foldl (fun file write => file.write write.1 write.2) file

/-- The value of the last write to an index that denotes the same register as `index`. -/
def lastWrite? (count index : Nat) (writes : List (Nat × Word)) : Option Word :=
  (writes.reverse.find? fun write => write.1 % count = index % count).map Prod.snd

/-- The writes that are not discarded. -/
def effective (writes : List (Nat × Word)) : List (Nat × Word) :=
  writes.filter fun write => write.1 ≠ 0

/-- Register 0 is zero where it is stored and under every index that denotes it. -/
structure Hardwired (file : RegisterFile count) : Prop where
  stored : file.toList.head? = some 0
  read : ∀ index, index % count = 0 → file.read index = 0

/-- The second file is the first after some writes, none to an index beyond the file. -/
def Rewritten (before after : RegisterFile count) : Prop :=
  ∃ writes : List (Nat × Word), (∀ write ∈ writes, write.1 < count) ∧ after = before.writeAll writes

variable (file : RegisterFile count) {index other : Nat}

/-! ### Indices that denote the same register -/

theorem getElem?_toList (hindex : index ≠ 0) :
    file.toList[index % count]? = some (file.read index) := by
  have hlt : index % count < count := Nat.mod_lt _ file.count_pos
  rw [toList, read, if_neg hindex, Vector.getElem?_toList, Vector.getElem?_eq_getElem hlt]
  rfl

/-- All indices that denote a register read the same, the guarded index 0 apart. -/
theorem read_congr (hindex : index ≠ 0) (hother : other ≠ 0)
    (hsame : index % count = other % count) : file.read index = file.read other := by
  have hstored := file.getElem?_toList hindex
  rw [hsame, file.getElem?_toList hother] at hstored
  exact (Option.some.inj hstored).symm

/-- The first index beyond the file shows whether register 0 is zero. -/
theorem hardwired_iff : file.Hardwired ↔ file.read count = 0 := by
  have hcount : count ≠ 0 := Nat.ne_of_gt file.count_pos
  constructor
  · intro hhardwired
    exact hhardwired.read count (Nat.mod_self count)
  · intro hzero
    constructor
    · have hstored := file.getElem?_toList hcount
      rwa [Nat.mod_self, hzero, ← List.head?_eq_getElem?] at hstored
    · intro index hindex
      by_cases hguarded : index = 0
      · rw [hguarded, read_zero]
      · rw [file.read_congr hguarded hcount (hindex.trans (Nat.mod_self count).symm), hzero]

/-! ### What a history leaves -/

theorem writeAll_cons (write : Nat × Word) (rest : List (Nat × Word)) :
    file.writeAll (write :: rest) = (file.write write.1 write.2).writeAll rest := rfl

theorem effective_cons (write : Nat × Word) (rest : List (Nat × Word)) :
    effective (write :: rest) =
      if write.1 = 0 then effective rest else write :: effective rest := by
  by_cases hguarded : write.1 = 0 <;> simp [effective, hguarded]

theorem lastWrite?_cons (count index : Nat) (write : Nat × Word) (rest : List (Nat × Word)) :
    lastWrite? count index (write :: rest) = (lastWrite? count index rest).or
      (if write.1 % count = index % count then some write.2 else none) := by
  rw [lastWrite?, List.reverse_cons, List.find?_append, Option.map_or, List.find?_singleton]
  by_cases hsame : write.1 % count = index % count <;> simp [lastWrite?, hsame]

theorem lastWrite?_congr (hsame : index % count = other % count) (writes : List (Nat × Word)) :
    lastWrite? count index writes = lastWrite? count other writes := by
  rw [lastWrite?, lastWrite?, hsame]

/-- Discarded writes make no difference to registers other than 0. -/
theorem lastWrite?_effective (hindex : index % count ≠ 0) (writes : List (Nat × Word)) :
    lastWrite? count index (effective writes) = lastWrite? count index writes := by
  induction writes with
  | nil => rfl
  | cons write rest ih =>
      rw [effective_cons, lastWrite?_cons]
      by_cases hguarded : write.1 = 0
      · have hother : write.1 % count ≠ index % count := by
          rw [hguarded, Nat.zero_mod]
          exact Ne.symm hindex
        rw [if_pos hguarded, if_neg hother, Option.or_none, ih]
      · rw [if_neg hguarded, lastWrite?_cons, ih]

/-- Writes to register 0 have no effect if all of them use its guarded index. -/
theorem lastWrite?_effective_zero {writes : List (Nat × Word)}
    (hguarded : ∀ write ∈ writes, write.1 % count = 0 → write.1 = 0) :
    lastWrite? count 0 (effective writes) = none := by
  rw [lastWrite?, Option.map_eq_none_iff, List.find?_eq_none]
  intro write hmem hsame
  rw [List.mem_reverse, effective, List.mem_filter] at hmem
  obtain ⟨hmem, hkept⟩ := hmem
  rw [decide_eq_true_eq, Nat.zero_mod] at hsame
  exact of_decide_eq_true hkept (hguarded write hmem hsame)

/-- Under an index other than 0 a register reads as the last write that was not discarded. -/
theorem read_writeAll (writes : List (Nat × Word)) (hindex : index ≠ 0) :
    (file.writeAll writes).read index =
      (lastWrite? count index (effective writes)).getD (file.read index) := by
  induction writes generalizing file with
  | nil => rfl
  | cons write rest ih =>
      rw [writeAll_cons, ih, effective_cons, read_write]
      by_cases hguarded : write.1 = 0
      · rw [if_pos hguarded, if_neg fun hwritten => hwritten.1 hguarded]
      · rw [if_neg hguarded, lastWrite?_cons]
        cases lastWrite? count index (effective rest) with
        | some value => rfl
        | none =>
            by_cases hsame : write.1 % count = index % count <;> simp [hguarded, hindex, hsame]

/-- What every history of writes leaves in a file of zeros. Register 0 is hardwired just if the last
write to it by another index than 0 wrote zero, and always if there is none. -/
theorem registers_last_written (hcount : 0 < count) (writes : List (Nat × Word)) :
    let file := (zero count hcount).writeAll writes
    let kept := fun index => (lastWrite? count index (effective writes)).getD 0
    file.read 0 = 0 ∧
      (∀ index, index % count ≠ 0 → file.read index = (lastWrite? count index writes).getD 0) ∧
      (∀ index, index ≠ 0 →
        file.read index = kept index ∧ file.toList[index % count]? = some (kept index)) ∧
      (file.Hardwired ↔ kept 0 = 0) ∧
      ((∀ write ∈ writes, write.1 % count = 0 → write.1 = 0) → file.Hardwired) := by
  intro file kept
  have hkept (index : Nat) (hindex : index ≠ 0) : file.read index = kept index := by
    rw [read_writeAll _ writes hindex, zero_read]
  have hhardwired : file.Hardwired ↔ kept 0 = 0 := by
    have hsame : count % count = 0 % count := by rw [Nat.mod_self, Nat.zero_mod]
    rw [hardwired_iff, hkept count (Nat.ne_of_gt hcount)]
    simp only [kept, lastWrite?_congr hsame]
  refine ⟨rfl, fun index hindex => ?_, fun index hindex => ?_, hhardwired, fun hguarded => ?_⟩
  · have hne : index ≠ 0 := by
      rintro rfl
      exact hindex (Nat.zero_mod count)
    rw [hkept index hne]
    simp only [kept, lastWrite?_effective hindex]
  · rw [getElem?_toList file hindex, hkept index hindex]
    exact ⟨rfl, rfl⟩
  · rw [hhardwired]
    simp only [kept, lastWrite?_effective_zero hguarded, Option.getD_none]

/-- Writes to x5 and x0, each by the register number and by numbers beyond the file. -/
theorem registers_last_written_wrapped :
    let file := (zero 32).writeAll [(5, 7), (0, 1), (96, 42), (37, 9), (0, 2)]
    0 < 32 ∧ file.read 0 = 0 ∧ file.read 5 = 9 ∧ file.read 64 = 42 ∧
      file.toList[32 % 32]? = some 42 ∧ ¬ file.Hardwired := by
  intro file
  obtain ⟨hzero, hwritten, hkept, hhardwired, -⟩ := registers_last_written
    (by decide : 0 < 32) [(5, 7), (0, 1), (96, 42), (37, 9), (0, 2)]
  refine ⟨by decide, hzero, hwritten 5 (by decide), (hkept 64 (by decide)).1,
    (hkept 32 (by decide)).2, ?_⟩
  rw [hhardwired]
  decide

/-- A write to the first index beyond the file shows in register 0 and is read back. -/
theorem not_hardwired_of_wrapped :
    let file := (zero 32).writeAll [(32, 42)]
    32 % 32 = 0 ∧ file.toList.head? = some 42 ∧ file.read 32 = 42 ∧ ¬ file.Hardwired := by
  intro file
  have hread : file.read 32 = 42 := by decide
  refine ⟨by decide, by decide, hread, fun hhardwired => ?_⟩
  have hzero := hhardwired.read 32 (by decide)
  rw [hread] at hzero
  cases hzero

/-! ### Writes by register numbers -/

variable {file} {after : RegisterFile count}

theorem hardwired_zero (hcount : 0 < count) : (zero count hcount).Hardwired := by
  rw [hardwired_iff, zero_read]

theorem Hardwired.write (hhardwired : file.Hardwired) (hindex : index % count = 0 → index = 0)
    (value : Word) : (file.write index value).Hardwired := by
  rw [hardwired_iff, read_write, if_neg, hhardwired.read count (Nat.mod_self count)]
  rintro ⟨hne, -, hsame⟩
  rw [Nat.mod_self] at hsame
  exact hne (hindex hsame)

theorem Rewritten.refl (file : RegisterFile count) : file.Rewritten file :=
  ⟨[], List.forall_mem_nil _, rfl⟩

theorem Rewritten.write (hrewritten : file.Rewritten after) (hindex : index < count)
    (value : Word) : file.Rewritten (after.write index value) := by
  obtain ⟨writes, hwrites, rfl⟩ := hrewritten
  refine ⟨writes ++ [(index, value)], ?_, by rw [writeAll, writeAll, List.foldl_concat]⟩
  intro write hmem
  rw [List.mem_append, List.mem_singleton] at hmem
  rcases hmem with hmem | rfl
  · exact hwrites write hmem
  · exact hindex

theorem Rewritten.foldl (hrewritten : file.Rewritten after)
    (value : RegisterFile count → Nat → Word) {indices : List Nat}
    (hindices : ∀ index ∈ indices, index < count) :
    file.Rewritten
      (indices.foldl (fun file index => file.write index (value file index)) after) := by
  induction indices generalizing after with
  | nil => exact hrewritten
  | cons index rest ih =>
      exact ih (hrewritten.write (hindices index List.mem_cons_self) _)
        fun other hmem => hindices other (List.mem_cons_of_mem index hmem)

theorem Rewritten.hardwired (hrewritten : file.Rewritten after) (hhardwired : file.Hardwired) :
    after.Hardwired := by
  obtain ⟨writes, hwrites, rfl⟩ := hrewritten
  induction writes generalizing file with
  | nil => exact hhardwired
  | cons write rest ih =>
      rw [List.forall_mem_cons] at hwrites
      obtain ⟨hindex, hrest⟩ := hwrites
      refine ih (hhardwired.write (fun hsame => ?_) write.2) hrest
      rwa [Nat.mod_eq_of_lt hindex] at hsame

end RegisterFile

namespace Hart

variable {hart after : Hart}

/-- An instruction writes at most the register that its first operand names. -/
theorem rewritten_of_effect {operands : Operands} {operation : Operation} {flow : Flow}
    {file : RegisterFile 32} (heffect : Effect hart operands operation flow after)
    (hrewritten : file.Rewritten hart.registers) : file.Rewritten after.registers := by
  have hwritten (value : Word) :
      file.Rewritten (hart.registers.write (operands.register 0) value) :=
    hrewritten.write (Nat.mod_lt _ (by decide)) value
  cases heffect with
  | compute => exact hwritten _
  | load => exact hwritten _
  | store => exact hrewritten
  | branch => exact hrewritten
  | stay => exact hrewritten
  | jump => exact hwritten _
  | jumpRegister => exact hwritten _
  | call => exact hrewritten
  | readCsr => exact hwritten _
  | writeCsr =>
      rw [writeRegister, registers_setCsr]
      exact hwritten _
  | machineReturn => exact hrewritten
  | supervisorReturn => exact hrewritten
  | wait => exact hrewritten
  | fence => exact hrewritten

theorem keptByOperations_rewritten (file : RegisterFile 32) :
    KeptByOperations fun hart => file.Rewritten hart.registers where
  effect := rewritten_of_effect
  trap := by
    intro hart cause value hrewritten
    rwa [(takes_enterTrap hart ⟨cause, value⟩).registers]
  moved := fun _ _ _ _ _ _ hrewritten => hrewritten

/-- What a program does to the registers is a history of writes by register numbers. -/
theorem rewritten_step (hart : Hart) (count : Nat) :
    hart.registers.Rewritten (hart.step count).2.registers :=
  (keptByOperations_rewritten hart.registers).step (.refl hart.registers) count

theorem rewritten_setXlen (hart : Hart) (xlen : Xlen) :
    hart.registers.Rewritten (hart.setXlen xlen).registers := by
  rw [setXlen]
  split
  · exact .refl hart.registers
  · refine (RegisterFile.Rewritten.refl hart.registers).foldl
      (fun file index => xlen.normalize (file.read index)) fun index hmem => ?_
    rw [List.mem_range'_1] at hmem
    omega

theorem hardwired_act (hhardwired : hart.registers.Hardwired) {action : Action}
    (hindex : ∀ index value, action = .writeRegister index value → index % 32 = 0 → index = 0) :
    (hart.act action).registers.Hardwired := by
  cases action with
  | step count => exact (rewritten_step hart count).hardwired hhardwired
  | setXlen xlen => exact (rewritten_setXlen hart xlen).hardwired hhardwired
  | writeRegister index value => exact hhardwired.write (hindex index value rfl) _
  | setCsr address value =>
      rw [act, registers_setCsr]
      exact hhardwired
  | writeCsr address value =>
      rw [act]
      split
      · rename_i hwrite
        rw [(writeCsr_eq_ok hwrite).2, registers_setCsr]
        exact hhardwired
      · exact hhardwired
  | load address size =>
      obtain ⟨translation, hframe⟩ := hart.retranslated_load address size
      rw [act, hframe]
      exact hhardwired
  | store address value size =>
      obtain ⟨translation, memory, hframe⟩ := hart.store_frame address value size
      rw [act, hframe]
      exact hhardwired
  | enterTrap cause value =>
      rw [act, (takes_enterTrap hart ⟨cause, value⟩).registers]
      exact hhardwired
  | reset hard pc =>
      cases hard with
      | false => exact hhardwired
      | true => exact RegisterFile.hardwired_zero (by decide)
  | _ => exact hhardwired

/-- Whatever programs do, x0 is zero under every index and where it is stored, as long as the
environment writes to none of its other indices. -/
theorem hardwired_run_initial (instructions : InstructionSet) (memory : MemoryMap)
    (translation : Translation) (xlen : Xlen) (entry : Word) {actions : List Action}
    (hindex : ∀ index value, .writeRegister index value ∈ actions → index % 32 = 0 → index = 0) :
    ((initial instructions memory translation xlen entry).run actions).registers.Hardwired := by
  refine run_induction (fun hart => hart.registers.Hardwired) (fun action hmem hart hhardwired => ?_)
    (RegisterFile.hardwired_zero (by decide))
  exact hardwired_act hhardwired fun index value hwrite => hindex index value (hwrite ▸ hmem)

end Hart

end RiscvMachine
