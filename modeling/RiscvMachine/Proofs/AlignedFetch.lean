import RiscvMachine.Proofs.FetchHalves
import RiscvMachine.Proofs.Moments
import RiscvMachine.Proofs.OperandBits
import RiscvMachine.Proofs.ProgramCounter
/-!
Even program counters. Offsets of branches and jumps are even by their encoding, and addresses that a
program provides lose their lowest bit; so a hart that starts at an even address never fetches from an
odd one, and a fetch from an even one is never misaligned.
-/

namespace RiscvMachine

/-! ### Even addresses -/

theorem even_iff_getLsbD {word : Word} : word.toNat % 2 = 0 ↔ word.getLsbD 0 = false := by
  rw [BitVec.getLsbD, Nat.testBit_zero]
  simp

theorem even_and {mask : Word} (hmask : mask.getLsbD 0 = false) (value : Word) :
    (value &&& mask).toNat % 2 = 0 := by
  rw [even_iff_getLsbD, BitVec.getLsbD_and, hmask, Bool.and_false]

theorem even_add {first second : Word} (hfirst : first.toNat % 2 = 0)
    (hsecond : second.toNat % 2 = 0) : (first + second).toNat % 2 = 0 := by
  rw [BitVec.toNat_add]
  omega

theorem Xlen.even_address (xlen : Xlen) {address : Word} (heven : address.toNat % 2 = 0) :
    (xlen.address address).toNat % 2 = 0 := by
  rw [xlen.toNat_address, xlen.unsigned_eq_mod, Nat.mod_mod_of_dvd _ (by cases xlen <;> decide)]
  exact heven

theorem EncodedLength.even_bytes (length : EncodedLength) :
    (BitVec.ofNat 64 length.bytes).toNat % 2 = 0 := by
  cases length <;> rfl

namespace Form

/-- The distance from the instruction to its target. -/
def offset? : Form → Option OperandField
  | branch _ _ _ offset | jump _ offset => some offset
  | _ => none

/-- The lowest bit of a distance is not in the encoding. -/
theorem source?_offset_named : ∀ form ∈ named.map Prod.snd, ∀ offset ∈ form.offset?,
    offset.source? 0 = some (.constant false) := by
  decide

theorem even_offset {mnemonic : String} {offset : OperandField}
    (hoffset : (ofMnemonic mnemonic).offset? = some offset) (raw : Encoding) :
    (offset.extract raw).toNat % 2 = 0 := by
  have hsource : offset.source? 0 = some (.constant false) := by
    cases hlookup : named.lookup mnemonic with
    | none =>
        rw [ofMnemonic, hlookup] at hoffset
        cases hoffset
    | some form =>
        rw [ofMnemonic, hlookup] at hoffset
        obtain ⟨earlier, later, hnamed, -⟩ := List.lookup_eq_some_iff.mp hlookup
        have hmem : form ∈ named.map Prod.snd := by simp [hnamed]
        exact source?_offset_named form hmem offset hoffset
  rw [even_iff_getLsbD, OperandField.getLsbD_extract (by decide) hsource]
  rfl

end Form

/-! ### Fetches from even addresses -/

theorem Region.load_ne_unaligned {region : Region} {address other : Word} {size kind : AccessSize}
    (haligned : address.toNat % size.bytes = 0) :
    region.load address size ≠ .error (.unaligned other kind) := by
  intro hload
  rcases error_of_bind hload with hlocate | ⟨offset, -, hvalue⟩
  · rw [locate, if_neg (not_not_intro haligned)] at hlocate
    split at hlocate <;> cases hlocate
  · cases hvalue

theorem MemoryMap.load_ne_unaligned {memory : MemoryMap} {address other : Word}
    {size kind : AccessSize} (haligned : address.toNat % size.bytes = 0) :
    memory.load address size ≠ .error (.unaligned other kind) := by
  rw [load]
  split
  · simp
  · exact Region.load_ne_unaligned haligned

namespace TrapCause

theorem ofTranslation_ne_misaligned (error : TranslationError) :
    ofTranslation error ≠ instructionAddressMisaligned := by
  rcases error with ⟨address, access⟩ | ⟨address, access⟩ <;> cases access <;>
    simp [ofTranslation, pageFault, accessFault]

theorem ofMemory_ne_misaligned {error : MemoryError}
    (herror : ∀ address size, error ≠ .unaligned address size) :
    ofMemory error .fetch ≠ instructionAddressMisaligned := by
  cases error with
  | unaligned address size => exact absurd rfl (herror address size)
  | outOfRange address size => simp [ofMemory, accessFault]
  | overlap base size => simp [ofMemory, accessFault]

end TrapCause

namespace Hart

variable {hart after translated : Hart} {pc physical : Word} {cause : TrapCause}

theorem fetchHalf_ne_misaligned (heven : physical.toNat % 2 = 0)
    (hfetch : hart.fetchHalf physical = .error cause) : cause ≠ .instructionAddressMisaligned := by
  rw [fetchHalf] at hfetch
  split at hfetch <;> cases hfetch
  rename_i error hload
  refine TrapCause.ofMemory_ne_misaligned ?_
  rintro address size rfl
  exact MemoryMap.load_ne_unaligned heven hload

theorem translate_ne_misaligned {address : Word} {access : Access}
    (htranslate : hart.translate address access = (.error cause, after)) :
    cause ≠ .instructionAddressMisaligned := by
  rw [translate] at htranslate
  rcases houtcome : hart.translation.translate hart.memory address access with
    ⟨error | physical, translation⟩ <;> rw [houtcome] at htranslate <;> cases htranslate
  exact TrapCause.ofTranslation_ne_misaligned error

theorem even_of_translate (htranslate : hart.translate pc .fetch = (.ok physical, translated))
    (heven : pc.toNat % 2 = 0) : physical.toNat % 2 = 0 := by
  have hoffset := Translation.toNat_mod_of_translate (translate_eq_ok htranslate).1
  omega

theorem fetchHigh_ne_misaligned (hpc : pc.toNat % 2 = 0) (hphysical : physical.toNat % 2 = 0)
    (hfetch : hart.fetchHigh pc physical = (.error cause, after)) :
    cause ≠ .instructionAddressMisaligned := by
  have hnext : (hart.xlen.address (pc + 2)).toNat % 2 = 0 :=
    hart.xlen.even_address (even_add hpc rfl)
  rw [fetchHigh] at hfetch
  split at hfetch
  · split at hfetch <;> rename_i htranslate
    · cases hfetch
      exact translate_ne_misaligned htranslate
    · exact fetchHalf_ne_misaligned (even_of_translate htranslate hnext) (congrArg Prod.fst hfetch)
  · exact fetchHalf_ne_misaligned (even_add hphysical rfl) (congrArg Prod.fst hfetch)

theorem fetch_ne_misaligned (heven : pc.toNat % 2 = 0)
    (hfetch : hart.fetch pc = (.error cause, after)) : cause ≠ .instructionAddressMisaligned := by
  rw [fetch] at hfetch
  split at hfetch <;> rename_i htranslate
  · cases hfetch
    exact translate_ne_misaligned htranslate
  · have hphysical := even_of_translate htranslate heven
    split at hfetch <;> rename_i hlow
    · cases hfetch
      exact fetchHalf_ne_misaligned hphysical hlow
    · split at hfetch
      · cases hfetch
      · split at hfetch <;> rename_i hhigh <;> cases hfetch
        exact fetchHigh_ne_misaligned heven hphysical hhigh

/-! ### Instructions -/

/-- A hart with the standard instruction set, at an even address. -/
structure Aligned (hart : Hart) : Prop where
  instructions : hart.instructions = .standard
  pc : hart.pc.toNat % 2 = 0

theorem even_behind (heven : hart.pc.toNat % 2 = 0) (raw : Encoding) :
    (hart.behind raw).toNat % 2 = 0 := by
  rw [behind_eq]
  exact even_add heven (EncodedLength.of raw).even_bytes

theorem even_reduced {address : Word} (heven : address.toNat % 2 = 0) :
    (hart.reduced address).toNat % 2 = 0 := by
  rw [reduced_eq]
  exact hart.xlen.even_address heven

/-- The targets of all forms are even. -/
theorem even_target (heven : hart.pc.toNat % 2 = 0) (mnemonic : String) (raw : Encoding) :
    ((Form.ofMnemonic mnemonic).target hart raw).toNat % 2 = 0 := by
  have hnext := even_behind heven raw
  have hoffset := @Form.even_offset mnemonic
  generalize Form.ofMnemonic mnemonic = form at hoffset
  cases form with
  | branch condition left right offset =>
      rw [Form.target]
      split
      · exact even_add heven (hoffset rfl raw)
      · exact hnext
  | jump link offset => exact even_add heven (hoffset rfl raw)
  -- what comes from a register is masked
  | jumpRegister link base offset => exact even_and (by decide) _
  | machineReturn => exact even_and (by decide) _
  | supervisorReturn => exact even_and (by decide) _
  | _ => exact hnext

/-- An instruction leaves an even address, or traps for another cause than a misaligned fetch. -/
def EndsAligned (after : Hart) : Completion → Prop
  | .retired => after.pc.toNat % 2 = 0
  | .trapped exception resume =>
      exception.cause ≠ .instructionAddressMisaligned ∧ ∀ pc ∈ resume, pc.toNat % 2 = 0

theorem Failure.ne_misaligned {operands : Operands} {operation : Operation} {exception : Exception}
    (hfailure : Failure hart operands operation exception) :
    exception.cause ≠ .instructionAddressMisaligned := by
  cases hfailure with
  | load hcause =>
      rintro rfl
      exact absurd hcause (by decide)
  | store hcause =>
      rintro rfl
      exact absurd hcause (by decide)
  | breakpoint => simp
  | refused => decide

theorem endsAligned_of_performed {raw : Encoding} {completion : Completion}
    (haligned : hart.Aligned) (hperformed : Performed Catalogue.bound hart raw completion after) :
    after.EndsAligned completion := by
  cases completion with
  | retired =>
      obtain ⟨declaration, -, hadvanced⟩ :=
        advanced_of_performed haligned.instructions hperformed
      rw [EndsAligned, hadvanced.pc]
      exact even_reduced (even_target haligned.pc _ raw)
  | trapped exception resume =>
      cases hperformed with
      | illegal => exact ⟨by simp, by simp⟩
      | failed translation hdecision hrow hdeclaration hfailure =>
          exact ⟨hfailure.ne_misaligned, by simp⟩
      | called =>
          refine ⟨?_, fun pc hpc => ?_⟩
          · cases hart.privilege <;> simp [TrapCause.callFrom]
          · split at hpc <;> cases hpc
            rw [← reduced_behind]
            exact even_reduced (even_behind haligned.pc raw)

theorem endsAligned_attempt (haligned : hart.Aligned) :
    hart.attempt.2.EndsAligned hart.attempt.1 := by
  rcases hattempt : hart.attempt with ⟨completion, after⟩
  rcases attempt_cases_of_standard haligned.instructions hattempt with
    ⟨cause, hfetch, -, rfl, -⟩ | ⟨raw, ready, -, hready, hperformed⟩
  · refine ⟨fun heq => ?_, by simp⟩
    exact fetch_ne_misaligned haligned.pc (Prod.ext hfetch rfl) heq
  · refine endsAligned_of_performed ⟨hready.instructions_eq.trans haligned.instructions, ?_⟩ hperformed
    obtain ⟨translation, journal, rfl⟩ := hready
    exact haligned.pc

/-! ### Runs and sessions -/

theorem even_enterTrap (hart : Hart) (cause : TrapCause) (value : Word) :
    (hart.enterTrap cause value).pc.toNat % 2 = 0 := by
  simp only [enterTrap]
  split <;> exact Xlen.even_address _ (even_and (by decide) _)

theorem Aligned.of_equipment_eq (haligned : hart.Aligned) (heven : after.pc.toNat % 2 = 0)
    (hequipment : after.equipment = hart.equipment) : after.Aligned :=
  ⟨(congrArg Equipment.instructions hequipment).trans haligned.instructions, heven⟩

theorem Aligned.executeNext (haligned : hart.Aligned) : hart.executeNext.Aligned := by
  refine haligned.of_equipment_eq ?_ hart.equipment_executeNext
  have hends := endsAligned_attempt haligned
  rw [Hart.executeNext]
  split <;> rename_i hattempt <;> rw [hattempt] at hends
  · exact hends
  · rename_i exception resume attempted
    cases resume with
    | none => exact even_enterTrap _ _ _
    | some pc => exact hends.2 pc rfl

theorem Aligned.checkBreakpoint (haligned : hart.Aligned) : hart.checkBreakpoint.2.Aligned := by
  obtain ⟨debugger, hchecked⟩ := hart.equipment_checkBreakpoint
  rw [hchecked]
  exact ⟨haligned.instructions, haligned.pc⟩

theorem Aligned.advance (haligned : hart.Aligned) : hart.advance.2.Aligned := by
  have hchecked := haligned.checkBreakpoint
  rw [Hart.advance]
  split
  · exact haligned
  · split <;> rename_i hcheck <;> rw [hcheck] at hchecked
    · exact ⟨hchecked.instructions, hchecked.pc⟩
    · exact ⟨hchecked.executeNext.instructions, hchecked.executeNext.pc⟩

theorem Aligned.step (haligned : hart.Aligned) (count : Nat) : (hart.step count).2.Aligned :=
  step_induction Aligned (fun _ haligned => haligned.advance) haligned count

/-- The environment sets the program counter to even addresses only. -/
def Action.KeepsAligned : Action → Prop
  | .setPc pc | .reset _ pc => pc.toNat % 2 = 0
  | _ => True

theorem pc_setCsr (hart : Hart) (address : CsrAddress) (value : Word) :
    (hart.setCsr address value).pc = hart.pc := by
  unfold setCsr
  split <;> rfl

theorem Aligned.setCsr (haligned : hart.Aligned) (address : CsrAddress) (value : Word) :
    (hart.setCsr address value).Aligned := by
  refine haligned.of_equipment_eq ?_ (hart.equipment_setCsr address value)
  rw [pc_setCsr]
  exact haligned.pc

theorem Aligned.of_retranslated (haligned : hart.Aligned) (hframe : Retranslated hart after) :
    after.Aligned := by
  obtain ⟨translation, rfl⟩ := hframe
  exact ⟨haligned.instructions, haligned.pc⟩

theorem Aligned.act (haligned : hart.Aligned) {action : Action} (hkeeps : action.KeepsAligned) :
    (hart.act action).Aligned := by
  cases action with
  | step count => exact haligned.step count
  | setXlen xlen =>
      rw [Hart.act, setXlen]
      split
      · exact haligned
      · exact ⟨haligned.instructions, xlen.even_address haligned.pc⟩
  | setPc pc => exact ⟨haligned.instructions, hart.xlen.even_address hkeeps⟩
  | setCsr address value => exact haligned.setCsr address value
  | writeCsr address value =>
      rw [Hart.act]
      split
      · rename_i written hwrite
        rw [(writeCsr_eq_ok hwrite).2]
        exact haligned.setCsr address value
      · exact haligned
  | load address size => exact haligned.of_retranslated (hart.retranslated_load address size)
  | store address value size =>
      obtain ⟨translation, memory, hframe⟩ := hart.store_frame address value size
      rw [Hart.act, hframe]
      exact ⟨haligned.instructions, haligned.pc⟩
  | enterTrap cause value =>
      exact haligned.of_equipment_eq (even_enterTrap hart cause value)
        (hart.equipment_enterTrap cause value)
  | reset hard pc =>
      rw [Hart.act, reset]
      split <;> exact ⟨haligned.instructions, hart.xlen.even_address hkeeps⟩
  | _ => exact ⟨haligned.instructions, haligned.pc⟩

theorem Aligned.run (haligned : hart.Aligned) {actions : List Action}
    (hkeep : ∀ action ∈ actions, action.KeepsAligned) : (hart.run actions).Aligned :=
  run_induction Aligned (fun action hmem _ haligned => haligned.act (hkeep action hmem)) haligned

/-- With the standard instruction set and from an even address, whatever the program and its
environment do, every instruction is fetched from an even address, and none traps for a misaligned
fetch. -/
theorem fetches_aligned (hstandard : hart.instructions = .standard)
    (heven : hart.pc.toNat % 2 = 0) {actions : List Action}
    (hkeep : ∀ action ∈ actions, action.KeepsAligned) {fetching : Hart}
    (hmem : .fetch fetching ∈ hart.moments actions) :
    fetching.pc.toNat % 2 = 0 ∧ ∀ exception resume,
      fetching.checkBreakpoint.2.attempt.1 = .trapped exception resume →
        exception.cause ≠ .instructionAddressMisaligned := by
  obtain ⟨earlier, count, later, rfl, hstep⟩ := fetch_mem_moments_iff.mp hmem
  obtain ⟨done, -, rfl⟩ := fetch_mem_stepMoments_iff.mp hstep
  have hearlier : ∀ action ∈ earlier, action.KeepsAligned :=
    fun action hmem => hkeep action (List.mem_append_left _ hmem)
  have haligned := (Aligned.run ⟨hstandard, heven⟩ hearlier).step done
  refine ⟨haligned.pc, fun exception resume htrapped => ?_⟩
  have hends := endsAligned_attempt haligned.checkBreakpoint
  rw [htrapped] at hends
  exact hends.1

/-- The jump `jalr x0, 1(x1)` to an odd sum, an illegal instruction there, and the trap to an odd
vector. -/
theorem fetches_aligned_oddTargets :
    let hart := facing 0x00108067
    let settings : List Action := [.writeRegister 1 0x1100, .setCsr Csr.machineVector 0x1203]
    let actions := settings ++ [.step 3]
    let fetching := ((hart.run settings).step 2).2
    hart.instructions = .standard ∧ hart.pc.toNat % 2 = 0 ∧
      (∀ action ∈ actions, action.KeepsAligned) ∧ .fetch fetching ∈ hart.moments actions ∧
      fetching.pc.toNat % 2 = 0 ∧ fetching.pc = 0x1200 := by
  intro hart settings actions fetching
  have hstandard : hart.instructions = .standard := facing_instructions _
  have heven : hart.pc.toNat % 2 = 0 := by decide +kernel
  have hkeep : ∀ action ∈ actions, action.KeepsAligned := by
    simp [actions, settings, Action.KeepsAligned]
  obtain ⟨hrun, hvector⟩ :
      ((hart.run settings).step 3).1 = ⟨3, none⟩ ∧
        ((hart.run settings).step 2).2.pc = 0x1200 := by
    decide +kernel
  have hmem : .fetch fetching ∈ hart.moments actions := by
    refine fetch_mem_moments_iff.mpr ⟨settings, 3, [], rfl, fetch_mem_stepMoments_iff.mpr ⟨2, ?_, rfl⟩⟩
    rw [hrun]
    decide
  obtain ⟨hpc, -⟩ := fetches_aligned hstandard heven hkeep hmem
  exact ⟨hstandard, heven, hkeep, hmem, hpc, hvector⟩

end Hart

end RiscvMachine
