import RiscvMachine.Proofs.ControlViews
import RiscvMachine.Proofs.DataAccess
/-!
The footprint of an instruction: what it may change, told from its declaration. An instruction that
ends without a trap writes one register at most, a store writes the bytes of one access, and the
state of the privileged modes is left to a few instructions.
-/

namespace RiscvMachine

/-! ### Memory outside of a range -/

/-- The regions are at the same place and have the same bytes outside of a range of addresses. -/
structure Region.AgreesOutside (start : Word) (count : Nat) (before after : Region) : Prop where
  base : after.base = before.base
  size : after.size = before.size
  byteAt : ∀ offset, before.base.toNat + offset < start.toNat ∨
    start.toNat + count ≤ before.base.toNat + offset →
      after.byteAt offset = before.byteAt offset

def MemoryMap.AgreesOutside (start : Word) (count : Nat) (before after : MemoryMap) : Prop :=
  List.Forall₂ (Region.AgreesOutside start count) before.regions after.regions

theorem Region.agreesOutside_overwrite {region : Region} {start : Word} (bytes : List Byte)
    (hcontains : region.contains start = true) :
    AgreesOutside start bytes.length region
      (region.overwrite (start.toNat - region.base.toNat) bytes) := by
  refine ⟨base_overwrite _ _ _, size_overwrite _ _ _, fun offset houtside => ?_⟩
  have hstart := (contains_iff.mp hcontains).1
  rw [byteAt_overwrite]
  by_cases hbelow : start.toNat - region.base.toNat ≤ offset
  · rw [if_pos hbelow, List.getD_eq_getElem?_getD, List.getElem?_eq_none (by omega),
      Option.getD_none]
  · rw [if_neg hbelow]

theorem MemoryMap.Overwrites.agreesOutside {start : Word} {bytes : List Byte}
    {before after : MemoryMap} (hover : Overwrites start bytes before after) :
    AgreesOutside start bytes.length before after := by
  obtain @⟨earlier, later, region, hcontains, -⟩ := hover
  have hsame (regions : List Region) :
      List.Forall₂ (Region.AgreesOutside start bytes.length) regions regions :=
    List.forall₂_same.mpr fun region _ => ⟨rfl, rfl, fun _ _ => rfl⟩
  exact List.rel_append (hsame earlier)
    (.cons (Region.agreesOutside_overwrite bytes hcontains) (hsame later))

/-! ### Declared footprints -/

/-- The field of the register that an instruction may write. -/
def Declaration.destination? (declaration : Declaration) : Option OperandField :=
  match Form.ofMnemonic declaration.mnemonic with
  | .store .. | .branch .. | .machineReturn | .supervisorReturn => none
  | .plain | .load .. | .jump .. | .jumpRegister .. | .environmentCall | .environmentBreak =>
      if declaration.mnemonic = "WFI" ∨ declaration.mnemonic = "SFENCE.VMA" then none
      else declaration.arguments.head?

namespace Operation

def hasDestination : Operation → Bool
  | loadUpper | addUpperToPc | jump | jumpRegister | load .. | immediate _ | register _ |
    immediateLow _ | registerLow _ | csrSwap _ | csrSet _ | csrClear _ => true
  | branch _ | store _ | environmentCall | environmentBreak | machineReturn | supervisorReturn |
    waitForInterrupt | translationFence => false

variable {operation : Operation}

theorem hasDestination_of_isComputation (hcompute : operation.isComputation = true) :
    operation.hasDestination = true := by
  cases operation <;> first | rfl | cases hcompute

theorem hasDestination_of_isCsrAccess (haccess : operation.isCsrAccess = true) :
    operation.hasDestination = true := by
  cases operation <;> first | rfl | cases haccess

end Operation

namespace Catalogue

/-- The register that an operation writes is declared first, and the declaration tells which other
state the operation may change. -/
theorem declared_of_mem_bound : ∀ row ∈ bound,
    row.declaration.arguments.length ≤ Operands.maxArity ∧
    (row.binding.operation.hasDestination = true →
      row.declaration.destination?.isSome = true ∧
        row.declaration.destination? = row.declaration.arguments.head?) ∧
    (row.binding.operation.isCsrAccess = true → row.declaration.extension = .controlAccess) ∧
    (row.binding.operation = .machineReturn ∨ row.binding.operation = .supervisorReturn →
      row.declaration.mnemonic = "MRET" ∨ row.declaration.mnemonic = "SRET") ∧
    (row.binding.operation = .waitForInterrupt → row.declaration.mnemonic = "WFI") := by
  decide +kernel

end Catalogue

theorem RegisterFile.values_write {count : Nat} (file : RegisterFile count) (index : Nat)
    (value : Word) (place : Fin count) :
    (file.write index value).values[place] = file.values[place] ∨
      index ≠ 0 ∧ place.val = index % count := by
  unfold write
  by_cases hzero : index = 0
  · exact .inl (by rw [if_pos hzero])
  rw [if_neg hzero]
  by_cases hplace : place.val = index % count
  · exact .inr ⟨hzero, hplace⟩
  · exact .inl (Vector.getElem_set_ne (file.place index).isLt place.isLt (Ne.symm hplace))

namespace Hart

/-- What an operation may change, by its operands. -/
structure Touches (operation : Operation) (operands : Operands) (before after : Hart) : Prop where
  registers : ∀ index : Fin 32, after.registers.values[index] = before.registers.values[index] ∨
    operation.hasDestination = true ∧ index.val ≠ 0 ∧ index.val = operands.register 0
  memory : after.memory = before.memory ∨ ∃ size physical, operation = .store size ∧
    before.translation.physical? (before.xlen.address
      (before.readRegister (operands.register 0) + operands.get 2)) = some physical ∧
    before.memory.contains physical = true ∧
    before.memory.AgreesOutside physical size.bytes after.memory
  controls : after.controls = before.controls ∨ operation.isCsrAccess = true ∨
    operation = .machineReturn ∨ operation = .supervisorReturn
  privilege : after.privilege = before.privilege ∨ operation = .machineReturn ∨
    operation = .supervisorReturn
  waiting : after.waiting = before.waiting ∨ operation = .waitForInterrupt

variable {hart after : Hart} {operation : Operation} {operands : Operands} {flow : Flow}

theorem Touches.refl (operation : Operation) (operands : Operands) (hart : Hart) :
    Touches operation operands hart hart :=
  ⟨fun _ => .inl rfl, .inl rfl, .inl rfl, .inl rfl, .inl rfl⟩

theorem Touches.writeRegister (htouches : Touches operation operands hart after)
    (hdestination : operation.hasDestination = true) (hregisters : after.registers = hart.registers)
    (value : Word) :
    Touches operation operands hart (after.writeRegister (operands.register 0) value) := by
  refine { htouches with registers := fun index => ?_ }
  have hbound : operands.register 0 < 32 := Nat.mod_lt _ (by decide)
  rcases after.registers.values_write (operands.register 0) (after.xlen.normalize value) index with
    hkept | ⟨hne, hplace⟩
  · left
    rw [← hregisters]
    exact hkept
  · rw [Nat.mod_eq_of_lt hbound] at hplace
    exact .inr ⟨hdestination, hplace ▸ hne, hplace⟩

theorem Touches.retranslated (htouches : Touches operation operands hart after)
    (translation : Translation) :
    Touches operation operands hart { after with translation := translation } :=
  ⟨htouches.registers, htouches.memory, htouches.controls, htouches.privilege, htouches.waiting⟩

theorem Touches.moved (htouches : Touches operation operands hart after) (pc : Word) :
    Touches operation operands hart { after with pc := pc } :=
  ⟨htouches.registers, htouches.memory, htouches.controls, htouches.privilege, htouches.waiting⟩

theorem touches_returned (hreturn : operation = .machineReturn ∨ operation = .supervisorReturn)
    (status : Word) (mode : Privilege) (address : CsrAddress) :
    Touches operation operands hart (hart.returned status mode address) :=
  ⟨fun _ => .inl rfl, .inl rfl, .inr (.inr hreturn), .inr hreturn, .inl rfl⟩

theorem touches_setCsr (haccess : operation.isCsrAccess = true) (address : CsrAddress)
    (value : Word) : Touches operation operands hart (hart.setCsr address value) := by
  obtain ⟨controls, cycles, translation, hframe⟩ := hart.setCsr_frame address value
  rw [hframe]
  exact ⟨fun _ => .inl rfl, .inl rfl, .inr (.inl haccess), .inl rfl, .inl rfl⟩

theorem touches_of_effect (heffect : Effect hart operands operation flow after)
    (hstore : ∀ size, operation ≠ .store size) : Touches operation operands hart after := by
  have refl := Touches.refl operation operands hart
  cases heffect with
  | compute hcompute value =>
      exact refl.writeRegister (Operation.hasDestination_of_isComputation hcompute) rfl value
  | load translation value => exact (refl.retranslated translation).writeRegister rfl rfl value
  | store translation memory => exact absurd rfl (hstore _)
  | branch => exact refl.moved _
  | stay => exact refl
  | jump => exact (refl.writeRegister rfl rfl _).moved _
  | jumpRegister => exact (refl.writeRegister rfl rfl _).moved _
  | call => exact refl
  | readCsr haccess _ old =>
      exact refl.writeRegister (Operation.hasDestination_of_isCsrAccess haccess) rfl old
  | writeCsr haccess _ value old =>
      exact (touches_setCsr haccess _ value).writeRegister
        (Operation.hasDestination_of_isCsrAccess haccess) (hart.registers_setCsr _ value) old
  | machineReturn => exact touches_returned (.inl rfl) _ _ _
  | supervisorReturn => exact touches_returned (.inr rfl) _ _ _
  | wait => exact ⟨refl.registers, refl.memory, refl.controls, refl.privilege, .inr rfl⟩
  | fence => exact refl.retranslated _

theorem touches_of_store {size : AccessSize}
    (hexecute : hart.executeStore size operands = (.ok flow, after)) :
    Touches (.store size) operands hart after := by
  rw [executeStore] at hexecute
  split at hexecute
  · cases hexecute
  · rename_i hstore
    cases hexecute
    obtain ⟨physical, memory, translated, hphysical, hmemory, ⟨translation, -, rfl⟩, rfl⟩ :=
      exists_memory_of_store hstore
    have hagrees := (MemoryMap.overwrites_of_store hmemory).agreesOutside
    rw [length_bytesOf] at hagrees
    exact ⟨fun _ => .inl rfl, .inr ⟨size, physical, rfl, hphysical,
      MemoryMap.contains_of_store hmemory, hagrees⟩, .inl rfl, .inl rfl, .inl rfl⟩

theorem touches_of_execute (hexecute : operation.execute operands hart = (.ok flow, after)) :
    Touches operation operands hart after := by
  by_cases hstore : ∃ size, operation = .store size
  · obtain ⟨size, rfl⟩ := hstore
    exact touches_of_store hexecute
  · exact touches_of_effect (execute_eq_ok hexecute) fun size hsize => hstore ⟨size, hsize⟩

/-! ### Fetched instructions -/

/-- The hart that has fetched an encoding and is about to carry it out. -/
def fetched (hart : Hart) (raw : Encoding) : Hart :=
  (hart.fetch hart.pc).2.recordInstruction raw

variable {raw : Encoding}

theorem sameMapping_fetchHigh {pc physical : Word} {result : Except TrapCause Encoding}
    (hfetch : hart.fetchHigh pc physical = (result, after)) : SameMapping hart after := by
  rw [fetchHigh] at hfetch
  split at hfetch
  · split at hfetch <;> rename_i htranslate <;> cases hfetch <;>
      exact sameMapping_translate htranslate
  · cases hfetch
    exact .refl hart

theorem sameMapping_fetch (hart : Hart) (pc : Word) : SameMapping hart (hart.fetch pc).2 := by
  unfold fetch
  split <;> rename_i htranslate <;> have hlow := sameMapping_translate htranslate
  · exact hlow
  · split
    · exact hlow
    · split
      · exact hlow
      · split <;> rename_i hhigh <;> exact hlow.trans (sameMapping_fetchHigh hhigh)

theorem fetched_eq (hart : Hart) (raw : Encoding) :
    ∃ translation journal, translation.physical? = hart.translation.physical? ∧
      hart.fetched raw = { hart with translation := translation, journal := journal } := by
  obtain ⟨translation, hmapping, hfetch⟩ := hart.sameMapping_fetch hart.pc
  unfold fetched recordInstruction
  rw [hfetch]
  split
  · exact ⟨translation, _, hmapping, rfl⟩
  · split
    · exact ⟨translation, _, hmapping, rfl⟩
    · exact ⟨translation, _, hmapping, rfl⟩

theorem attempt_eq_perform (hfetch : (hart.fetch hart.pc).1 = .ok raw) :
    hart.attempt = (hart.fetched raw).perform raw := by
  have hresult : hart.fetch hart.pc = (.ok raw, (hart.fetch hart.pc).2) := Prod.ext hfetch rfl
  rw [attempt, hresult, fetched]

/-- What an instruction that ends without a trap may change, by its declaration. -/
structure Footprint (declaration : Declaration) (raw : Encoding) (before after : Hart) : Prop where
  registers : ∀ index : Fin 32, after.registers.values[index] = before.registers.values[index] ∨
    index.val ≠ 0 ∧ ∃ field, declaration.destination? = some field ∧
      index.val = field.register raw
  memory : after.memory = before.memory ∨ ∃ size base source offset physical,
    Form.ofMnemonic declaration.mnemonic = .store size base source offset ∧
    (before.translate (before.xlen.address
      (before.readRegister (base.register raw) + offset.extract raw)) .store).1 = .ok physical ∧
    before.memory.AgreesOutside physical size.bytes after.memory
  controls : after.controls = before.controls ∨ declaration.extension = .controlAccess ∨
    declaration.mnemonic = "MRET" ∨ declaration.mnemonic = "SRET"
  privilege : after.privilege = before.privilege ∨ declaration.mnemonic = "MRET" ∨
    declaration.mnemonic = "SRET"
  waiting : after.waiting = before.waiting ∨ declaration.mnemonic = "WFI"
  nop : declaration.kind = .nop → SameMapping before (before.fetch before.pc).2 ∧
    after = { before.fetched raw with pc := before.nextPc raw }

variable {row : Row}

theorem register_operandsOf {field : OperandField} (hart : Hart) (raw : Encoding)
    (harity : row.declaration.arguments.length ≤ Operands.maxArity)
    (hfirst : row.declaration.arguments.head? = some field) :
    (hart.operandsOf row raw).register 0 = field.register raw := by
  obtain ⟨rest, harguments⟩ := List.head?_eq_some_iff.mp hfirst
  have hvalues : (hart.operandsOf row raw).values = _ :=
    BoundDecoder.operandsOf_values harity raw hart.pc
  rw [harguments] at hvalues
  have hoperand : (hart.operandsOf row raw).get 0 = field.extract raw := by
    rw [Operands.get, hvalues]
    rfl
  rw [Operands.register, hoperand, OperandField.register]

theorem footprint_of_touches (hrow : row ∈ Catalogue.bound)
    (hregular : row.declaration.kind = .regular)
    (htouches : Touches row.binding.operation ((hart.fetched raw).operandsOf row raw)
      (hart.fetched raw) after) :
    Footprint row.declaration raw hart after := by
  obtain ⟨harity, hdestination, haccess, hreturn, hwait⟩ := Catalogue.declared_of_mem_bound row hrow
  obtain ⟨translation, journal, hmapping, hready⟩ := hart.fetched_eq raw
  refine ⟨fun index => ?_, ?_, ?_, ?_, ?_, ?_⟩
  · refine (htouches.registers index).imp (fun hkept => ?_) ?_
    · rw [hkept, hready]
    · rintro ⟨hwrites, hne, hplace⟩
      obtain ⟨hsome, hfirst⟩ := hdestination hwrites
      obtain ⟨field, hfield⟩ := Option.isSome_iff_exists.mp hsome
      exact ⟨hne, field, hfield,
        hplace.trans (register_operandsOf _ raw harity (hfirst.symm.trans hfield))⟩
  · refine htouches.memory.imp (fun hkept => ?_) ?_
    · rw [hkept, hready]
    · rintro ⟨size, physical, hoperation, hphysical, hcontains, hagrees⟩
      obtain ⟨base, source, offset, hform, haddress⟩ :=
        (Catalogue.fits_of_mem_bound row hrow).exists_storeAddress hoperation (hart.fetched raw) raw
      rw [haddress, hready] at hphysical
      rw [hready] at hcontains hagrees
      have hplace : hart.translation.physical? (hart.xlen.address
          (hart.readRegister (base.register raw) + offset.extract raw)) = some physical :=
        hmapping ▸ hphysical
      exact ⟨size, base, source, offset, physical, hform,
        translate_of_contains hplace hcontains .store, hagrees⟩
  · refine htouches.controls.imp (fun hkept => ?_) (Or.imp haccess hreturn)
    rw [hkept, hready]
  · refine htouches.privilege.imp (fun hkept => ?_) hreturn
    rw [hkept, hready]
  · refine htouches.waiting.imp (fun hkept => ?_) hwait
    rw [hkept, hready]
  · intro hnop
    rw [hregular] at hnop
    cases hnop

theorem footprint_of_nop (declaration : Declaration) (raw : Encoding) :
    Footprint declaration raw hart
      { hart.fetched raw with pc := (hart.fetched raw).nextPc raw } := by
  obtain ⟨translation, journal, -, hready⟩ := hart.fetched_eq raw
  have hnext : (hart.fetched raw).nextPc raw = hart.nextPc raw := by
    rw [hready]
    rfl
  rw [hnext]
  refine ⟨fun index => .inl ?_, .inl ?_, .inl ?_, .inl ?_, .inl ?_,
    fun _ => ⟨hart.sameMapping_fetch hart.pc, rfl⟩⟩ <;> rw [hready]

/-- What every instruction of the standard set leaves alone, unless it traps. -/
theorem footprint_of_retired (hart : Hart) (hstandard : hart.instructions = .standard)
    (hretired : hart.attempt.1 = .retired) :
    ∃ raw declaration, (hart.fetch hart.pc).1 = .ok raw ∧
      (hart.decision raw).declaration? = some declaration ∧
      Footprint declaration raw hart hart.executeNext := by
  obtain ⟨raw, -, hfetch, -⟩ := performed_of_retired hstandard hretired
  obtain ⟨translation, journal, -, hready⟩ := hart.fetched_eq raw
  have hsame : Undisturbed hart (hart.fetched raw) := ⟨translation, journal, hready⟩
  have hattempt := attempt_eq_perform hfetch
  rcases hperform : (hart.fetched raw).perform raw with ⟨completion, after⟩
  rw [hattempt, hperform] at hretired
  cases hretired
  have hnext : hart.executeNext = after := by rw [executeNext, hattempt, hperform]
  have hbuild : InstructionSet.build Catalogue.declarations Catalogue.handlers =
      .ok (hart.fetched raw).instructions := by
    rw [hsame.instructions_eq, hstandard, InstructionSet.build_standard]
  rw [hnext]
  cases performed_of_perform hbuild hperform with
  | @nop entry hdecision =>
      rw [hsame.decision_eq] at hdecision
      exact ⟨raw, entry.declaration, hfetch, by rw [hdecision]; rfl, footprint_of_nop _ raw⟩
  | @succeeded entry row flow after hdecision hrow hdeclaration hflow hexecute =>
      have hdecoder := InstructionSet.decoder_of_build hbuild (hart.fetched raw).xlen
      obtain ⟨-, -, -, hregular, -⟩ := Decoder.decide_eq_instruction hdecoder hdecision
      rw [hsame.decision_eq] at hdecision
      refine ⟨raw, entry.declaration, hfetch, by rw [hdecision]; rfl, ?_⟩
      rw [← hdeclaration] at hregular ⊢
      refine footprint_of_touches hrow hregular ?_
      have htouches := touches_of_execute hexecute
      unfold finish
      split
      · exact htouches.moved _
      · exact htouches

/-- The instruction `sw x6, 8(x5)`. -/
theorem footprint_of_retired_store :
    let hart := { facing 0x0062A423 with
      registers := ((RegisterFile.zero 32).write 5 0x1800).write 6 0x11223344 }
    hart.instructions = .standard ∧ hart.attempt.1 = .retired ∧
      ∃ raw declaration, (hart.fetch hart.pc).1 = .ok raw ∧
        (hart.decision raw).declaration? = some declaration ∧
        Footprint declaration raw hart hart.executeNext := by
  intro hart
  have hstandard : hart.instructions = .standard := by simp only [hart, facing_instructions]
  have hretired : hart.attempt.1 = .retired := by decide +kernel
  exact ⟨hstandard, hretired, footprint_of_retired hart hstandard hretired⟩

end Hart

end RiscvMachine
