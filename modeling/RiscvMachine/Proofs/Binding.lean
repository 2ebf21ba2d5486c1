import RiscvMachine.Proofs.RoundTrip
/-!
When an instruction set can be built, and what it then calls for. A set fails to bind only where a
handler is missing or given twice; a set that is there carries out every instruction that its
decoders find, by the one handler of its mnemonic and on all of its operands.
-/

namespace RiscvMachine

variable {declarations : List Declaration} {handlers : List Handler} {xlen : Xlen}

/-- A handler has the declaration's mnemonic. -/
def Declaration.Handled (declaration : Declaration) (handlers : List Handler) : Prop :=
  ∃ handler ∈ handlers, handler.mnemonic = declaration.mnemonic

instance (declaration : Declaration) : Decidable (declaration.Handled handlers) :=
  inferInstanceAs (Decidable (∃ handler ∈ handlers, _))

theorem Handler.of_find? {mnemonic : String} {handler : Handler}
    (hfind : handlers.find? (fun handler => handler.mnemonic == mnemonic) = some handler) :
    handler ∈ handlers ∧ handler.mnemonic = mnemonic :=
  ⟨List.mem_of_find?_eq_some hfind, by simpa using List.find?_some hfind⟩

/-- A bound row carries the handler of its mnemonic. -/
theorem Row.exists_handler {declaration : Declaration} {row : Row}
    (hrow : Row.of? handlers declaration = some row) :
    ∃ handler ∈ handlers, handler.mnemonic = declaration.mnemonic ∧
      row.binding = handler.binding declaration := by
  rw [Row.of?] at hrow
  split at hrow
  · cases hrow
  · cases hrow
  · obtain ⟨handler, hfind, rfl⟩ := Option.map_eq_some_iff.mp hrow
    obtain ⟨hmem, hmnemonic⟩ := Handler.of_find? hfind
    exact ⟨handler, hmem, hmnemonic, rfl⟩

namespace BoundDecoder

theorem exists_bindingOf_eq_ok_iff {declaration : Declaration} :
    (∃ binding?, bindingOf xlen handlers declaration = .ok binding?) ↔
      (declaration.kind = .regular → declaration.Handled handlers) := by
  rw [bindingOf, Declaration.Handled]
  cases declaration.kind with
  | nop => simp
  | illegal => simp
  | regular =>
      cases hfind : handlers.find? fun handler => handler.mnemonic == declaration.mnemonic with
      | none => simpa using hfind
      | some handler =>
          simp only [Except.ok.injEq, exists_eq', true_iff, forall_const]
          exact ⟨handler, Handler.of_find? hfind⟩

theorem exists_bind_eq_ok_iff {decoder : Decoder} :
    (∃ bound, bind handlers decoder = .ok bound) ↔
      ∀ declaration ∈ decoder.declarations, declaration.kind = .regular →
        declaration.Handled handlers := by
  simp only [← @exists_bindingOf_eq_ok_iff handlers decoder.xlen, ← exists_mapM_eq_ok_iff]
  constructor
  · rintro ⟨bound, hbind⟩
    exact ⟨_, (bind_eq_ok hbind).2⟩
  · rintro ⟨bindings, hbindings⟩
    exact ⟨⟨decoder, bindings.toArray⟩, by rw [bind, hbindings]; rfl⟩

end BoundDecoder

namespace InstructionSet

/-! ### What can be built -/

theorem repeatedMnemonic?_eq_none_iff {seen : List String} :
    repeatedMnemonic? seen handlers = none ↔
      (handlers.map Handler.mnemonic).Nodup ∧ ∀ handler ∈ handlers, handler.mnemonic ∉ seen := by
  induction handlers generalizing seen with
  | nil => simp [repeatedMnemonic?]
  | cons first rest ih =>
      by_cases hseen : first.mnemonic ∈ seen
      · simp [repeatedMnemonic?, hseen]
      · simp only [repeatedMnemonic?, List.contains_eq_mem, hseen, decide_false,
          Bool.false_eq_true, if_false, ih, List.mem_cons, not_or, List.map_cons, List.nodup_cons,
          List.mem_map, forall_eq_or_imp]
        grind

theorem exists_bindWidth_eq_ok_iff :
    (∃ bound, bindWidth xlen declarations handlers = .ok bound) ↔
      (∃ decoder, Decoder.build xlen declarations = .ok decoder) ∧
      ∀ declaration ∈ declarations, declaration.kind = .regular →
        declaration.variant.includes xlen = true → declaration.Handled handlers := by
  have hincluded : ∀ {decoder}, Decoder.build xlen declarations = .ok decoder →
      ((∃ bound, BoundDecoder.bind handlers decoder = .ok bound) ↔
        ∀ declaration ∈ declarations, declaration.kind = .regular →
          declaration.variant.includes xlen = true → declaration.Handled handlers) := by
    intro decoder hbuild
    rw [BoundDecoder.exists_bind_eq_ok_iff, (Decoder.build_eq_ok hbuild).2.1]
    simp only [List.mem_filter, and_imp]
    grind
  constructor
  · rintro ⟨bound, hbound⟩
    obtain ⟨decoder, hbuild, hbind⟩ := bindWidth_eq_ok hbound
    exact ⟨⟨decoder, hbuild⟩, (hincluded hbuild).mp ⟨bound, hbind⟩⟩
  · rintro ⟨⟨decoder, hbuild⟩, hhandled⟩
    obtain ⟨bound, hbind⟩ := (hincluded hbuild).mpr hhandled
    exact ⟨bound, by rw [bindWidth, hbuild]; exact mapError_eq_ok_iff.mpr hbind⟩

theorem exists_build_eq_ok_iff :
    (∃ set, build declarations handlers = .ok set) ↔
      (handlers.map Handler.mnemonic).Nodup ∧
      ∀ xlen, ∃ bound, bindWidth xlen declarations handlers = .ok bound := by
  have hdistinct :
      repeatedMnemonic? [] handlers = none ↔ (handlers.map Handler.mnemonic).Nodup := by
    simp [repeatedMnemonic?_eq_none_iff]
  rw [← hdistinct]
  constructor
  · rintro ⟨set, hbuild⟩
    rw [build] at hbuild
    split at hbuild
    · cases hbuild
    · rename_i hnone
      obtain ⟨rv32, h32, hbuild⟩ := exists_ok_of_bind hbuild
      obtain ⟨rv64, h64, -⟩ := exists_ok_of_bind hbuild
      refine ⟨Option.eq_none_iff_forall_ne_some.mpr hnone, fun xlen => ?_⟩
      cases xlen with
      | x32 => exact ⟨rv32, h32⟩
      | x64 => exact ⟨rv64, h64⟩
  · rintro ⟨hnone, hbound⟩
    obtain ⟨rv32, h32⟩ := hbound .x32
    obtain ⟨rv64, h64⟩ := hbound .x64
    exact ⟨⟨rv32, rv64, extensionsOf declarations⟩, by rw [build, hnone, h32, h64]; rfl⟩

/-! ### What is called for -/

variable {set : InstructionSet}

theorem nodup_of_build (hbuild : build declarations handlers = .ok set) :
    (handlers.map Handler.mnemonic).Nodup :=
  (exists_build_eq_ok_iff.mp ⟨set, hbuild⟩).1

theorem dispatch_eq_illegal_iff (hbuild : build declarations handlers = .ok set) {raw : Encoding}
    {pc : Word} :
    set.dispatch xlen raw pc = .illegal ↔ (set.decoder xlen).decide raw = .illegal := by
  have hdispatch := dispatch_of_decide hbuild xlen raw pc
  cases hdecide : (set.decoder xlen).decide raw with
  | illegal => simpa [hdecide] using hdispatch
  | nop entry =>
      rw [hdecide] at hdispatch
      simp [hdispatch]
  | instruction entry =>
      rw [hdecide] at hdispatch
      obtain ⟨row, -, -, hexecute⟩ := hdispatch
      simp [hexecute]

theorem dispatch_eq_nop_iff (hbuild : build declarations handlers = .ok set) {raw : Encoding}
    {pc : Word} :
    set.dispatch xlen raw pc = .nop ↔ ∃ entry, (set.decoder xlen).decide raw = .nop entry := by
  have hdispatch := dispatch_of_decide hbuild xlen raw pc
  cases hdecide : (set.decoder xlen).decide raw with
  | illegal =>
      rw [hdecide] at hdispatch
      simp [hdispatch]
  | nop entry => simpa [hdecide] using hdispatch
  | instruction entry =>
      rw [hdecide] at hdispatch
      obtain ⟨row, -, -, hexecute⟩ := hdispatch
      simp [hexecute]

/-- The handler and all operands of an instruction that is found. -/
theorem exists_execute_of_decide (hbuild : build declarations handlers = .ok set) {raw : Encoding}
    {entry : Entry} (hdecide : (set.decoder xlen).decide raw = .instruction entry) (pc : Word) :
    ∃ handler ∈ handlers, handler.mnemonic = entry.declaration.mnemonic ∧
      ∃ operands, set.dispatch xlen raw pc = .execute (handler.binding entry.declaration) operands ∧
        operands.values = (entry.declaration.apply raw).values ++
          (if handler.takesLength then [BitVec.ofNat 64 (EncodedLength.of raw).bytes] else []) ++
          (if handler.takesPc then [pc] else []) := by
  have hdispatch := dispatch_of_decide hbuild xlen raw pc
  rw [hdecide] at hdispatch
  obtain ⟨row, hrow, hdeclaration, hexecute⟩ := hdispatch
  have hof := of?_of_mem_boundRows hrow
  rw [hdeclaration] at hof
  obtain ⟨handler, hmem, hmnemonic, hbinding⟩ := Row.exists_handler hof
  have hdecoder := decoder_of_build hbuild xlen
  obtain ⟨-, hdeclared, hwidth, -, -⟩ := Decoder.decide_eq_instruction hdecoder hdecide
  have harity := Declaration.arity_le_of_defect?_eq_none
    (Decoder.defect?_eq_none_of_build hdecoder hdeclared hwidth)
  rw [hbinding] at hexecute
  refine ⟨handler, hmem, hmnemonic, _, hexecute, ?_⟩
  rw [BoundDecoder.operandsOf_values harity, Declaration.values_apply harity]
  rfl

/-- A set can be built exactly when its handlers are distinct and complete and both decoders can;
and whatever a decoder finds is then carried out by the one handler of its mnemonic, on all of its
operands, its length and the program counter where the handler takes them. -/
theorem build_total_dispatch_exact (declarations : List Declaration) (handlers : List Handler) :
    ((∃ set, build declarations handlers = .ok set) ↔
      (handlers.map Handler.mnemonic).Nodup ∧
      (∀ xlen, ∃ decoder, Decoder.build xlen declarations = .ok decoder) ∧
      ∀ declaration ∈ declarations, declaration.kind = .regular →
        (∃ xlen, declaration.variant.includes xlen = true) → declaration.Handled handlers) ∧
    ∀ set, build declarations handlers = .ok set → ∀ xlen raw pc,
      Decoder.build xlen declarations = .ok (set.decoder xlen) ∧
      (set.dispatch xlen raw pc = .illegal ↔ (set.decoder xlen).decide raw = .illegal) ∧
      (set.dispatch xlen raw pc = .nop ↔ ∃ entry, (set.decoder xlen).decide raw = .nop entry) ∧
      ∀ entry, (set.decoder xlen).decide raw = .instruction entry →
        ∃ handler ∈ handlers, handler.mnemonic = entry.declaration.mnemonic ∧
          (∀ other ∈ handlers, other.mnemonic = entry.declaration.mnemonic → other = handler) ∧
          EncodedLength.of raw = entry.declaration.length ∧
          (entry.declaration.apply raw).values =
            entry.declaration.arguments.map (fun field => field.extract raw) ∧
          ∃ operands, operands.values = (entry.declaration.apply raw).values ++
              (if handler.takesLength then [BitVec.ofNat 64 (EncodedLength.of raw).bytes] else []) ++
              (if handler.takesPc then [pc] else []) ∧
            set.dispatch xlen raw pc = .execute ⟨handler.operation, handler.takesLength,
              handler.takesPc, PcUpdate.ofMnemonic entry.declaration.mnemonic⟩ operands := by
  constructor
  · rw [exists_build_eq_ok_iff]
    simp only [exists_bindWidth_eq_ok_iff, forall_and]
    refine and_congr_right fun _ => and_congr_right fun _ => ?_
    exact ⟨fun hhandled declaration hmem hkind ⟨xlen, hwidth⟩ =>
        hhandled xlen declaration hmem hkind hwidth,
      fun hhandled xlen declaration hmem hkind hwidth =>
        hhandled declaration hmem hkind ⟨xlen, hwidth⟩⟩
  · intro set hbuild xlen raw pc
    have hdecoder := decoder_of_build hbuild xlen
    refine ⟨hdecoder, dispatch_eq_illegal_iff hbuild, dispatch_eq_nop_iff hbuild, ?_⟩
    intro entry hdecide
    obtain ⟨handler, hmem, hmnemonic, operands, hexecute, hvalues⟩ :=
      exists_execute_of_decide hbuild hdecide pc
    obtain ⟨-, hdeclared, hwidth, -, haccepts⟩ := Decoder.decide_eq_instruction hdecoder hdecide
    have hsound := Decoder.defect?_eq_none_of_build hdecoder hdeclared hwidth
    refine ⟨handler, hmem, hmnemonic, ?_, Declaration.length_eq_of_accepts hsound haccepts,
      Declaration.values_apply (Declaration.arity_le_of_defect?_eq_none hsound) raw,
      operands, hvalues, hexecute⟩
    intro other hother hotherMnemonic
    exact List.inj_on_of_nodup_map (nodup_of_build hbuild) hother hmem
      (hotherMnemonic.trans hmnemonic.symm)

/-- A jump of the standard set takes its length and address; without handlers there is no set. -/
theorem dispatch_standard_jump :
    (∃ operands, operands.values = [1, 8, 4, 0x1000] ∧
      standard.dispatch .x64 0x008000EF 0x1000 = .execute ⟨.jump, true, true, .jump⟩ operands) ∧
    ¬ ∃ set, build Catalogue.declarations [] = .ok set := by
  let jump : Declaration := .define "JAL" Layout.upperMask Opcode.jump [.rd, .immediateJ]
  have hmem : jump ∈ Catalogue.declarations := by decide +kernel
  constructor
  · let handler := (Handler.define "JAL" .jump).withLength.withPc
    have hhandler : handler ∈ Catalogue.handlers := by decide +kernel
    have honly : ∀ other ∈ Catalogue.declarations, other.variant.includes .x64 = true →
        other.accepts 0x008000EF = true → other = jump := by
      decide +kernel
    obtain ⟨id, hdecide⟩ := Decoder.decide_eq_instruction_of_unique
      (decoder_of_build build_standard .x64) hmem rfl rfl (by decide +kernel) honly
    obtain ⟨-, hset⟩ := build_total_dispatch_exact Catalogue.declarations Catalogue.handlers
    obtain ⟨-, -, -, hinstruction⟩ := hset standard build_standard .x64 0x008000EF 0x1000
    obtain ⟨found, -, -, hunique, -, -, operands, hvalues, hexecute⟩ := hinstruction _ hdecide
    rw [← hunique handler hhandler rfl] at hvalues hexecute
    have hupdate : PcUpdate.ofMnemonic jump.mnemonic = .jump := by decide +kernel
    have hextracted : (jump.apply 0x008000EF).values ++
        [BitVec.ofNat 64 (EncodedLength.of 0x008000EF).bytes] ++ [0x1000] = [1, 8, 4, 0x1000] := by
      decide +kernel
    rw [hupdate] at hexecute
    exact ⟨operands, hvalues.trans hextracted, hexecute⟩
  · rw [(build_total_dispatch_exact Catalogue.declarations []).1]
    rintro ⟨-, -, hhandled⟩
    obtain ⟨handler, hnone, -⟩ := hhandled jump hmem rfl ⟨.x64, rfl⟩
    cases hnone

end InstructionSet

end RiscvMachine
