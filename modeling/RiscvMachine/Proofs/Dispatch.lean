import RiscvMachine.Catalogue
import RiscvMachine.Proofs.Decoding
/-!
What an instruction set calls for is found in its declarations and handlers: a regular declaration
that the decoder finds is always bound, to the handler of its own mnemonic.
-/

namespace RiscvMachine

def Handler.binding (handler : Handler) (declaration : Declaration) : Binding :=
  ⟨handler.operation, handler.takesLength, handler.takesPc, PcUpdate.ofMnemonic declaration.mnemonic⟩

/-- A regular declaration with the binding that the handlers give it. -/
structure Row where
  declaration : Declaration
  binding : Binding

/-- The binding of a regular declaration, if a handler has its mnemonic. -/
def Row.of? (handlers : List Handler) (declaration : Declaration) : Option Row :=
  match declaration.kind with
  | .nop | .illegal => none
  | .regular =>
      (handlers.find? fun handler => handler.mnemonic == declaration.mnemonic).map fun handler =>
        ⟨declaration, handler.binding declaration⟩

theorem Row.declaration_of? {handlers : List Handler} {declaration : Declaration} {row : Row}
    (hrow : Row.of? handlers declaration = some row) : row.declaration = declaration := by
  rw [Row.of?] at hrow
  split at hrow
  · cases hrow
  · cases hrow
  · obtain ⟨handler, -, rfl⟩ := Option.map_eq_some_iff.mp hrow
    rfl

def boundRows (declarations : List Declaration) (handlers : List Handler) : List Row :=
  declarations.filterMap (Row.of? handlers)

/-- A bound row is the one row of its declaration. -/
theorem of?_of_mem_boundRows {declarations : List Declaration} {handlers : List Handler} {row : Row}
    (hrow : row ∈ boundRows declarations handlers) :
    Row.of? handlers row.declaration = some row := by
  obtain ⟨declaration, -, hof⟩ := List.mem_filterMap.mp hrow
  rwa [Row.declaration_of? hof]

theorem Operands.values_push {operands : Operands} (value : Word)
    (hroom : operands.values.length < capacity) :
    (operands.push value).values = operands.values ++ [value] := by
  rw [push, dif_pos hroom]

namespace BoundDecoder

/-- Nothing is cut off: a list has room for all declared operands, the length and the address. -/
theorem operandsOf_values {binding : Binding} {declaration : Declaration}
    (harity : declaration.arguments.length ≤ Operands.maxArity) (raw : Encoding) (pc : Word) :
    (operandsOf binding declaration raw pc).values =
      declaration.arguments.map (fun field => field.extract raw) ++
        (if binding.takesLength then [BitVec.ofNat 64 (EncodedLength.of raw).bytes] else []) ++
        (if binding.takesPc then [pc] else []) := by
  have hfields := Declaration.values_apply harity raw
  have hlength : (declaration.apply raw).values.length ≤ Operands.maxArity := by
    rwa [hfields, List.length_map]
  rw [← hfields]
  simp only [Operands.maxArity] at hlength
  have hroom : (declaration.apply raw).values.length < Operands.capacity := by
    simp only [Operands.capacity, Operands.maxArity]
    omega
  unfold operandsOf
  cases binding.takesLength with
  | false =>
      cases binding.takesPc with
      | false => simp
      | true => simp [Operands.values_push pc hroom]
  | true =>
      have hpushed := Operands.values_push (BitVec.ofNat 64 (EncodedLength.of raw).bytes) hroom
      cases binding.takesPc with
      | false => simp [hpushed]
      | true =>
          have hlast : ((declaration.apply raw).push
              (BitVec.ofNat 64 (EncodedLength.of raw).bytes)).values.length < Operands.capacity := by
            simp only [hpushed, List.length_append, List.length_singleton, Operands.capacity,
              Operands.maxArity]
            omega
          simp [Operands.values_push pc hlast, hpushed]

variable {handlers : List Handler}

theorem bindingOf_eq_ok {xlen : Xlen} {declaration : Declaration} {binding? : Option Binding}
    (hbind : bindingOf xlen handlers declaration = .ok binding?) :
    (Row.of? handlers declaration).map Row.binding = binding? ∧
      (declaration.kind = .regular → binding?.isSome) := by
  rw [bindingOf] at hbind
  rw [Row.of?]
  split at hbind
  · rename_i hkind
    cases hbind
    simp [hkind]
  · rename_i hkind
    cases hbind
    simp [hkind]
  · rename_i hkind
    split at hbind
    · cases hbind
    · rename_i handler hfind
      cases hbind
      simp [hkind, hfind, Handler.binding]

theorem bind_eq_ok {decoder : Decoder} {bound : BoundDecoder}
    (hbind : bind handlers decoder = .ok bound) :
    bound.decoder = decoder ∧
      decoder.declarations.mapM (bindingOf decoder.xlen handlers) = .ok bound.bindings.toList := by
  obtain ⟨bindings, hbindings, hbind⟩ := exists_ok_of_bind hbind
  cases hbind
  exact ⟨rfl, by simpa using hbindings⟩

theorem dispatch_of_decide {xlen : Xlen} {declarations : List Declaration} {decoder : Decoder}
    {bound : BoundDecoder} (hbuild : Decoder.build xlen declarations = .ok decoder)
    (hbind : bind handlers decoder = .ok bound) (raw : Encoding) (pc : Word) :
    match bound.decoder.decide raw with
    | .illegal => bound.dispatch raw pc = .illegal
    | .nop _ => bound.dispatch raw pc = .nop
    | .instruction entry => ∃ row ∈ boundRows declarations handlers,
        row.declaration = entry.declaration ∧ bound.dispatch raw pc =
          .execute row.binding (operandsOf row.binding entry.declaration raw pc) := by
  obtain ⟨hdecoder, hbindings⟩ := bind_eq_ok hbind
  cases hdecide : bound.decoder.decide raw with
  | illegal => simp [dispatch, hdecide]
  | nop entry => simp [dispatch, hdecide]
  | instruction entry =>
      rw [hdecoder] at hdecide
      obtain ⟨hget, hmem, -, hkind, -⟩ := Decoder.decide_eq_instruction hbuild hdecide
      obtain ⟨binding?, hbindingOf, hbinding⟩ := getElem?_of_mapM hbindings hget
      obtain ⟨hmap, hsome⟩ := bindingOf_eq_ok hbindingOf
      obtain ⟨binding, rfl⟩ := Option.isSome_iff_exists.mp (hsome hkind)
      obtain ⟨row, hrow, rfl⟩ := Option.map_eq_some_iff.mp hmap
      refine ⟨row, List.mem_filterMap.mpr ⟨entry.declaration, hmem, hrow⟩, ?_, ?_⟩
      · exact Row.declaration_of? hrow
      · rw [Array.getElem?_toList] at hbinding
        simp [dispatch, hdecoder, hdecide, hbinding]

end BoundDecoder

namespace InstructionSet

variable {declarations : List Declaration} {handlers : List Handler} {set : InstructionSet}

theorem bindWidth_eq_ok {xlen : Xlen} {bound : BoundDecoder}
    (hbind : bindWidth xlen declarations handlers = .ok bound) :
    ∃ decoder, Decoder.build xlen declarations = .ok decoder ∧
      BoundDecoder.bind handlers decoder = .ok bound := by
  obtain ⟨decoder, hbuild, hbind⟩ := exists_ok_of_bind hbind
  exact ⟨decoder, ok_of_mapError hbuild, ok_of_mapError hbind⟩

theorem build_eq_ok (hbuild : build declarations handlers = .ok set) (xlen : Xlen) :
    ∃ decoder, Decoder.build xlen declarations = .ok decoder ∧
      BoundDecoder.bind handlers decoder = .ok (set.bound xlen) := by
  rw [build] at hbuild
  split at hbuild
  · cases hbuild
  · obtain ⟨rv32, h32, hbuild⟩ := exists_ok_of_bind hbuild
    obtain ⟨rv64, h64, hbuild⟩ := exists_ok_of_bind hbuild
    cases hbuild
    cases xlen with
    | x32 => exact bindWidth_eq_ok h32
    | x64 => exact bindWidth_eq_ok h64

theorem decoder_of_build (hbuild : build declarations handlers = .ok set) (xlen : Xlen) :
    Decoder.build xlen declarations = .ok (set.decoder xlen) := by
  obtain ⟨decoder, hdecoder, hbind⟩ := build_eq_ok hbuild xlen
  have hset : set.decoder xlen = decoder := (BoundDecoder.bind_eq_ok hbind).1
  rw [hset, hdecoder]

/-- What an encoding calls for: what the decoder finds, bound to the handler of its mnemonic. -/
theorem dispatch_of_decide (hbuild : build declarations handlers = .ok set) (xlen : Xlen)
    (raw : Encoding) (pc : Word) :
    match (set.decoder xlen).decide raw with
    | .illegal => set.dispatch xlen raw pc = .illegal
    | .nop _ => set.dispatch xlen raw pc = .nop
    | .instruction entry => ∃ row ∈ boundRows declarations handlers,
        row.declaration = entry.declaration ∧ set.dispatch xlen raw pc =
          .execute row.binding (BoundDecoder.operandsOf row.binding entry.declaration raw pc) := by
  obtain ⟨decoder, hdecoder, hbind⟩ := build_eq_ok hbuild xlen
  exact BoundDecoder.dispatch_of_decide hdecoder hbind raw pc

end InstructionSet

end RiscvMachine
