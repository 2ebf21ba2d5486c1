import RiscvMachine.Decoder.Build
import RiscvMachine.Decoder.Listing
import RiscvMachine.Handler
/-!
Instruction sets: a decoder for each register width, with an operation bound to every instruction
that the decoder can find.
-/

namespace RiscvMachine

inductive BindError where
  | missingHandler (mnemonic : String) (xlen : Xlen)
  | duplicateHandler (mnemonic : String)
  deriving DecidableEq

def BindError.message : BindError → String
  | missingHandler mnemonic xlen =>
      "no handler bound for " ++ xlen.name ++ " instruction " ++ mnemonic
  | duplicateHandler mnemonic => "handler for " ++ mnemonic ++ " registered more than once"

inductive InstructionSetError where
  | build (error : BuildError)
  | bind (error : BindError)
  deriving DecidableEq

def InstructionSetError.message : InstructionSetError → String
  | build error => error.message
  | bind error => error.message

inductive Dispatch where
  | illegal
  | nop
  | execute (binding : Binding) (operands : Operands)
  deriving DecidableEq

/-- A decoder with the bindings of its declarations, by position. -/
structure BoundDecoder where
  decoder : Decoder
  bindings : Array (Option Binding)

namespace BoundDecoder

/-- The binding of one declaration; only regular ones need a handler. -/
def bindingOf (xlen : Xlen) (handlers : List Handler) (declaration : Declaration) :
    Except BindError (Option Binding) :=
  match declaration.kind with
  | .nop | .illegal => .ok none
  | .regular =>
      match handlers.find? fun handler => handler.mnemonic == declaration.mnemonic with
      | none => .error (.missingHandler declaration.mnemonic xlen)
      | some handler =>
          .ok (some ⟨handler.operation, handler.takesLength, handler.takesPc,
            PcUpdate.ofMnemonic declaration.mnemonic⟩)

def bind (handlers : List Handler) (decoder : Decoder) : Except BindError BoundDecoder := do
  let bindings ← decoder.declarations.mapM (bindingOf decoder.xlen handlers)
  return ⟨decoder, bindings.toArray⟩

/-- The declared operands of `raw`, then its length and `pc` where the binding takes them. -/
def operandsOf (binding : Binding) (declaration : Declaration) (raw : Encoding) (pc : Word) :
    Operands :=
  let operands := declaration.apply raw
  let operands :=
    if binding.takesLength then operands.push (BitVec.ofNat 64 (EncodedLength.of raw).bytes)
    else operands
  if binding.takesPc then operands.push pc else operands

def dispatch (bound : BoundDecoder) (raw : Encoding) (pc : Word) : Dispatch :=
  match bound.decoder.decide raw with
  | .illegal => .illegal
  | .nop _ => .nop
  | .instruction entry =>
      match bound.bindings[entry.id]? with
      | some (some binding) => .execute binding (operandsOf binding entry.declaration raw pc)
      | some none | none => .illegal

end BoundDecoder

structure InstructionSet where
  rv32 : BoundDecoder
  rv64 : BoundDecoder
  extensions : List Extension

namespace InstructionSet

/-- The first mnemonic that occurs again before the end of the list, `seen` included. -/
def repeatedMnemonic? (seen : List String) : List Handler → Option String
  | [] => none
  | handler :: rest =>
      if seen.contains handler.mnemonic then some handler.mnemonic
      else repeatedMnemonic? (handler.mnemonic :: seen) rest

/-- The extensions of the declarations, in the order in which they first appear. -/
def extensionsOf (declarations : List Declaration) : List Extension :=
  declarations.foldl
    (fun extensions declaration =>
      if extensions.contains declaration.extension then extensions
      else extensions ++ [declaration.extension])
    []

def bindWidth (xlen : Xlen) (declarations : List Declaration) (handlers : List Handler) :
    Except InstructionSetError BoundDecoder := do
  let decoder ← (Decoder.build xlen declarations).mapError .build
  (BoundDecoder.bind handlers decoder).mapError .bind

/-- The instruction set of some declarations; handlers without a declaration are ignored. -/
def build (declarations : List Declaration) (handlers : List Handler) :
    Except InstructionSetError InstructionSet := do
  if let some mnemonic := repeatedMnemonic? [] handlers then
    throw (.bind (.duplicateHandler mnemonic))
  let rv32 ← bindWidth .x32 declarations handlers
  let rv64 ← bindWidth .x64 declarations handlers
  return ⟨rv32, rv64, extensionsOf declarations⟩

def empty : InstructionSet :=
  ⟨⟨⟨.x32, [], .illegal⟩, #[]⟩, ⟨⟨.x64, [], .illegal⟩, #[]⟩, []⟩

def bound (set : InstructionSet) : Xlen → BoundDecoder
  | .x32 => set.rv32
  | .x64 => set.rv64

def decoder (set : InstructionSet) (xlen : Xlen) : Decoder :=
  (set.bound xlen).decoder

/-- The letters of the extensions as bits of the `misa` register. -/
def misaLetters (set : InstructionSet) : Word :=
  (set.extensions.filterMap Extension.misaBit?).foldl (fun word bit => word ||| (1 <<< bit)) 0

/-- The instruction that `raw` encodes, if it is legal. -/
def disassemble (set : InstructionSet) (xlen : Xlen) (raw : Encoding) : Option Application :=
  ((set.decoder xlen).decide raw).declaration?.map fun declaration => Application.of declaration raw

def dispatch (set : InstructionSet) (xlen : Xlen) (raw : Encoding) (pc : Word) : Dispatch :=
  (set.bound xlen).dispatch raw pc

def summary (set : InstructionSet) : String :=
  "InstructionSet \x7b rv32: " ++ set.rv32.decoder.summary ++ ", rv64: " ++
    set.rv64.decoder.summary ++ ", extensions: [" ++
    ", ".intercalate (set.extensions.map Extension.name) ++ "] \x7d"

end InstructionSet

end RiscvMachine
