import RiscvMachine.Instruction.Operands
import RiscvMachine.Text.Hexadecimal
import RiscvMachine.Text.Quoted
import RiscvMachine.Xlen
/-!
Instruction declarations. A declaration fixes some bits of an encoding and says where the operands
are; the same declaration decodes, encodes and names an instruction.
-/

namespace RiscvMachine

inductive Variant where
  | common
  | rv32
  | rv64
  deriving DecidableEq, Repr

def Variant.includes : Variant → Xlen → Bool
  | .common, _ => true
  | .rv32, xlen => xlen = .x32
  | .rv64, xlen => xlen = .x64

def Variant.name : Variant → String
  | .common => "Common"
  | .rv32 => "Rv32"
  | .rv64 => "Rv64"

inductive Extension where
  | integer
  | multiplication
  | compressed
  | controlAccess
  | privileged
  deriving DecidableEq, Repr

def Extension.name : Extension → String
  | .integer => "I"
  | .multiplication => "M"
  | .compressed => "C"
  | .controlAccess => "Zicsr"
  | .privileged => "Priv"

def letterBit (letter : Char) : Nat :=
  letter.toNat - 'A'.toNat

/-- The `misa` bit of an extension; control access and privileged instructions have none. -/
def Extension.misaBit? : Extension → Option Nat
  | .integer => some (letterBit 'I')
  | .multiplication => some (letterBit 'M')
  | .compressed => some (letterBit 'C')
  | .controlAccess | .privileged => none

/-- What a declaration decodes to. -/
inductive DeclarationKind where
  /-- An instruction that a handler executes. -/
  | regular
  /-- An instruction that only moves the program counter on. -/
  | nop
  | illegal
  deriving DecidableEq, Repr

def DeclarationKind.name : DeclarationKind → String
  | .regular => "Regular"
  | .nop => "Nop"
  | .illegal => "Illegal"

/-- One instruction: the bits `mask` of an encoding equal `pattern`. -/
structure Declaration where
  mnemonic : String
  mask : Encoding
  pattern : Encoding
  arguments : List OperandField
  length : EncodedLength
  variant : Variant
  extension : Extension
  kind : DeclarationKind
  deriving DecidableEq

namespace Declaration

/-- A regular base instruction for both widths; its length follows from its pattern. -/
def define (mnemonic : String) (mask pattern : Encoding) (arguments : List OperandField) : Declaration where
  mnemonic := mnemonic
  mask := mask
  pattern := pattern
  arguments := arguments
  length := EncodedLength.of pattern
  variant := .common
  extension := .integer
  kind := .regular

def onlyRv32 (declaration : Declaration) : Declaration :=
  { declaration with variant := .rv32 }

def onlyRv64 (declaration : Declaration) : Declaration :=
  { declaration with variant := .rv64 }

def inExtension (declaration : Declaration) (extension : Extension) : Declaration :=
  { declaration with extension := extension }

def asNop (declaration : Declaration) : Declaration :=
  { declaration with kind := .nop }

def asIllegal (declaration : Declaration) : Declaration :=
  { declaration with kind := .illegal }

/-- The fixed bits of `raw` are as declared. -/
def accepts (declaration : Declaration) (raw : Encoding) : Bool :=
  raw &&& declaration.mask == declaration.pattern

def specificity (declaration : Declaration) : Nat :=
  ((List.range 32).filter declaration.mask.getLsbD).length

def arity (declaration : Declaration) : Nat :=
  declaration.arguments.length

/-- The bits that both declarations fix agree. -/
def overlaps (declaration other : Declaration) : Bool :=
  let shared := declaration.mask &&& other.mask
  declaration.pattern &&& shared == other.pattern &&& shared

def apply (declaration : Declaration) (raw : Encoding) : Operands :=
  Operands.ofFields declaration.arguments raw

/-- The encoding with the given operands; values without a field are ignored. -/
def encode (declaration : Declaration) (values : List Word) : Encoding :=
  (declaration.arguments.zip values).foldl
    (fun raw (argument : OperandField × Word) => raw ||| argument.1.insert argument.2) declaration.pattern

def summary (declaration : Declaration) : String :=
  "InstructionDeclaration \x7b mnemonic: " ++ quoted declaration.mnemonic ++
    ", mask: " ++ hexPaddedUpper 8 declaration.mask.toNat ++
    ", pattern: " ++ hexPaddedUpper 8 declaration.pattern.toNat ++
    ", variant: " ++ declaration.variant.name ++
    ", kind: " ++ declaration.kind.name ++ " \x7d"

end Declaration

structure Application where
  declaration : Declaration
  raw : Encoding
  operands : Operands

namespace Application

def of (declaration : Declaration) (raw : Encoding) : Application :=
  ⟨declaration, raw, declaration.apply raw⟩

/-- The mnemonic in lower case, and the operands in decimal after a blank. -/
def text (application : Application) : String :=
  let mnemonic := application.declaration.mnemonic.map Char.toLower
  if application.operands.isEmpty then mnemonic
  else mnemonic ++ " " ++ application.operands.text

end Application

end RiscvMachine
