import RiscvMachine.Catalogue.Integer
/-!
Integer multiplication and division.
-/

namespace RiscvMachine.Catalogue.Multiplication

def functionCode : Encoding := 0b0000001

def form (mnemonic : String) (function : Encoding) : Declaration :=
  (registerForm mnemonic functionCode function Opcode.register).inExtension .multiplication

/-- An instruction on the low 32 bits of its operands. -/
def lowForm (mnemonic : String) (function : Encoding) : Declaration :=
  ((registerForm mnemonic functionCode function Opcode.registerWord).inExtension
    .multiplication).onlyRv64

def declarations : List Declaration := [
  form "MUL" 0b000,
  form "MULH" 0b001,
  form "MULHSU" 0b010,
  form "MULHU" 0b011,
  form "DIV" 0b100,
  form "DIVU" 0b101,
  form "REM" 0b110,
  form "REMU" 0b111,
  lowForm "MULW" 0b000,
  lowForm "DIVW" 0b100,
  lowForm "DIVUW" 0b101,
  lowForm "REMW" 0b110,
  lowForm "REMUW" 0b111]

def handlers : List Handler := [
  .define "MUL" (.register .multiply),
  .define "MULH" (.register .multiplyHigh),
  .define "MULHSU" (.register .multiplyHighMixed),
  .define "MULHU" (.register .multiplyHighUnsigned),
  .define "DIV" (.register .divide),
  .define "DIVU" (.register .divideUnsigned),
  .define "REM" (.register .remainder),
  .define "REMU" (.register .remainderUnsigned),
  .define "MULW" (.registerLow .multiply),
  .define "DIVW" (.registerLow .divide),
  .define "DIVUW" (.registerLow .divideUnsigned),
  .define "REMW" (.registerLow .remainder),
  .define "REMUW" (.registerLow .remainderUnsigned)]

end RiscvMachine.Catalogue.Multiplication
