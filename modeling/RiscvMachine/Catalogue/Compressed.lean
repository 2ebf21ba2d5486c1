import RiscvMachine.Catalogue.Integer
/-!
The 16-bit instructions. Each takes its operands in the order of the instruction that it stands
for, with implied registers as constants; reserved encodings are declared illegal with more fixed
bits than the instructions around them.
-/

namespace RiscvMachine.Catalogue.Compressed

open Layout OperandField

def quadrant0 : Encoding := 0b00
def quadrant1 : Encoding := 0b01
def quadrant2 : Encoding := 0b10

def destinationMask : Encoding := 0x0F80
def immediate6Mask : Encoding := 0x107C
def sourceMask : Encoding := 0x007C
def bit12 : Encoding := 0x1000
def functionMask : Encoding := 0x0C00
def lowFunctionMask : Encoding := 0x0060

/-- A declaration that fixes the bits of `extra` besides quadrant and function code. -/
def form (mnemonic : String) (extra function quadrant fixed : Encoding) (arguments : List OperandField) :
    Declaration :=
  (Declaration.define mnemonic (compressedMask ||| extra)
    (compressedPattern function quadrant ||| fixed) arguments).inExtension .compressed

def arithmeticForm (mnemonic : String) (fixed : Encoding) : Declaration :=
  form mnemonic (bit12 ||| functionMask ||| lowFunctionMask) 0b100 quadrant1 fixed
    [shortHigh, shortHigh, shortLow]

def declarations : List Declaration := [
  ((Declaration.define "C.ILLEGAL" 0xFFE3 (compressedPattern 0b000 quadrant0) []).inExtension
    .compressed).asIllegal,
  form "C.ADDI4SPN" 0 0b000 quadrant0 0 [shortLow, x2, compressedOffsetStack],
  form "C.LW" 0 0b010 quadrant0 0 [shortLow, shortHigh, compressedOffsetWord],
  (form "C.LD" 0 0b011 quadrant0 0 [shortLow, shortHigh, compressedOffsetDouble]).onlyRv64,
  form "C.SW" 0 0b110 quadrant0 0 [shortHigh, shortLow, compressedOffsetWord],
  (form "C.SD" 0 0b111 quadrant0 0 [shortHigh, shortLow, compressedOffsetDouble]).onlyRv64,
  -- With destination x0 an addition is a hint.
  (form "C.NOP" destinationMask 0b000 quadrant1 0 []).asNop,
  form "C.ADDI" 0 0b000 quadrant1 0 [rd, rd, compressedImmediate6],
  (form "C.JAL" 0 0b001 quadrant1 0 [x1, compressedJumpOffset]).onlyRv32,
  (form "C.ILLEGAL.ADDIW" destinationMask 0b001 quadrant1 0 []).asIllegal.onlyRv64,
  (form "C.ADDIW" 0 0b001 quadrant1 0 [rd, rd, compressedImmediate6]).onlyRv64,
  form "C.LI" 0 0b010 quadrant1 0 [rd, x0, compressedImmediate6],
  (form "C.ILLEGAL.ADDI16SP" (destinationMask ||| immediate6Mask) 0b011 quadrant1 0x0100 []).asIllegal,
  form "C.ADDI16SP" destinationMask 0b011 quadrant1 0x0100 [x2, x2, compressedImmediateStack],
  (form "C.ILLEGAL.LUI" immediate6Mask 0b011 quadrant1 0 []).asIllegal,
  form "C.LUI" 0 0b011 quadrant1 0 [rd, compressedImmediateUpper],
  (form "C.SRLI" (bit12 ||| functionMask) 0b100 quadrant1 0
    [shortHigh, shortHigh, compressedShiftAmount5]).onlyRv32,
  (form "C.SRAI" (bit12 ||| functionMask) 0b100 quadrant1 0x0400
    [shortHigh, shortHigh, compressedShiftAmount5]).onlyRv32,
  (form "C.SRLI" functionMask 0b100 quadrant1 0
    [shortHigh, shortHigh, compressedShiftAmount6]).onlyRv64,
  (form "C.SRAI" functionMask 0b100 quadrant1 0x0400
    [shortHigh, shortHigh, compressedShiftAmount6]).onlyRv64,
  form "C.ANDI" functionMask 0b100 quadrant1 0x0800 [shortHigh, shortHigh, compressedImmediate6],
  arithmeticForm "C.SUB" 0x0C00,
  arithmeticForm "C.XOR" 0x0C20,
  arithmeticForm "C.OR" 0x0C40,
  arithmeticForm "C.AND" 0x0C60,
  (arithmeticForm "C.SUBW" 0x1C00).onlyRv64,
  (arithmeticForm "C.ADDW" 0x1C20).onlyRv64,
  form "C.J" 0 0b101 quadrant1 0 [x0, compressedJumpOffset],
  form "C.BEQZ" 0 0b110 quadrant1 0 [shortHigh, x0, compressedBranchOffset],
  form "C.BNEZ" 0 0b111 quadrant1 0 [shortHigh, x0, compressedBranchOffset],
  (form "C.SLLI" bit12 0b000 quadrant2 0 [rd, rd, compressedShiftAmount5]).onlyRv32,
  (form "C.SLLI" 0 0b000 quadrant2 0 [rd, rd, compressedShiftAmount6]).onlyRv64,
  (form "C.ILLEGAL.LWSP" destinationMask 0b010 quadrant2 0 []).asIllegal,
  form "C.LWSP" 0 0b010 quadrant2 0 [rd, x2, stackLoadWord],
  (form "C.ILLEGAL.LDSP" destinationMask 0b011 quadrant2 0 []).asIllegal.onlyRv64,
  (form "C.LDSP" 0 0b011 quadrant2 0 [rd, x2, stackLoadDouble]).onlyRv64,
  (form "C.ILLEGAL.JR" (bit12 ||| destinationMask ||| sourceMask) 0b100 quadrant2 0 []).asIllegal,
  form "C.JR" (bit12 ||| sourceMask) 0b100 quadrant2 0 [x0, rd, zero],
  form "C.MV" bit12 0b100 quadrant2 0 [rd, x0, compressedRs2],
  form "C.EBREAK" (bit12 ||| destinationMask ||| sourceMask) 0b100 quadrant2 bit12 [],
  form "C.JALR" (bit12 ||| sourceMask) 0b100 quadrant2 bit12 [x1, rd, zero],
  form "C.ADD" bit12 0b100 quadrant2 bit12 [rd, rd, compressedRs2],
  form "C.SWSP" 0 0b110 quadrant2 0 [x2, compressedRs2, stackStoreWord],
  (form "C.SDSP" 0 0b111 quadrant2 0 [x2, compressedRs2, stackStoreDouble]).onlyRv64]

def handlers : List Handler := [
  .define "C.ADDI4SPN" (.immediate .add),
  .define "C.LW" (.load .word true),
  .define "C.LD" (.load .double true),
  .define "C.SW" (.store .word),
  .define "C.SD" (.store .double),
  .define "C.ADDI" (.immediate .add),
  (Handler.define "C.JAL" .jump).withLength.withPc,
  .define "C.ADDIW" (.immediateLow .add),
  .define "C.LI" (.immediate .add),
  .define "C.ADDI16SP" (.immediate .add),
  .define "C.LUI" .loadUpper,
  .define "C.SRLI" (.immediate .shiftRight),
  .define "C.SRAI" (.immediate .shiftRightSigned),
  .define "C.ANDI" (.immediate .and),
  .define "C.SUB" (.register .subtract),
  .define "C.XOR" (.register .exclusiveOr),
  .define "C.OR" (.register .or),
  .define "C.AND" (.register .and),
  .define "C.SUBW" (.registerLow .subtract),
  .define "C.ADDW" (.registerLow .add),
  (Handler.define "C.J" .jump).withLength.withPc,
  (Handler.define "C.BEQZ" (.branch .equal)).withPc,
  (Handler.define "C.BNEZ" (.branch .notEqual)).withPc,
  .define "C.SLLI" (.immediate .shiftLeft),
  .define "C.LWSP" (.load .word true),
  .define "C.LDSP" (.load .double true),
  (Handler.define "C.JR" .jumpRegister).withLength.withPc,
  .define "C.MV" (.register .add),
  (Handler.define "C.EBREAK" .environmentBreak).withPc,
  (Handler.define "C.JALR" .jumpRegister).withLength.withPc,
  .define "C.ADD" (.register .add),
  .define "C.SWSP" (.store .word),
  .define "C.SDSP" (.store .double)]

end RiscvMachine.Catalogue.Compressed
