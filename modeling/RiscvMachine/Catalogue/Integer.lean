import RiscvMachine.InstructionSet
import RiscvMachine.Instruction.Layout
/-!
The base integer instructions of both register widths.
-/

namespace RiscvMachine.Catalogue

open Layout OperandField

def registerForm (mnemonic : String) (second function opcode : Encoding) : Declaration :=
  .define mnemonic registerMask (registerPattern second function opcode) [rd, rs1, rs2]

def immediateForm (mnemonic : String) (function opcode : Encoding) : Declaration :=
  .define mnemonic immediateMask (immediatePattern function opcode) [rd, rs1, immediateI]

def branchForm (mnemonic : String) (function : Encoding) : Declaration :=
  .define mnemonic immediateMask (immediatePattern function Opcode.branch) [rs1, rs2, immediateB]

def storeForm (mnemonic : String) (function : Encoding) : Declaration :=
  .define mnemonic immediateMask (immediatePattern function Opcode.store) [rs1, rs2, immediateS]

def shortShiftForm (mnemonic : String) (second function opcode : Encoding) : Declaration :=
  .define mnemonic registerMask (registerPattern second function opcode) [rd, rs1, shiftAmount5]

def longShiftForm (mnemonic : String) (second function opcode : Encoding) : Declaration :=
  .define mnemonic longShiftMask (registerPattern second function opcode) [rd, rs1, shiftAmount6]

namespace Integer

def declarations : List Declaration := [
  .define "LUI" upperMask Opcode.loadUpper [rd, immediateU],
  .define "AUIPC" upperMask Opcode.addUpperToPc [rd, immediateU],
  .define "JAL" upperMask Opcode.jump [rd, immediateJ],
  immediateForm "JALR" 0b000 Opcode.jumpRegister,
  branchForm "BEQ" 0b000,
  branchForm "BNE" 0b001,
  branchForm "BLT" 0b100,
  branchForm "BGE" 0b101,
  branchForm "BLTU" 0b110,
  branchForm "BGEU" 0b111,
  immediateForm "LB" 0b000 Opcode.load,
  immediateForm "LH" 0b001 Opcode.load,
  immediateForm "LW" 0b010 Opcode.load,
  (immediateForm "LD" 0b011 Opcode.load).onlyRv64,
  immediateForm "LBU" 0b100 Opcode.load,
  immediateForm "LHU" 0b101 Opcode.load,
  (immediateForm "LWU" 0b110 Opcode.load).onlyRv64,
  storeForm "SB" 0b000,
  storeForm "SH" 0b001,
  storeForm "SW" 0b010,
  (storeForm "SD" 0b011).onlyRv64,
  immediateForm "ADDI" 0b000 Opcode.immediate,
  immediateForm "SLTI" 0b010 Opcode.immediate,
  immediateForm "SLTIU" 0b011 Opcode.immediate,
  immediateForm "XORI" 0b100 Opcode.immediate,
  immediateForm "ORI" 0b110 Opcode.immediate,
  immediateForm "ANDI" 0b111 Opcode.immediate,
  (shortShiftForm "SLLI" 0b0000000 0b001 Opcode.immediate).onlyRv32,
  (shortShiftForm "SRLI" 0b0000000 0b101 Opcode.immediate).onlyRv32,
  (shortShiftForm "SRAI" 0b0100000 0b101 Opcode.immediate).onlyRv32,
  (longShiftForm "SLLI" 0b0000000 0b001 Opcode.immediate).onlyRv64,
  (longShiftForm "SRLI" 0b0000000 0b101 Opcode.immediate).onlyRv64,
  (longShiftForm "SRAI" 0b0100000 0b101 Opcode.immediate).onlyRv64,
  registerForm "ADD" 0b0000000 0b000 Opcode.register,
  registerForm "SUB" 0b0100000 0b000 Opcode.register,
  registerForm "SLL" 0b0000000 0b001 Opcode.register,
  registerForm "SLT" 0b0000000 0b010 Opcode.register,
  registerForm "SLTU" 0b0000000 0b011 Opcode.register,
  registerForm "XOR" 0b0000000 0b100 Opcode.register,
  registerForm "SRL" 0b0000000 0b101 Opcode.register,
  registerForm "SRA" 0b0100000 0b101 Opcode.register,
  registerForm "OR" 0b0000000 0b110 Opcode.register,
  registerForm "AND" 0b0000000 0b111 Opcode.register,
  (immediateForm "ADDIW" 0b000 Opcode.immediateWord).onlyRv64,
  (shortShiftForm "SLLIW" 0b0000000 0b001 Opcode.immediateWord).onlyRv64,
  (shortShiftForm "SRLIW" 0b0000000 0b101 Opcode.immediateWord).onlyRv64,
  (shortShiftForm "SRAIW" 0b0100000 0b101 Opcode.immediateWord).onlyRv64,
  (registerForm "ADDW" 0b0000000 0b000 Opcode.registerWord).onlyRv64,
  (registerForm "SUBW" 0b0100000 0b000 Opcode.registerWord).onlyRv64,
  (registerForm "SLLW" 0b0000000 0b001 Opcode.registerWord).onlyRv64,
  (registerForm "SRLW" 0b0000000 0b101 Opcode.registerWord).onlyRv64,
  (registerForm "SRAW" 0b0100000 0b101 Opcode.registerWord).onlyRv64,
  -- One hart needs no ordering of its own accesses.
  (Declaration.define "FENCE" immediateMask (immediatePattern 0b000 Opcode.fence) []).asNop,
  (Declaration.define "FENCE.I" immediateMask (immediatePattern 0b001 Opcode.fence) []).asNop,
  .define "ECALL" exactMask 0x00000073 [],
  .define "EBREAK" exactMask 0x00100073 []]

def handlers : List Handler := [
  .define "LUI" .loadUpper,
  (Handler.define "AUIPC" .addUpperToPc).withPc,
  (Handler.define "JAL" .jump).withLength.withPc,
  (Handler.define "JALR" .jumpRegister).withLength.withPc,
  (Handler.define "BEQ" (.branch .equal)).withPc,
  (Handler.define "BNE" (.branch .notEqual)).withPc,
  (Handler.define "BLT" (.branch .less)).withPc,
  (Handler.define "BGE" (.branch .greaterOrEqual)).withPc,
  (Handler.define "BLTU" (.branch .lessUnsigned)).withPc,
  (Handler.define "BGEU" (.branch .greaterOrEqualUnsigned)).withPc,
  .define "LB" (.load .byte true),
  .define "LH" (.load .half true),
  .define "LW" (.load .word true),
  .define "LD" (.load .double true),
  .define "LBU" (.load .byte false),
  .define "LHU" (.load .half false),
  .define "LWU" (.load .word false),
  .define "SB" (.store .byte),
  .define "SH" (.store .half),
  .define "SW" (.store .word),
  .define "SD" (.store .double),
  .define "ADDI" (.immediate .add),
  .define "SLTI" (.immediate .setLess),
  .define "SLTIU" (.immediate .setLessUnsigned),
  .define "XORI" (.immediate .exclusiveOr),
  .define "ORI" (.immediate .or),
  .define "ANDI" (.immediate .and),
  .define "SLLI" (.immediate .shiftLeft),
  .define "SRLI" (.immediate .shiftRight),
  .define "SRAI" (.immediate .shiftRightSigned),
  .define "ADD" (.register .add),
  .define "SUB" (.register .subtract),
  .define "SLL" (.register .shiftLeft),
  .define "SLT" (.register .setLess),
  .define "SLTU" (.register .setLessUnsigned),
  .define "XOR" (.register .exclusiveOr),
  .define "SRL" (.register .shiftRight),
  .define "SRA" (.register .shiftRightSigned),
  .define "OR" (.register .or),
  .define "AND" (.register .and),
  .define "ADDIW" (.immediateLow .add),
  .define "SLLIW" (.immediateLow .shiftLeft),
  .define "SRLIW" (.immediateLow .shiftRight),
  .define "SRAIW" (.immediateLow .shiftRightSigned),
  .define "ADDW" (.registerLow .add),
  .define "SUBW" (.registerLow .subtract),
  .define "SLLW" (.registerLow .shiftLeft),
  .define "SRLW" (.registerLow .shiftRight),
  .define "SRAW" (.registerLow .shiftRightSigned),
  .define "ECALL" .environmentCall,
  (Handler.define "EBREAK" .environmentBreak).withPc]

end Integer

end RiscvMachine.Catalogue
