import RiscvMachine.Instruction.OperandField
/-!
The instruction formats: opcodes, masks of fixed bits, patterns and operand fields.
-/

namespace RiscvMachine

namespace Opcode

def loadUpper : Encoding := 0b0110111
def addUpperToPc : Encoding := 0b0010111
def jump : Encoding := 0b1101111
def jumpRegister : Encoding := 0b1100111
def branch : Encoding := 0b1100011
def load : Encoding := 0b0000011
def store : Encoding := 0b0100011
def immediate : Encoding := 0b0010011
def immediateWord : Encoding := 0b0011011
def register : Encoding := 0b0110011
def registerWord : Encoding := 0b0111011
def fence : Encoding := 0b0001111
def system : Encoding := 0b1110011

end Opcode

namespace Layout

/-- Opcode, function code and second function code. -/
def registerMask : Encoding := 0xFE00707F

def immediateMask : Encoding := 0x0000707F

def upperMask : Encoding := 0x0000007F

/-- As `registerMask`, with a sixth bit free for the shift amount. -/
def longShiftMask : Encoding := 0xFC00707F

def exactMask : Encoding := 0xFFFFFFFF

/-- Quadrant and function code of a 16-bit encoding. -/
def compressedMask : Encoding := 0xE003

def registerPattern (second function opcode : Encoding) : Encoding :=
  (second <<< 25) ||| (function <<< 12) ||| opcode

def immediatePattern (function opcode : Encoding) : Encoding :=
  (function <<< 12) ||| opcode

def compressedPattern (function quadrant : Encoding) : Encoding :=
  (function <<< 13) ||| quadrant

end Layout

namespace OperandField

/-- Segments given as low bit, length and target bit. -/
def unsignedBits (segments : List (Nat × Nat × Nat)) : OperandField :=
  bits (segments.map fun (low, length, target) => ⟨low, length, target⟩) false

/-- As `unsignedBits`, read as a two's-complement number. -/
def signedBits (segments : List (Nat × Nat × Nat)) : OperandField :=
  bits (segments.map fun (low, length, target) => ⟨low, length, target⟩) true

def rd : OperandField := unsignedBits [(7, 5, 0)]
def rs1 : OperandField := unsignedBits [(15, 5, 0)]
def rs2 : OperandField := unsignedBits [(20, 5, 0)]

def immediateI : OperandField := signedBits [(20, 12, 0)]
def immediateS : OperandField := signedBits [(7, 5, 0), (25, 7, 5)]
def immediateB : OperandField := signedBits [(8, 4, 1), (25, 6, 5), (7, 1, 11), (31, 1, 12)]
def immediateU : OperandField := signedBits [(12, 20, 12)]
def immediateJ : OperandField := signedBits [(21, 10, 1), (20, 1, 11), (12, 8, 12), (31, 1, 20)]

def shiftAmount5 : OperandField := unsignedBits [(20, 5, 0)]
def shiftAmount6 : OperandField := unsignedBits [(20, 6, 0)]

def controlAddress : OperandField := unsignedBits [(20, 12, 0)]
def controlImmediate : OperandField := unsignedBits [(15, 5, 0)]

def x0 : OperandField := constant 0
def x1 : OperandField := constant 1
def x2 : OperandField := constant 2
def zero : OperandField := constant 0

def compressedRs2 : OperandField := unsignedBits [(2, 5, 0)]

/-- The short register number in the low half of a compressed encoding. -/
def shortLow : OperandField := compressedRegister 2

/-- The short register number in the high half of a compressed encoding. -/
def shortHigh : OperandField := compressedRegister 7

def compressedImmediate6 : OperandField := signedBits [(2, 5, 0), (12, 1, 5)]
def compressedImmediateUpper : OperandField := signedBits [(2, 5, 12), (12, 1, 17)]
def compressedImmediateStack : OperandField :=
  signedBits [(6, 1, 4), (2, 1, 5), (5, 1, 6), (3, 2, 7), (12, 1, 9)]
def compressedOffsetStack : OperandField :=
  unsignedBits [(6, 1, 2), (5, 1, 3), (11, 2, 4), (7, 4, 6)]
def compressedShiftAmount6 : OperandField := unsignedBits [(2, 5, 0), (12, 1, 5)]
def compressedShiftAmount5 : OperandField := unsignedBits [(2, 5, 0)]

def compressedOffsetWord : OperandField := unsignedBits [(6, 1, 2), (10, 3, 3), (5, 1, 6)]
def compressedOffsetDouble : OperandField := unsignedBits [(10, 3, 3), (5, 2, 6)]
def stackLoadWord : OperandField := unsignedBits [(4, 3, 2), (12, 1, 5), (2, 2, 6)]
def stackLoadDouble : OperandField := unsignedBits [(5, 2, 3), (12, 1, 5), (2, 3, 6)]
def stackStoreWord : OperandField := unsignedBits [(9, 4, 2), (7, 2, 6)]
def stackStoreDouble : OperandField := unsignedBits [(10, 3, 3), (7, 3, 6)]

def compressedJumpOffset : OperandField :=
  signedBits [(3, 3, 1), (11, 1, 4), (2, 1, 5), (7, 1, 6), (6, 1, 7), (9, 2, 8), (8, 1, 10), (12, 1, 11)]
def compressedBranchOffset : OperandField :=
  signedBits [(3, 2, 1), (10, 2, 3), (2, 1, 5), (5, 2, 6), (12, 1, 8)]

end OperandField

end RiscvMachine
