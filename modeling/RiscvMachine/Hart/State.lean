import RiscvMachine.Csr
import RiscvMachine.Debugger
import RiscvMachine.Event
import RiscvMachine.Hart.Registers
import RiscvMachine.InstructionSet
/-!
The state of one hart, and the operations of its environment on that state.
-/

namespace RiscvMachine

structure Hart where
  registers : RegisterFile 32
  controls : CsrBank
  privilege : Privilege
  pc : Word
  xlen : Xlen
  /-- Set by a wait for an interrupt until the hart is woken or reset. -/
  waiting : Bool
  /-- The number of executed instructions, modulo the word size. -/
  cycles : Word
  instructions : InstructionSet
  memory : MemoryMap
  translation : Translation
  debugger : Option Debugger
  /-- The events so far, if they are recorded. -/
  journal : Option (Array Event)

namespace Hart

def initial (instructions : InstructionSet) (memory : MemoryMap) (translation : Translation)
    (xlen : Xlen) (entry : Word) : Hart where
  registers := .zero 32
  controls := .reset
  privilege := .machine
  pc := xlen.address entry
  xlen := xlen
  waiting := false
  cycles := 0
  instructions := instructions
  memory := memory
  translation := translation
  debugger := none
  journal := none

def record (hart : Hart) (event : Event) : Hart :=
  { hart with journal := hart.journal.map fun events => events.push event }

def startJournal (hart : Hart) : Hart :=
  { hart with journal := some #[] }

def events (hart : Hart) : List Event :=
  (hart.journal.getD #[]).toList

def readRegister (hart : Hart) (index : Nat) : Word :=
  hart.registers.read index

def writeRegister (hart : Hart) (index : Nat) (value : Word) : Hart :=
  { hart with registers := hart.registers.write index (hart.xlen.normalize value) }

def setPc (hart : Hart) (pc : Word) : Hart :=
  { hart with pc := hart.xlen.address pc }

def setPrivilege (hart : Hart) (privilege : Privilege) : Hart :=
  { hart with privilege := privilege }

def wait (hart : Hart) : Hart :=
  { hart with waiting := true }

def wake (hart : Hart) : Hart :=
  { hart with waiting := false }

def invalidate (hart : Hart) : Hart :=
  { hart with translation := hart.translation.invalidate }

def mapPage (hart : Hart) (virtual physical : Word) : Hart :=
  { hart with translation := hart.translation.map virtual physical }

def unmapPage (hart : Hart) (virtual : Word) : Hart :=
  { hart with translation := hart.translation.unmap virtual }

/-- Changes the register width; registers and program counter take the form of the new width. -/
def setXlen (hart : Hart) (xlen : Xlen) : Hart :=
  if hart.xlen = xlen then hart
  else
    let hart := hart.record (.widthSwitched hart.xlen xlen)
    let registers := (List.range' 1 31).foldl
      (fun registers index => registers.write index (xlen.normalize (registers.read index)))
      hart.registers
    { hart with xlen := xlen, registers := registers, pc := xlen.address hart.pc }

/-- The `misa` value: width code, extensions, and the letters of supervisor and user mode. -/
def isa (hart : Hart) : Word :=
  (hart.xlen.code <<< (hart.xlen.bits - 2)) ||| hart.instructions.misaLetters |||
    ((1 <<< letterBit 'S') ||| (1 <<< letterBit 'U'))

def disassemble (hart : Hart) (raw : Encoding) : Option Application :=
  hart.instructions.disassemble hart.xlen raw

/-- Starts over at `pc` in machine mode; a hard reset also clears registers and counter. -/
def reset (hart : Hart) (hard : Bool) (pc : Word) : Hart :=
  let hart := hart.record (.reset hard pc)
  let hart :=
    if hard then { hart with registers := .zero 32, controls := .reset, cycles := 0 } else hart
  { hart with privilege := .machine, waiting := false, pc := hart.xlen.address pc }.invalidate

/-- Turns breakpoints on; those that are set already stay. -/
def enableDebugger (hart : Hart) : Hart :=
  { hart with debugger := some (hart.debugger.getD .empty) }

def disableDebugger (hart : Hart) : Hart :=
  { hart with debugger := none }

end Hart

end RiscvMachine
