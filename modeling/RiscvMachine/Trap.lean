import RiscvMachine.Privilege
import RiscvMachine.Translation
/-!
Trap causes and where traps lead.
-/

namespace RiscvMachine

inductive TrapCause where
  | instructionAddressMisaligned
  | instructionAccessFault
  | illegalInstruction
  | breakpoint
  | loadAddressMisaligned
  | loadAccessFault
  | storeAddressMisaligned
  | storeAccessFault
  | callFromUser
  | callFromSupervisor
  | callFromMachine
  | instructionPageFault
  | loadPageFault
  | storePageFault
  deriving DecidableEq, Repr

namespace TrapCause

def code : TrapCause → Nat
  | instructionAddressMisaligned => 0
  | instructionAccessFault => 1
  | illegalInstruction => 2
  | breakpoint => 3
  | loadAddressMisaligned => 4
  | loadAccessFault => 5
  | storeAddressMisaligned => 6
  | storeAccessFault => 7
  | callFromUser => 8
  | callFromSupervisor => 9
  | callFromMachine => 11
  | instructionPageFault => 12
  | loadPageFault => 13
  | storePageFault => 15

def name : TrapCause → String
  | instructionAddressMisaligned => "InstructionAddressMisaligned"
  | instructionAccessFault => "InstructionAccessFault"
  | illegalInstruction => "IllegalInstruction"
  | breakpoint => "Breakpoint"
  | loadAddressMisaligned => "LoadAddressMisaligned"
  | loadAccessFault => "LoadAccessFault"
  | storeAddressMisaligned => "StoreAddressMisaligned"
  | storeAccessFault => "StoreAccessFault"
  | callFromUser => "EcallFromU"
  | callFromSupervisor => "EcallFromS"
  | callFromMachine => "EcallFromM"
  | instructionPageFault => "InstructionPageFault"
  | loadPageFault => "LoadPageFault"
  | storePageFault => "StorePageFault"

def callFrom : Privilege → TrapCause
  | .user => callFromUser
  | .supervisor => callFromSupervisor
  | .machine => callFromMachine

def accessFault : Access → TrapCause
  | .fetch => instructionAccessFault
  | .load => loadAccessFault
  | .store => storeAccessFault

def pageFault : Access → TrapCause
  | .fetch => instructionPageFault
  | .load => loadPageFault
  | .store => storePageFault

def addressMisaligned : Access → TrapCause
  | .fetch => instructionAddressMisaligned
  | .load => loadAddressMisaligned
  | .store => storeAddressMisaligned

def ofTranslation : TranslationError → TrapCause
  | .pageFault _ access => pageFault access
  | .accessFault _ access => accessFault access

def ofMemory : MemoryError → Access → TrapCause
  | .unaligned .., access => addressMisaligned access
  | .outOfRange .., access | .overlap .., access => accessFault access

end TrapCause

/-- A cause with the value that comes with it. -/
structure Exception where
  cause : TrapCause
  value : Word
  deriving DecidableEq

namespace Exception

/-- An instruction that may not be executed. -/
def illegal : Exception :=
  ⟨.illegalInstruction, 0⟩

def message (exception : Exception) : String :=
  exception.cause.name ++ " (tval=" ++ hex exception.value.toNat ++ ")"

end Exception

/-- What the low bits of a trap vector register select. -/
inductive VectorMode where
  | direct
  | vectored
  deriving DecidableEq, Repr

namespace TrapVector

def base (vector : Word) : Word :=
  vector &&& ~~~3

def mode (vector : Word) : VectorMode :=
  if vector &&& 3 = 1 then .vectored else .direct

/-- An exception leads to the base address in both modes. -/
def target (vector : Word) : Word :=
  base vector

end TrapVector

end RiscvMachine
