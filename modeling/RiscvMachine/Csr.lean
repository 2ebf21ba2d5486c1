import RiscvMachine.Word
import Std.Data.TreeMap
/-!
Control and status registers: their addresses, the ones that are stored, and the role that an
address has when it is read or written.
-/

namespace RiscvMachine

abbrev CsrAddress := BitVec 16

namespace Csr

def cycle : CsrAddress := 0xC00
def time : CsrAddress := 0xC01
def retired : CsrAddress := 0xC02

def vendorId : CsrAddress := 0xF11
def architectureId : CsrAddress := 0xF12
def implementationId : CsrAddress := 0xF13
def hartId : CsrAddress := 0xF14

def machineStatus : CsrAddress := 0x300
def isa : CsrAddress := 0x301
def machineDelegation : CsrAddress := 0x302
def machineInterruptDelegation : CsrAddress := 0x303
def machineInterruptEnable : CsrAddress := 0x304
def machineVector : CsrAddress := 0x305
def machineCounterEnable : CsrAddress := 0x306
def machineScratch : CsrAddress := 0x340
def machineExceptionPc : CsrAddress := 0x341
def machineCause : CsrAddress := 0x342
def machineTrapValue : CsrAddress := 0x343
def machineInterruptPending : CsrAddress := 0x344
def machineCycle : CsrAddress := 0xB00
def machineRetired : CsrAddress := 0xB02

def supervisorStatus : CsrAddress := 0x100
def supervisorInterruptEnable : CsrAddress := 0x104
def supervisorVector : CsrAddress := 0x105
def supervisorCounterEnable : CsrAddress := 0x106
def supervisorScratch : CsrAddress := 0x140
def supervisorExceptionPc : CsrAddress := 0x141
def supervisorCause : CsrAddress := 0x142
def supervisorTrapValue : CsrAddress := 0x143
def supervisorInterruptPending : CsrAddress := 0x144
def supervisorTranslation : CsrAddress := 0x180

/-- The stored registers with their names; all are zero after a reset. -/
def registered : List (CsrAddress × String) := [
  (vendorId, "mvendorid"),
  (architectureId, "marchid"),
  (implementationId, "mimpid"),
  (hartId, "mhartid"),
  (machineStatus, "mstatus"),
  (machineDelegation, "medeleg"),
  (machineInterruptDelegation, "mideleg"),
  (machineInterruptEnable, "mie"),
  (machineVector, "mtvec"),
  (machineCounterEnable, "mcounteren"),
  (machineScratch, "mscratch"),
  (machineExceptionPc, "mepc"),
  (machineCause, "mcause"),
  (machineTrapValue, "mtval"),
  (machineInterruptPending, "mip"),
  (supervisorInterruptEnable, "sie"),
  (supervisorVector, "stvec"),
  (supervisorCounterEnable, "scounteren"),
  (supervisorScratch, "sscratch"),
  (supervisorExceptionPc, "sepc"),
  (supervisorCause, "scause"),
  (supervisorTrapValue, "stval"),
  (supervisorInterruptPending, "sip"),
  (supervisorTranslation, "satp")]

def name? (address : CsrAddress) : Option String :=
  registered.lookup address

/-- The code of the least privileged mode that may access an address. -/
def requiredPrivilege (address : CsrAddress) : Nat :=
  (address.toNat >>> 8) % 4

def isReadOnly (address : CsrAddress) : Bool :=
  (address.toNat >>> 10) % 4 == 3

/-- How reads and writes of an address are carried out. -/
inductive Role where
  /-- The machine status register, of which some bits cannot be written. -/
  | machineStatus
  /-- A view of some bits of the machine status register. -/
  | supervisorStatus
  | isa
  | counter
  /-- A read-only view of the cycle counter. -/
  | counterView
  /-- A stored register that cannot be written. -/
  | identification
  /-- The root of address translation; a write forgets cached translations. -/
  | translationRoot
  /-- A register that holds what was written. -/
  | plain
  deriving DecidableEq, Repr

def role (address : CsrAddress) : Role :=
  if address = machineStatus then .machineStatus
  else if address = supervisorStatus then .supervisorStatus
  else if address = isa then .isa
  else if address = machineCycle ∨ address = machineRetired then .counter
  else if address = cycle ∨ address = time ∨ address = retired then .counterView
  else if address = vendorId ∨ address = architectureId ∨ address = implementationId ∨
      address = hartId then .identification
  else if address = supervisorTranslation then .translationRoot
  else .plain

/-- The register has a value that is computed rather than stored. -/
def Role.isDerived : Role → Bool
  | supervisorStatus | isa | counter | counterView => true
  | machineStatus | identification | translationRoot | plain => false

end Csr

structure CsrBank where
  table : Std.TreeMap CsrAddress Word

namespace CsrBank

def reset : CsrBank :=
  ⟨Csr.registered.foldl (fun table register => table.insert register.1 0) ∅⟩

def contains (bank : CsrBank) (address : CsrAddress) : Bool :=
  bank.table.contains address

/-- The stored value; an address without a register reads as zero. -/
def read (bank : CsrBank) (address : CsrAddress) : Word :=
  bank.table.getD address 0

def write (bank : CsrBank) (address : CsrAddress) (value : Word) : CsrBank :=
  ⟨bank.table.insert address value⟩

def size (bank : CsrBank) : Nat :=
  bank.table.size

def toList (bank : CsrBank) : List (CsrAddress × Word) :=
  bank.table.toList

theorem read_write (bank : CsrBank) (address other : CsrAddress) (value : Word) :
    (bank.write address value).read other = if address = other then value else bank.read other := by
  simp [read, write, Std.TreeMap.getD_insert]

theorem contains_write (bank : CsrBank) (address other : CsrAddress) (value : Word) :
    (bank.write address value).contains other = (address == other || bank.contains other) := by
  rw [Bool.eq_iff_iff]
  simp [contains, write, Std.TreeMap.contains_insert]

end CsrBank

end RiscvMachine
