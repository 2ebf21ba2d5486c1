import RiscvMachine.Hart.State
import RiscvMachine.MachineStatus
/-!
Access to control and status registers, with and without a check of privilege.
-/

namespace RiscvMachine.Hart

/-- The value of a register, as wide as the registers of the hart. -/
def csr (hart : Hart) (address : CsrAddress) : Word :=
  hart.xlen.address <|
    match Csr.role address with
    | .supervisorStatus => hart.controls.read Csr.machineStatus &&& MachineStatus.supervisorMask
    | .isa => hart.isa
    | .counter | .counterView => hart.cycles
    | .machineStatus | .identification | .translationRoot | .plain => hart.controls.read address

/-- The hart with new bits in the machine status register, as far as `mask` admits. -/
def updateStatus (hart : Hart) (mask value : Word) : Hart :=
  let old := hart.controls.read Csr.machineStatus
  { hart with
    controls := hart.controls.write Csr.machineStatus (MachineStatus.replace mask old value) }

/-- Writes to bits and registers that cannot be written are ignored. -/
def setCsr (hart : Hart) (address : CsrAddress) (value : Word) : Hart :=
  match Csr.role address with
  | .machineStatus => hart.updateStatus MachineStatus.writableMask value
  | .supervisorStatus =>
      hart.updateStatus (MachineStatus.supervisorMask &&& MachineStatus.writableMask) value
  | .isa | .counterView | .identification => hart
  | .counter => { hart with cycles := value }
  | .translationRoot => { hart with controls := hart.controls.write address value }.invalidate
  | .plain => { hart with controls := hart.controls.write address value }

def hasCsr (hart : Hart) (address : CsrAddress) : Bool :=
  (Csr.role address).isDerived || hart.controls.contains address

/-- The current mode may read the register, and write it if `write` is set. -/
def mayAccess (hart : Hart) (address : CsrAddress) (write : Bool) : Bool :=
  hart.hasCsr address && Csr.requiredPrivilege address ≤ hart.privilege.code &&
    !(write && Csr.isReadOnly address)

def readCsr (hart : Hart) (address : CsrAddress) : Except Exception Word :=
  if hart.mayAccess address false then .ok (hart.csr address) else .error .illegal

def writeCsr (hart : Hart) (address : CsrAddress) (value : Word) : Except Exception Hart :=
  if hart.mayAccess address true then .ok (hart.setCsr address value) else .error .illegal

end RiscvMachine.Hart
