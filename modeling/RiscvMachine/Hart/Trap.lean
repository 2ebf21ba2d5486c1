import RiscvMachine.Hart.Control
/-!
Entering traps, and returning from them.
-/

namespace RiscvMachine.Hart

/-- User and supervisor mode leave a cause to supervisor mode if its delegation bit is set. -/
def delegates (hart : Hart) (cause : TrapCause) : Bool :=
  hart.privilege != .machine &&
    (hart.controls.read Csr.machineDelegation).getLsbD cause.code

def supervisorEntry (hart : Hart) (cause : TrapCause) (value : Word) : CsrBank :=
  let status := hart.controls.read Csr.machineStatus
  let status := MachineStatus.copyFlag status MachineStatus.supervisorEnable
    MachineStatus.supervisorPreviousEnable &&& ~~~MachineStatus.supervisorEnable
  let previous : Word := if hart.privilege = .user then 0 else 1
  (((hart.controls.write Csr.supervisorExceptionPc hart.pc).write
    Csr.supervisorCause (BitVec.ofNat 64 cause.code)).write
    Csr.supervisorTrapValue value).write
    Csr.machineStatus (MachineStatus.withSupervisorPrevious status previous)

def machineEntry (hart : Hart) (cause : TrapCause) (value : Word) : CsrBank :=
  let status := hart.controls.read Csr.machineStatus
  let status := MachineStatus.copyFlag status MachineStatus.machineEnable
    MachineStatus.machinePreviousEnable &&& ~~~MachineStatus.machineEnable
  let previous : Word := BitVec.ofNat 64 hart.privilege.code
  (((hart.controls.write Csr.machineExceptionPc hart.pc).write
    Csr.machineCause (BitVec.ofNat 64 cause.code)).write
    Csr.machineTrapValue value).write
    Csr.machineStatus (MachineStatus.withMachinePrevious status previous)

/-- Takes a trap: saves where and why, and goes on in a higher mode at its trap vector. -/
def enterTrap (hart : Hart) (cause : TrapCause) (value : Word) : Hart :=
  let delegated := hart.delegates cause
  let hart := hart.record (.trapTaken cause hart.pc value hart.privilege delegated)
  if delegated then
    let controls := hart.supervisorEntry cause value
    { hart with
      controls := controls
      privilege := .supervisor
      pc := hart.xlen.address (TrapVector.target (controls.read Csr.supervisorVector)) }
  else
    let controls := hart.machineEntry cause value
    { hart with
      controls := controls
      privilege := .machine
      pc := hart.xlen.address (TrapVector.target (controls.read Csr.machineVector)) }

def machineReturnMode (status : Word) : Privilege :=
  .ofCode (MachineStatus.machinePrevious status)

def machineReturnStatus (status : Word) : Word :=
  let returned := MachineStatus.copyFlag status MachineStatus.machinePreviousEnable
    MachineStatus.machineEnable ||| MachineStatus.machinePreviousEnable
  let returned := MachineStatus.withMachinePrevious returned 0
  if machineReturnMode status = .machine then returned
  else returned &&& ~~~MachineStatus.modifyPrivilege

/-- Returns from a trap to machine mode: only machine mode may. -/
def machineReturn (hart : Hart) : Except Exception Hart :=
  if hart.privilege ≠ .machine then .error .illegal
  else
    let status := hart.csr Csr.machineStatus
    let hart := (hart.setCsr Csr.machineStatus (machineReturnStatus status)).setPrivilege
      (machineReturnMode status)
    .ok (hart.setPc (hart.csr Csr.machineExceptionPc &&& ~~~1))

/-- Whether the mode may do what needs supervisor mode: machine mode always may, and supervisor mode
while `flag` is clear in the status. -/
def mayWhileClear (hart : Hart) (flag : Word) : Bool :=
  match hart.privilege with
  | .user => false
  | .supervisor => !MachineStatus.has (hart.csr Csr.machineStatus) flag
  | .machine => true

def supervisorReturnMode (status : Word) : Privilege :=
  if MachineStatus.supervisorPrevious status = 0 then .user else .supervisor

def supervisorReturnStatus (status : Word) : Word :=
  let returned := MachineStatus.copyFlag status MachineStatus.supervisorPreviousEnable
    MachineStatus.supervisorEnable ||| MachineStatus.supervisorPreviousEnable
  let returned := MachineStatus.withSupervisorPrevious returned 0
  returned &&& ~~~MachineStatus.modifyPrivilege

def supervisorReturn (hart : Hart) : Except Exception Hart :=
  if !hart.mayWhileClear MachineStatus.trapReturn then .error .illegal
  else
    let status := hart.csr Csr.machineStatus
    let hart := (hart.setCsr Csr.machineStatus (supervisorReturnStatus status)).setPrivilege
      (supervisorReturnMode status)
    .ok (hart.setPc (hart.csr Csr.supervisorExceptionPc &&& ~~~1))

end RiscvMachine.Hart
