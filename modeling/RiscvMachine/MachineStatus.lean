import RiscvMachine.Word
/-!
The fields of the machine status register.
-/

namespace RiscvMachine.MachineStatus

def flag (position : Nat) : Word :=
  1 <<< position

def supervisorEnable : Word := flag 1
def machineEnable : Word := flag 3
def supervisorPreviousEnable : Word := flag 5
def machinePreviousEnable : Word := flag 7
def supervisorPreviousPrivilege : Word := flag 8
def machinePreviousPrivilege : Word := 3 <<< 11
def modifyPrivilege : Word := flag 17
def supervisorUserAccess : Word := flag 18
def executableReadable : Word := flag 19
def trapTranslation : Word := flag 20
def trapWait : Word := flag 21
def trapReturn : Word := flag 22
def userWidth : Word := 3 <<< 32

def supervisorMask : Word :=
  supervisorEnable ||| supervisorPreviousEnable ||| supervisorPreviousPrivilege |||
    supervisorUserAccess ||| executableReadable ||| userWidth

def writableMask : Word :=
  supervisorEnable ||| machineEnable ||| supervisorPreviousEnable ||| machinePreviousEnable |||
    supervisorPreviousPrivilege ||| machinePreviousPrivilege ||| modifyPrivilege |||
    supervisorUserAccess ||| executableReadable ||| trapTranslation ||| trapWait ||| trapReturn

/-- `old` with the bits of `mask` taken from `value`. -/
def replace (mask old value : Word) : Word :=
  (old &&& ~~~mask) ||| (value &&& mask)

def has (status mask : Word) : Bool :=
  status &&& mask != 0

def machinePrevious (status : Word) : Word :=
  (status >>> 11) &&& 3

def withMachinePrevious (status code : Word) : Word :=
  (status &&& ~~~machinePreviousPrivilege) ||| ((code &&& 3) <<< 11)

def supervisorPrevious (status : Word) : Word :=
  (status >>> 8) &&& 1

def withSupervisorPrevious (status code : Word) : Word :=
  (status &&& ~~~supervisorPreviousPrivilege) ||| ((code &&& 1) <<< 8)

/-- The bits `target` set if one of the bits `source` is, and cleared otherwise. -/
def copyFlag (status source target : Word) : Word :=
  if has status source then status ||| target else status &&& ~~~target

end RiscvMachine.MachineStatus
