import RiscvMachine.Hart.Access
import RiscvMachine.Hart.Trap
/-!
Execution of operations. An operation that fails reports an exception; the trap itself is taken
when the instruction has ended.
-/

namespace RiscvMachine

/-- The outcome of an operation, and the hart after it. -/
abbrev Execution := Except Exception Flow × Hart

namespace Hart

/-- The outcome of an operation that leaves the hart as it is if it fails. -/
def complete (hart : Hart) : Except Exception Hart → Execution
  | .ok after => (.ok .next, after)
  | .error exception => (.error exception, hart)

def executeBranch (hart : Hart) (condition : Condition) (operands : Operands) : Execution :=
  let left := hart.readRegister (operands.register 0)
  let right := hart.readRegister (operands.register 1)
  if condition.holds left right then
    (.ok .taken, hart.setPc (operands.get 3 + operands.get 2))
  else (.ok .next, hart)

def executeJump (hart : Hart) (operands : Operands) : Execution :=
  let pc := operands.get 3
  let linked := hart.writeRegister (operands.register 0) (pc + operands.get 2)
  (.ok .taken, linked.setPc (pc + operands.get 1))

/-- The target is computed before the link is written, which may replace the base. -/
def executeJumpRegister (hart : Hart) (operands : Operands) : Execution :=
  let target := (hart.readRegister (operands.register 1) + operands.get 2) &&& ~~~1
  let linked := hart.writeRegister (operands.register 0) (operands.get 4 + operands.get 3)
  (.ok .taken, linked.setPc target)

def executeLoad (hart : Hart) (size : AccessSize) (signed : Bool) (operands : Operands) : Execution :=
  let address := hart.readRegister (operands.register 1) + operands.get 2
  match hart.load address size with
  | (.error exception, hart) => (.error exception, hart)
  | (.ok value, hart) =>
      let value := if signed then size.signExtend value else value
      (.ok .next, hart.writeRegister (operands.register 0) value)

def executeStore (hart : Hart) (size : AccessSize) (operands : Operands) : Execution :=
  let address := hart.readRegister (operands.register 0) + operands.get 2
  match hart.store address (hart.readRegister (operands.register 1)) size with
  | (.error exception, hart) => (.error exception, hart)
  | (.ok (), hart) => (.ok .next, hart)

def csrOperand (operands : Operands) : CsrAddress :=
  (operands.get 2 &&& 0xFFF).setWidth 16

def csrSourceValue (hart : Hart) (source : CsrSource) (operands : Operands) : Word :=
  match source with
  | .register => hart.readRegister (operands.register 1)
  | .immediate => operands.get 1

/-- Register x0 and the immediate zero only read. -/
def csrSourceWrites (source : CsrSource) (operands : Operands) : Bool :=
  match source with
  | .register => operands.register 1 != 0
  | .immediate => operands.get 1 != 0

/-- Writes the source; the old value is read only where it has a destination. -/
def executeCsrSwap (hart : Hart) (source : CsrSource) (operands : Operands) : Execution :=
  let address := csrOperand operands
  let value := hart.csrSourceValue source operands
  let destination := operands.register 0
  hart.complete <|
    if destination = 0 then hart.writeCsr address value
    else do
      let old ← hart.readCsr address
      let after ← hart.writeCsr address value
      return after.writeRegister destination old

/-- Reads the register, and writes `update` of the old value and the source. -/
def executeCsrModify (hart : Hart) (source : CsrSource) (update : Word → Word → Word)
    (operands : Operands) : Execution :=
  let address := csrOperand operands
  let value := hart.csrSourceValue source operands
  hart.complete do
    let old ← hart.readCsr address
    let after ←
      if csrSourceWrites source operands then hart.writeCsr address (update old value) else .ok hart
    return after.writeRegister (operands.register 0) old

/-- Waits, unless the mode below machine mode may not. -/
def executeWait (hart : Hart) : Execution :=
  hart.complete <|
    if hart.privilege ≠ .machine ∧ MachineStatus.has (hart.csr Csr.machineStatus) MachineStatus.trapWait
    then .error .illegal
    else .ok hart.wait

def executeTranslationFence (hart : Hart) : Execution :=
  hart.complete <|
    if hart.mayWhileClear MachineStatus.trapTranslation then .ok hart.invalidate
    else .error .illegal

end Hart

def Operation.execute (operation : Operation) (operands : Operands) (hart : Hart) : Execution :=
  match operation with
  | loadUpper => (.ok .next, hart.writeRegister (operands.register 0) (operands.get 1))
  | addUpperToPc =>
      (.ok .next, hart.writeRegister (operands.register 0) (operands.get 2 + operands.get 1))
  | jump => hart.executeJump operands
  | jumpRegister => hart.executeJumpRegister operands
  | branch condition => hart.executeBranch condition operands
  | load size signed => hart.executeLoad size signed operands
  | store size => hart.executeStore size operands
  | immediate arithmetic =>
      let left := hart.readRegister (operands.register 1)
      let right := arithmetic.immediateOperand hart.xlen (operands.get 2)
      (.ok .next, hart.writeRegister (operands.register 0) (arithmetic.evaluate hart.xlen left right))
  | register arithmetic =>
      let left := hart.readRegister (operands.register 1)
      let right := hart.readRegister (operands.register 2)
      (.ok .next, hart.writeRegister (operands.register 0) (arithmetic.evaluate hart.xlen left right))
  | immediateLow arithmetic =>
      let left := hart.readRegister (operands.register 1)
      (.ok .next, hart.writeRegister (operands.register 0) (arithmetic.evaluate left (operands.get 2)))
  | registerLow arithmetic =>
      let left := hart.readRegister (operands.register 1)
      let right := hart.readRegister (operands.register 2)
      (.ok .next, hart.writeRegister (operands.register 0) (arithmetic.evaluate left right))
  | environmentCall => (.ok .call, hart)
  | environmentBreak => (.error ⟨.breakpoint, operands.get 0⟩, hart)
  | csrSwap source => hart.executeCsrSwap source operands
  | csrSet source => hart.executeCsrModify source (fun old value => old ||| value) operands
  | csrClear source => hart.executeCsrModify source (fun old value => old &&& ~~~value) operands
  | machineReturn => hart.complete hart.machineReturn
  | supervisorReturn => hart.complete hart.supervisorReturn
  | waitForInterrupt => hart.executeWait
  | translationFence => hart.executeTranslationFence

end RiscvMachine
