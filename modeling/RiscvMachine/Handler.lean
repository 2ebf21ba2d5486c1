import RiscvMachine.Operation
import RiscvMachine.Text.Quoted
/-!
Handlers: the operation that executes the instructions of a mnemonic, and how the program counter
moves after it.
-/

namespace RiscvMachine

inductive PcUpdate where
  | sequential
  /-- Past the instruction, unless the branch was taken. -/
  | branch
  /-- As the operation has set it. -/
  | jump
  /-- As a trap or the return from one has set it. -/
  | trapBoundary
  deriving DecidableEq, Repr

namespace PcUpdate

/-- The update that the family of a mnemonic calls for; a compressed form behaves as the form it
stands for. -/
def ofMnemonic (mnemonic : String) : PcUpdate :=
  let base := match mnemonic.toList with
    | 'C' :: '.' :: rest => rest
    | characters => characters
  if base = "ECALL".toList ∨ base = "EBREAK".toList ∨ base = "MRET".toList ∨ base = "SRET".toList then
    trapBoundary
  else
    match base with
    | 'B' :: _ => branch
    | 'J' :: _ => jump
    | _ => sequential

/-- The program counter is to be moved past the instruction. -/
def advances : PcUpdate → Flow → Bool
  | sequential, _ => true
  | branch, flow => flow ≠ .taken
  | jump, _ | trapBoundary, _ => false

def name : PcUpdate → String
  | sequential => "Sequential"
  | branch => "Branch"
  | jump => "Jump"
  | trapBoundary => "TrapBoundary"

end PcUpdate

/-- The operation of a mnemonic, and what it takes after the declared operands. -/
structure Handler where
  mnemonic : String
  operation : Operation
  takesLength : Bool
  takesPc : Bool
  deriving DecidableEq

namespace Handler

def define (mnemonic : String) (operation : Operation) : Handler :=
  ⟨mnemonic, operation, false, false⟩

def withLength (handler : Handler) : Handler :=
  { handler with takesLength := true }

def withPc (handler : Handler) : Handler :=
  { handler with takesPc := true }

def summary (handler : Handler) : String :=
  "HandlerDef \x7b mnemonic: " ++ quoted handler.mnemonic ++ ", size: " ++
    toString handler.takesLength ++ ", pc: " ++ toString handler.takesPc ++ " \x7d"

end Handler

/-- The operation that an instruction of a decoder is bound to. -/
structure Binding where
  operation : Operation
  takesLength : Bool
  takesPc : Bool
  pcUpdate : PcUpdate
  deriving DecidableEq

end RiscvMachine
