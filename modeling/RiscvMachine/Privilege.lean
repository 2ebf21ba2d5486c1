import RiscvMachine.Word
/-!
Privilege modes.
-/

namespace RiscvMachine

inductive Privilege where
  | user
  | supervisor
  | machine
  deriving DecidableEq, Repr

namespace Privilege

/-- The two-bit code of a mode; a higher mode has a greater code. -/
def code : Privilege → Nat
  | user => 0
  | supervisor => 1
  | machine => 3

/-- The mode that the two lowest bits of a word denote; the reserved code denotes machine mode. -/
def ofCode (word : Word) : Privilege :=
  match word.toNat % 4 with
  | 0 => user
  | 1 => supervisor
  | _ => machine

def name : Privilege → String
  | user => "User"
  | supervisor => "Supervisor"
  | machine => "Machine"

end Privilege

end RiscvMachine
