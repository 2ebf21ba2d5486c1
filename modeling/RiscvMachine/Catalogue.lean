import RiscvMachine.Catalogue.Compressed
import RiscvMachine.Catalogue.Multiplication
import RiscvMachine.Catalogue.System
/-!
The standard instruction set: base integer instructions, multiplication, control register access,
privileged instructions and compressed forms.
-/

namespace RiscvMachine

namespace Catalogue

def declarations : List Declaration :=
  Integer.declarations ++ Multiplication.declarations ++ ControlAccess.declarations ++
    Privileged.declarations ++ Compressed.declarations

def handlers : List Handler :=
  Integer.handlers ++ Multiplication.handlers ++ ControlAccess.handlers ++
    Privileged.handlers ++ Compressed.handlers

end Catalogue

/-- The catalogue's declarations do form an instruction set, so the fallback is not taken. -/
def InstructionSet.standard : InstructionSet :=
  (InstructionSet.build Catalogue.declarations Catalogue.handlers).toOption.getD .empty

end RiscvMachine
