import RiscvMachine.Word
import Std.Data.TreeSet
/-!
Breakpoints. A hart stops before the instruction at a breakpoint, and is let through the next time
it is about to execute that same instruction.
-/

namespace RiscvMachine

structure Debugger where
  breakpoints : Std.TreeSet Word
  /-- The breakpoint at which the hart stopped last. -/
  resumeFrom : Option Word

namespace Debugger

def empty : Debugger :=
  ⟨∅, none⟩

def has (debugger : Debugger) (pc : Word) : Bool :=
  debugger.breakpoints.contains pc

/-- Adds a breakpoint, and tells whether it is a new one. -/
def add (debugger : Debugger) (pc : Word) : Bool × Debugger :=
  (!debugger.has pc, { debugger with breakpoints := debugger.breakpoints.insert pc })

/-- Removes a breakpoint, and tells whether there was one. -/
def remove (debugger : Debugger) (pc : Word) : Bool × Debugger :=
  (debugger.has pc, { debugger with breakpoints := debugger.breakpoints.erase pc })

def clear (_ : Debugger) : Debugger :=
  empty

def toList (debugger : Debugger) : List Word :=
  debugger.breakpoints.toList

def check (debugger : Debugger) (pc : Word) : Bool × Debugger :=
  if debugger.resumeFrom = some pc then (false, { debugger with resumeFrom := none })
  else if debugger.has pc then (true, { debugger with resumeFrom := some pc })
  else (false, { debugger with resumeFrom := none })

end Debugger

end RiscvMachine
