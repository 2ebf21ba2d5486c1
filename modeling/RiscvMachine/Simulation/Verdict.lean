import RiscvMachine.Word
/-!
Verdicts of test programs.
-/

namespace RiscvMachine

inductive Verdict where
  | pass
  | fail (test : Nat)
  | timeout
  deriving DecidableEq

namespace Verdict

/-- One reports success, and any other odd or even number but zero a failure above its lowest
bit. -/
def ofReport (report : BitVec 32) : Verdict :=
  if report = 0 then timeout
  else if report = 1 then pass
  else fail (report >>> 1).toNat

def summary : Verdict → String
  | pass => "Pass"
  | fail test => "Fail(" ++ toString test ++ ")"
  | timeout => "Timeout"

end Verdict

end RiscvMachine
