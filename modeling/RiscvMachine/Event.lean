import RiscvMachine.Instruction.Declaration
import RiscvMachine.Trap
/-!
The journal of a run: what a hart and its environment report while they work.
-/

namespace RiscvMachine

inductive StopReason where
  /-- The instruction at the breakpoint has not been executed yet. -/
  | breakpoint (pc : Word)
  | waitForInterrupt
  deriving DecidableEq

/-- The reason with the breakpoint in decimal. -/
def StopReason.summary : StopReason → String
  | breakpoint pc => "Breakpoint(" ++ toString pc.toNat ++ ")"
  | waitForInterrupt => "WaitForInterrupt"

inductive Event where
  | executing (pc : Word) (application : Application)
  | illegalEncoding (pc : Word) (raw : Encoding)
  | trapTaken (cause : TrapCause) (pc value : Word) (privilege : Privilege) (delegated : Bool)
  | breakpointHit (pc : Word)
  | reset (hard : Bool) (pc : Word)
  | widthSwitched (before after : Xlen)
  | mailboxUnavailable (error : MemoryError)
  | mailboxUnset (steps : Nat)
  | stoppedEarly (reason : StopReason) (pc : Word)
  | verdictMissing (executed : Nat)

namespace Event

def level : Event → String
  | executing .. | illegalEncoding .. | trapTaken .. | breakpointHit .. => "TRACE"
  | reset .. | widthSwitched .. => "DEBUG"
  | mailboxUnavailable .. | mailboxUnset .. | stoppedEarly .. | verdictMissing .. => "WARN"

def message : Event → String
  | executing pc application => hex pc.toNat ++ ": " ++ application.text
  | illegalEncoding pc raw =>
      "illegal instruction " ++ hexPadded 8 raw.toNat ++ " at pc=" ++ hex pc.toNat
  | trapTaken cause pc value privilege delegated =>
      "trap " ++ cause.name ++ " at pc=" ++ hex pc.toNat ++ " tval=" ++ hex value.toNat ++
        " from " ++ privilege.name ++ if delegated then " (delegated)" else ""
  | breakpointHit pc => "breakpoint hit at pc=" ++ hex pc.toNat
  | reset hard pc => (if hard then "hard" else "soft") ++ " reset, pc=" ++ hex pc.toNat
  | widthSwitched before after => "switching " ++ before.name ++ " -> " ++ after.name
  | mailboxUnavailable error => "cannot clear HTIF mailbox: " ++ error.message
  | mailboxUnset steps =>
      "no tohost address configured, ran " ++ toString steps ++ " instructions"
  | stoppedEarly reason pc =>
      "stopped by " ++ reason.summary ++ " at pc=" ++ hex pc.toNat ++ " before tohost was written"
  | verdictMissing executed =>
      "no test result after " ++ toString executed ++ " instructions"

def line (event : Event) : String :=
  event.level ++ " " ++ event.message

end Event

end RiscvMachine
