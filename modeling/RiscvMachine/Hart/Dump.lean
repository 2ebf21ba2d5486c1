import RiscvMachine.Hart.State
/-!
The state of a hart as text.
-/

namespace RiscvMachine.Hart

/-- `items` in rows of `width`, with the last row as long as the rest. -/
def rows (width : Nat) : (fuel : Nat) → List String → List String
  | 0, _ => []
  | _, [] => []
  | fuel + 1, items =>
      String.join (items.take width) :: rows width fuel (items.drop width)

def rule : String :=
  String.ofList (List.replicate 67 '═')

/-- The header, the integer registers four to a line, and the stored control registers two to a
line. -/
def dump (hart : Hart) : String :=
  let header := [
    rule,
    "CPU Status Dump (" ++ hart.xlen.name ++ ")",
    rule,
    "PC: " ++ hexPadded 16 hart.pc.toNat ++ "  Privilege: " ++ hart.privilege.name ++
      "  Cycles: " ++ toString hart.cycles.toNat ++ if hart.waiting then "  (waiting)" else "",
    "",
    "─── Integer Registers (x0-x31) ───────────────────────────────────"]
  let registers := (List.range 32).map fun index =>
    "x" ++ padLeft 2 '0' (toString index) ++ ": " ++ hexPadded 16 (hart.readRegister index).toNat ++ "  "
  let controls := hart.controls.toList.map fun (address, value) =>
    "  " ++ padLeft 10 ' ' ((Csr.name? address).getD "?") ++ ": " ++ hexPadded 16 value.toNat
  let controlSection :=
    if controls.isEmpty then []
    else
      ["", "─── Control and Status Registers (CSR) ───────────────────────────"] ++
        rows 2 controls.length controls
  let lines := header ++ (rows 4 registers.length registers).map (fun row => "  " ++ row) ++
    controlSection ++ [rule]
  String.join (lines.map fun line => line ++ "\n")

end RiscvMachine.Hart
