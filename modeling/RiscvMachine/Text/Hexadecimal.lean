/-!
Hexadecimal text: digits without padding, zero-padded digits, and both with the `0x` mark.
-/

namespace RiscvMachine

/-- `text` with `fill` put before it until it has at least `width` characters. -/
def padLeft (width : Nat) (fill : Char) (text : String) : String :=
  String.ofList (List.replicate (width - text.length) fill) ++ text

/-- Lower-case hexadecimal digits, without leading zeros. -/
def hexDigits (value : Nat) : String :=
  String.ofList (Nat.toDigits 16 value)

def hex (value : Nat) : String :=
  "0x" ++ hexDigits value

/-- `0x` and at least `width` digits. -/
def hexPadded (width value : Nat) : String :=
  "0x" ++ padLeft width '0' (hexDigits value)

/-- `0x` and at least `width` upper-case digits. -/
def hexPaddedUpper (width value : Nat) : String :=
  "0x" ++ padLeft width '0' (hexDigits value).toUpper

/-- The value of one hexadecimal digit of either case. -/
def hexDigit? (digit : Char) : Option Nat :=
  if digit.isDigit then some (digit.toNat - '0'.toNat)
  else if 'a' ≤ digit ∧ digit ≤ 'f' then some (digit.toNat - 'a'.toNat + 10)
  else if 'A' ≤ digit ∧ digit ≤ 'F' then some (digit.toNat - 'A'.toNat + 10)
  else none

end RiscvMachine
