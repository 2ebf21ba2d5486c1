import RiscvMachine.Text.CharacterClass
import RiscvMachine.Text.Hexadecimal
/-!
Quoted text for diagnostics: a quote and a backslash get a backslash, line breaks, tabs and the
null character have letters, and any other character that would not be seen in its place is
written by its code point.
-/

namespace RiscvMachine

/-- A character that shows no form of its own between quotes. -/
def isConcealed (character : Char) : Bool :=
  CharacterClass.invisible.contains character || CharacterClass.ignorable.contains character ||
    CharacterClass.extendingMark.contains character || CharacterClass.unassigned.contains character

/-- The written form of one character between quotes. -/
def quotedCharacter (character : Char) : String :=
  if character == '"' then "\\\""
  else if character == '\\' then "\\\\"
  else if character == '\n' then "\\n"
  else if character == '\r' then "\\r"
  else if character == '\t' then "\\t"
  else if character.toNat == 0 then "\\0"
  else if isConcealed character then "\\u\x7b" ++ hexDigits character.toNat ++ "\x7d"
  else character.toString

def quoted (text : String) : String :=
  "\"" ++ String.join (text.toList.map quotedCharacter) ++ "\""

end RiscvMachine
