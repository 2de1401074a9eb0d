import AccessCache.Text.Extending
import AccessCache.Text.Unprintable

/-!
# Quoted text

The diagnostic form of a text: between double quotes, with quotes and backslashes escaped, and with
the number of every character that would not be seen as one of its own.
-/

namespace AccessCache.Text

/-- The digits of a number in base 16, in lower case. -/
def hexDigits (n : Nat) : List Char := Nat.toDigits 16 n

/-- The characters that a diagnostic shows by their numbers. -/
def isHidden (c : Char) : Bool := isExtending c || isUnprintable c

/-- One character as it stands inside quotes. -/
def escaped (c : Char) : List Char :=
  if c = '"' then ['\\', '"']
  else if c = '\\' then ['\\', '\\']
  else if c = '\n' then ['\\', 'n']
  else if c = '\r' then ['\\', 'r']
  else if c = '\t' then ['\\', 't']
  else if c = '\x00' then ['\\', '0']
  else if isHidden c then ['\\', 'u', '\x7b'] ++ hexDigits c.toNat ++ ['\x7d']
  else [c]

/-- The text between double quotes. -/
def quoted (s : String) : String :=
  String.ofList ('"' :: s.toList.flatMap escaped ++ ['"'])

end AccessCache.Text
