import AccessCache.Text.Quoted

/-!
# Writing documents

Documents are written without blanks, members in the order given. Inside a text only the quote,
the backslash and the characters below U+0020 are escaped.
-/

namespace AccessCache.Json.Printer

/-- A digit in base 16, in lower case. -/
def hexDigit (n : Nat) : Char := Nat.digitChar (n % 16)

/-- One character as it stands inside a text. -/
def escape (c : Char) : List Char :=
  if c = '"' then ['\\', '"']
  else if c = '\\' then ['\\', '\\']
  else if c = '\x08' then ['\\', 'b']
  else if c = '\t' then ['\\', 't']
  else if c = '\n' then ['\\', 'n']
  else if c = '\x0c' then ['\\', 'f']
  else if c = '\r' then ['\\', 'r']
  else if c.toNat < 0x20 then ['\\', 'u', '0', '0', hexDigit (c.toNat / 16), hexDigit c.toNat]
  else [c]

def text (s : String) : List Char := '"' :: s.toList.flatMap escape ++ ['"']

def natural (n : Nat) : List Char := Nat.toDigits 10 n

def array (items : List (List Char)) : List Char := '[' :: [','].intercalate items ++ [']']

def member (m : String × List Char) : List Char := text m.1 ++ ':' :: m.2

def object (members : List (String × List Char)) : List Char :=
  '{' :: [','].intercalate (members.map member) ++ ['}']

end AccessCache.Json.Printer
