import AccessCache.Bytes
import AccessCache.Text.Quoted
import AccessCache.Decimal.Shortest

/-!
# Failures of reading

Why a text is not read as a document: it is not a document at all, it ends early, or it is a
document of another shape than the one wanted. A failure knows its place by the bytes that follow,
and is put into words together with the text.
-/

namespace AccessCache.Json

/-! ## Mismatches -/

/-- What stands where something else was wanted. -/
inductive Found where
  | null
  | boolean (b : Bool)
  | integer (i : Int)
  | float (x : Float)
  | text (s : String)
  | sequence
  | map

def Found.describe : Found → String
  | null => "null"
  | boolean b => "boolean `" ++ toString b ++ "`"
  | integer i => "integer `" ++ toString i ++ "`"
  | float x => "floating point `" ++ Decimal.text x ++ "`"
  | text s => "string " ++ Text.quoted s
  | sequence => "sequence"
  | map => "map"

/-- How a document differs from the wanted shape. -/
inductive Mismatch where
  | missingField (name : String)
  | duplicateField (name : String)
  | unknownField (name : String) (known : List String)
  | unknownVariant (name : String) (known : List String)
  | invalidType (found : Found) (wanted : String)
  | invalidValue (found : Found) (wanted : String)
  | invalidLength (length : Nat) (wanted : String)
  /-- A duration whose seconds leave 64 bits. -/
  | durationOverflow

/-- The known names, each in backquotes: two are joined by "or". -/
def oneOf : List String → String
  | [a, b] => "`" ++ a ++ "` or `" ++ b ++ "`"
  | [a] => "`" ++ a ++ "`"
  | names => "one of " ++ ", ".intercalate (names.map fun a => "`" ++ a ++ "`")

def Mismatch.message : Mismatch → String
  | missingField n => "missing field `" ++ n ++ "`"
  | duplicateField n => "duplicate field `" ++ n ++ "`"
  | unknownField n known => "unknown field `" ++ n ++ "`, expected " ++ oneOf known
  | unknownVariant n known => "unknown variant `" ++ n ++ "`, expected " ++ oneOf known
  | invalidType f wanted => "invalid type: " ++ f.describe ++ ", expected " ++ wanted
  | invalidValue f wanted => "invalid value: " ++ f.describe ++ ", expected " ++ wanted
  | invalidLength n wanted => "invalid length " ++ toString n ++ ", expected " ++ wanted
  | durationOverflow => "overflow deserializing Duration"

/-! ## Flaws -/

/-- What a text breaks off in. -/
inductive Unfinished where
  | value
  | text
  | array
  | object

def Unfinished.message : Unfinished → String
  | value => "EOF while parsing a value"
  | text => "EOF while parsing a string"
  | array => "EOF while parsing a list"
  | object => "EOF while parsing an object"

/-- How a text fails to be a document. -/
inductive Flaw where
  | noValue
  | noWord
  | noColon
  /-- An element that no comma or bracket follows. -/
  | openArray
  /-- A member that no comma or bracket follows. -/
  | openObject
  /-- The name of a member that is no text. -/
  | bareName
  | trailingComma
  /-- Something follows where the document is complete. -/
  | trailing
  | controlCharacter
  /-- A text whose bytes are not UTF-8. -/
  | badText
  | badEscape
  /-- A unit of a pair without the other. -/
  | loneUnit
  /-- A leading unit that no second escape follows. -/
  | brokenPair
  | badNumber
  | outOfRange
  | tooDeep

def Flaw.message : Flaw → String
  | noValue => "expected value"
  | noWord => "expected ident"
  | noColon => "expected `:`"
  | openArray => "expected `,` or `]`"
  | openObject => "expected `,` or `\x7d`"
  | bareName => "key must be a string"
  | trailingComma => "trailing comma"
  | trailing => "trailing characters"
  | controlCharacter =>
    "control character (\\u0000-\\u001F) found while parsing a string"
  | badText => "invalid unicode code point"
  | badEscape => "invalid escape"
  | loneUnit => "lone leading surrogate in hex escape"
  | brokenPair => "unexpected end of hex escape"
  | badNumber => "invalid number"
  | outOfRange => "number out of range"
  | tooDeep => "recursion limit exceeded"

/-! ## Failures -/

/-- What stops a reader. -/
inductive Obstacle where
  | malformed (f : Flaw)
  | truncated (u : Unfinished)
  | mismatch (m : Mismatch)

def Obstacle.message : Obstacle → String
  | malformed f => f.message
  | truncated u => u.message
  | mismatch m => m.message

/-- Why a text was not read, and how many of its bytes follow the place. -/
structure Failure where
  obstacle : Obstacle
  left : Nat

/-- The line and the column of the place in a text that `left` bytes follow. Lines count from 1,
and columns are the bytes since the line began. -/
def place (text : Bytes) (left : Nat) : Nat × Nat :=
  let before := text.take (text.length - left)
  (before.count 10 + 1, (before.reverse.takeWhile (· ≠ 10)).length)

/-- The failure of reading `text`, in words. -/
def Failure.message (f : Failure) (text : Bytes) : String :=
  let (line, column) := place text f.left
  f.obstacle.message ++ " at line " ++ toString line ++ " column " ++ toString column

end AccessCache.Json
