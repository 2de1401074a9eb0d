/-!
# Paths

A path is a text of names with slashes between them. Repeated slashes, slashes at the end and names
of a single dot lead nowhere else, except that a dot in front of a relative path is kept: two paths
agree when the same components are left of both. Names of two dots are kept as they are.
-/

namespace AccessCache.Path

/-- Where a path starts. -/
inductive Start where
  /-- At the root, with a slash. -/
  | root
  /-- Where one is, with a dot. -/
  | here
  /-- With the first name. -/
  | name
  deriving DecidableEq

/-- What is left of a path without the parts that lead nowhere. -/
structure Components where
  start : Start
  names : List (List Char)
  deriving DecidableEq

/-- Puts one character in front of parts; a slash ends the part in front of it. -/
def extend (c : Char) : List (List Char) → List (List Char)
  | [] => [[c]]
  | p :: ps => if c = '/' then [] :: p :: ps else (c :: p) :: ps

/-- The parts between the slashes. -/
def split (cs : List Char) : List (List Char) := cs.foldr extend [[]]

def start : List Char → Start
  | '/' :: _ => .root
  | ['.'] => .here
  | '.' :: '/' :: _ => .here
  | _ => .name

/-- Whether a part leads anywhere. -/
def isName (p : List Char) : Bool := p ≠ [] && p ≠ ['.']

def components (path : String) : Components where
  start := start path.toList
  names := (split path.toList).filter isName

/-- Two paths agree in all their components. -/
def Agree (p q : String) : Prop := components p = components q

instance (p q : String) : Decidable (Agree p q) := inferInstanceAs (Decidable (_ = _))

end AccessCache.Path
