import AccessCache.Text.Quoted
import Std.Data.ExtTreeSet

/-!
# Identifiers

Identifiers are opaque texts owned by the authority; any text is one, the empty text included.
Each noun has identifiers of its own, so a device never stands where a group is meant. A
credential key is kept apart from them: it has no text for readers beyond `redacted`.
-/

namespace AccessCache

/-- The nouns that identifiers name. A role is a label rather than a thing. -/
inductive Noun where
  | device
  | profile
  | group
  | org
  | member
  | role
  deriving DecidableEq, Repr

namespace Noun

def all : List Noun := [device, profile, group, org, member, role]

/-- The name of the type of identifiers, as written before a quoted identifier. -/
def typeName : Noun → String
  | device => "DeviceId"
  | profile => "ProfileId"
  | group => "GroupId"
  | org => "OrgId"
  | member => "MemberId"
  | role => "Role"

end Noun

/-- An identifier of the noun `n`. -/
structure Id (n : Noun) where
  text : String
  deriving DecidableEq

abbrev DeviceId := Id .device
abbrev ProfileId := Id .profile
abbrev GroupId := Id .group
abbrev OrgId := Id .org
abbrev MemberId := Id .member
abbrev Role := Id .role

/-- The secret that a device presents. -/
structure CredentialKey where
  secret : String
  deriving DecidableEq

namespace Id

variable {n : Noun}

theorem text_inj {i j : Id n} (h : i.text = j.text) : i = j := by
  cases i; cases j; exact congrArg _ h

/-- Identifiers are ordered as their texts are, by code point. -/
instance : Ord (Id n) := ⟨compareOn text⟩

theorem compare_def (i j : Id n) : compare i j = compare i.text j.text := rfl

instance : Std.TransOrd (Id n) := inferInstanceAs (Std.TransCmp (compareOn text))

instance : Std.LawfulEqOrd (Id n) where
  eq_of_compare {i j} h := text_inj (by simpa [compare_def] using h)

/-- The identifiers in order, each once. -/
def distinct (ids : List (Id n)) : List (Id n) := (Std.ExtTreeSet.ofList ids).toList

/-- The identifier with its type's name, for diagnostics. -/
def debug (i : Id n) : String := n.typeName ++ "(" ++ Text.quoted i.text ++ ")"

end Id

namespace CredentialKey

theorem secret_inj {k l : CredentialKey} (h : k.secret = l.secret) : k = l := by
  cases k; cases l; exact congrArg _ h

/-- Keys are ordered as their secrets are. -/
instance : Ord CredentialKey := ⟨compareOn secret⟩

theorem compare_def (k l : CredentialKey) : compare k l = compare k.secret l.secret := rfl

instance : Std.TransOrd CredentialKey := inferInstanceAs (Std.TransCmp (compareOn secret))

instance : Std.LawfulEqOrd CredentialKey where
  eq_of_compare {k l} h := secret_inj (by simpa [compare_def] using h)

/-- The keys in order, each once. -/
def distinct (ks : List CredentialKey) : List CredentialKey := (Std.ExtTreeSet.ofList ks).toList

/-- All that diagnostics may show of a key: its length in bytes. -/
def redacted (k : CredentialKey) : String :=
  "CredentialKey(<redacted, " ++ toString k.secret.utf8ByteSize ++ " bytes>)"

/-- The text that stands for any key in messages. -/
def placeholder : String := "<credential>"

end CredentialKey

end AccessCache
