import AccessCache.Json.Printer
import AccessCache.Json.Record
import AccessCache.Key
import AccessCache.Relation

/-!
# Documents of identifiers

Identifiers and credential keys are documents of their text alone, relations of their label.
-/

namespace AccessCache

open Json

namespace Id

variable {n : Noun}

def print (i : Id n) : List Char := Printer.text i.text

def reader : Reader (Id n) := Id.mk <$> Reader.string

end Id

namespace CredentialKey

def print (k : CredentialKey) : List Char := Printer.text k.secret

def reader : Reader CredentialKey := CredentialKey.mk <$> Reader.string

end CredentialKey

namespace Relation

def print (r : Relation) : List Char := Printer.text r.label

def reader : Reader Relation := Reader.choice (all.map fun r => (r.label, r))

end Relation

end AccessCache
