import AccessCache.Table
import Std.Data.ExtTreeMap

/-!
# Links in memory

Children with their one parent.
-/

namespace AccessCache.Memory

/-- The parent of each child. -/
abbrev Links (c p : Noun) := Std.ExtTreeMap (Id c) (Id p)

/-- Tables in memory never fail. -/
def linkTable (c p : Noun) : LinkTable (Links c p) c p where
  save child parent t := .ok (t.insert child parent)
  find child t := .ok t[child]?
  remove child t := .ok (t.contains child, t.erase child)
  size t := t.size

end AccessCache.Memory
