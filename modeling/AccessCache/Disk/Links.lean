import AccessCache.Disk.Record
import AccessCache.Table

/-!
# Links on disk

One database holds the record of each child, under the child's part. A record counts only for the
child that it holds.
-/

namespace AccessCache.Disk

/-- The records of the children. -/
structure Links where
  links : Database

namespace Links

variable {c p : Noun}

def empty : Links := ⟨∅⟩

def save (capacity : Option Nat) (child : Id c) (parent : Id p) (t : Links) :
    Except StoreError Links := do
  let links ← t.links.put capacity (Key.part child.text) (Record.encode ⟨child, parent⟩)
  pure ⟨links⟩

def find (child : Id c) (t : Links) : Except StoreError (Option (Id p)) :=
  t.links.value? (Key.part child.text) child

/-- Removes whatever stands under the child's part. -/
def remove (child : Id c) (t : Links) : Bool × Links :=
  (t.links.contains (Key.part child.text), ⟨t.links.erase (Key.part child.text)⟩)

def size (t : Links) : Nat := t.links.size

end Links

def linkTable (capacity : Option Nat) (c p : Noun) : LinkTable Links c p where
  save := Links.save capacity
  find := Links.find
  remove child t := .ok (t.remove child)
  size := Links.size

end AccessCache.Disk
