import AccessCache.Cache.Tabled
import AccessCache.Memory.Credentials
import AccessCache.Memory.Links
import AccessCache.Memory.Roles

/-!
# Caches in memory

The five caches over tables in memory. They never fail and take no time.
-/

namespace AccessCache.Memory

/-- The tables of the five caches. -/
abbrev State := Tables Credentials Links Roles

def empty : State := ⟨⟨.empty, {}⟩, ⟨∅, {}⟩, ⟨∅, {}⟩, ⟨∅, {}⟩, ⟨.empty, {}⟩⟩

def caches : Caches State := Tables.caches credentialTable linkTable roleTable

/-- The size of each table. -/
def sizes (s : State) : List Nat :=
  [s.credentials.table.size, s.deviceGroups.table.size, s.profileGroups.table.size,
    s.groupOrgs.table.size, s.roles.table.size]

end AccessCache.Memory
