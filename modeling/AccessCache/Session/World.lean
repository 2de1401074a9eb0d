import AccessCache.Authority.Registry
import AccessCache.Cache.Bounded
import AccessCache.Cache.Interference
import AccessCache.Config.Basic
import AccessCache.Disk.Caches
import AccessCache.Memory.Caches

/-!
# Worlds

A world is the tables of one set of caches, a plan of interference with them, and a registry as
the authority. A backend says what the tables are, how the caches work on them, and what is left of
them when they are opened again.
-/

namespace AccessCache

/-- A set of caches on a state of its own. -/
structure Backend where
  State : Type
  caches : Caches State
  fresh : State
  /-- The state after dropping the caches and opening them again. -/
  reopened : State → State
  /-- What opening the caches reports. -/
  opening : List Entry
  /-- The databases behind the cache of each relation, by name. -/
  databases : Relation → List (String × Part State Disk.Database)
  /-- The size of each table, where the tables are at hand. -/
  sizes : State → Option (List Nat)
  /-- How changes go through the groups of members, from the first change on. -/
  tour : Tour := .ascending

namespace Backend

/-- Caches in memory lose their entries. -/
def memory (opening : List Entry) (atHand : Bool) : Backend where
  State := Memory.State
  caches := Memory.caches
  fresh := Memory.empty
  reopened _ := Memory.empty
  opening := opening
  databases _ := []
  sizes t := if atHand then some (Memory.sizes t) else none

/-- Caches on disk keep their entries. -/
def disk (caches : Caches Disk.State) (opening : List Entry) : Backend where
  State := Disk.State
  caches := caches
  fresh := Disk.empty
  reopened := Tables.recounted
  opening := opening
  databases := Disk.databases
  sizes _ := none

/-- Whether there are databases behind the cache of a relation. -/
def hasDatabases (b : Backend) (r : Relation) : Bool := !(b.databases r).isEmpty

end Backend

/-! ## Set-up -/

/-- How the caches of a session are made. The settings decide, with a journal entry and, on disk,
with a deadline for each operation; or the caches are made by hand. -/
inductive Wiring where
  | memory
  | memoryByConfig
  | memoryByHand
  | diskByConfig
  | diskByHand
  deriving DecidableEq

structure Setup where
  wiring : Wiring := .memory
  maxSizeMb : UInt64 := 10
  timeout : Duration := .ofMilliseconds 250
  /-- Whether a file stands where the directory of the stores should be. -/
  rootIsFile : Bool := false
  /-- The deadline of every call, interference included. -/
  deadline : Option Duration := none

namespace Setup

/-- How the root directory is called in the journal. -/
def rootName : String := "<root>"

/-- The backend over stores that have been opened, and what opening them reports. -/
def ofStores (opening : List Entry) (wrap : Caches Disk.State → Caches Disk.State) :
    Except StoreError (Caches Disk.State) → Except CacheError Backend × List Entry
  | .ok caches => (.ok (.disk (wrap caches) opening), opening)
  | .error e =>
    (.error (.unavailable .credential (.store e)), opening ++ [.storeFailed .credential e])

/-- Opens caches on disk, the credentials first. -/
def openDisk (s : Setup) (opening : List Entry) (wrap : Caches Disk.State → Caches Disk.State) :
    Except CacheError Backend × List Entry :=
  ofStores opening wrap (Disk.openStores s.maxSizeMb s.rootIsFile)

/-- The backend of a set-up, and what opening it reports. -/
def backend (s : Setup) : Except CacheError Backend × List Entry :=
  match s.wiring with
  | .memory => (.ok (.memory [] false), [])
  | .memoryByConfig => (.ok (.memory [.memoryOpened] false), [.memoryOpened])
  | .memoryByHand => (.ok (.memory [] true), [])
  | .diskByConfig =>
    s.openDisk [.diskOpened rootName s.maxSizeMb s.timeout] (Caches.bounded s.timeout)
  | .diskByHand => s.openDisk [] id

end Setup

/-! ## Worlds -/

structure World (β : Type) where
  tables : β
  plan : Plan := .clear
  registry : Registry := {}

namespace World

variable {β : Type}

def tablesPart : Part (World β) β where
  get w := w.tables
  set t w := { w with tables := t }

def planPart : Part (World β) Plan where
  get w := w.plan
  set p w := { w with plan := p }

def registryPart : Part (World β) Registry where
  get w := w.registry
  set r w := { w with registry := r }

end World

/-- The caches of a world: interference stands before the caches themselves, and a deadline, if
any, before the interference. -/
def Caches.inWorld {β : Type} (deadline : Option Duration) (c : Caches β) : Caches (World β) :=
  ((c.through (.ofPart World.tablesPart)).through (.interfered World.planPart)).within deadline

end AccessCache
