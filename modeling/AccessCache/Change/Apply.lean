import AccessCache.Cache.Basic
import AccessCache.Change.Basic

/-!
# Applying changes

A change committed by the authority is carried over to the caches by a few calls in a fixed order:
what is revoked goes before what is granted. The first call that fails ends it, and the change may
then be applied again.
-/

namespace AccessCache

/-- Carries changes over to caches. The groups of a member who leaves are gone through in the
order of a tour, of which every change takes one turn. -/
structure Invalidator (σ : Type) where
  caches : Caches σ
  tour : Tour := .ascending

namespace Invalidator

variable {σ : Type} (i : Invalidator σ)

/-- A step that fails with the error of the first failing call. -/
abbrev Step (σ : Type) := ExceptT CacheError (Act σ)

def removeRoles : List RoleKey → Step σ Unit
  | [] => pure ()
  | k :: ks => do
    (i.caches.roles.remove k).run
    removeRoles ks

/-- The calls that a change makes. -/
def calls : Change → Step σ Unit
  | .deviceConnected k d g => do
    (i.caches.credentials.save k d).run
    (i.caches.deviceGroups.save d g).run
  | .keyRotated d k => do
    (i.caches.credentials.remove d).run
    (i.caches.credentials.save k d).run
  | .deviceRemoved d => do
    (i.caches.credentials.remove d).run
    (i.caches.deviceGroups.remove d).run
  | .deviceReassigned d g => (i.caches.deviceGroups.save d g).run
  | .profileAssigned p g => (i.caches.profileGroups.save p g).run
  | .profileRemoved p => (i.caches.profileGroups.remove p).run
  | .groupAssigned g o => (i.caches.groupOrgs.save g o).run
  | .groupRemoved g ms => do
    (i.caches.groupOrgs.remove g).run
    i.removeRoles (ms.map (⟨g, ·⟩))
  | .roleAssigned g m r => (i.caches.roles.save ⟨g, m⟩ r).run
  | .roleRevoked g m => (i.caches.roles.remove ⟨g, m⟩).run
  | .memberRemoved m => do
    let groups ← (i.caches.roles.membershipsOf m).run
    i.removeRoles ((i.tour.now groups).map (⟨·, m⟩))

/-- Reports a change and makes its calls. -/
def apply (c : Change) : Step σ Unit := do
  (Act.report (.changeApplied c.tag.name) : Act σ Unit)
  i.calls c

end Invalidator

/-- What is left of the tour after so many changes. -/
def Invalidator.after {σ : Type} (i : Invalidator σ) (turns : Nat) : Invalidator σ :=
  { i with tour := i.tour.after turns }

theorem Invalidator.after_zero {σ : Type} (i : Invalidator σ) : i.after 0 = i := by
  simp only [after, Tour.after, Nat.zero_add]

theorem Invalidator.after_after {σ : Type} (i : Invalidator σ) (n m : Nat) :
    (i.after n).after m = i.after (n + m) := by
  simp only [after, Tour.after_after]

/-- Applies changes in order up to the first failure. -/
def Invalidator.applyAll {σ : Type} (i : Invalidator σ) : List Change → Step σ Unit
  | [] => pure ()
  | c :: cs => do
    i.apply c
    (i.after 1).applyAll cs

end AccessCache
