import Mathlib.Data.List.Basic

/-!
# Instance directory

chord/src/services/instances.ts, after the types of chord/src/types.ts that name what a
subscription is for. An entry is a key with its generation and what the owner keeps with it; the
tasks observers run for the entries are left out, an observer is its number.
-/

namespace Trpi.Chord.Services

inductive ServiceMode where
  | singleton | keyed
  deriving DecidableEq

structure ServiceInstanceAddress where
  key : String
  generation : Nat
  deriving DecidableEq

inductive DirectoryError where
  | disposed
  | liveKey (key : String)
  | repeatedGeneration
  deriving DecidableEq

def DirectoryError.message : DirectoryError → String
  | .disposed => "Keyed service directory is disposed"
  | .liveKey key => "Keyed service already has a live instance with key " ++ key
  | .repeatedGeneration => "Keyed service repeated a live generation"

structure DirectoryEntry (α : Type) where
  key : String
  generation : Nat
  content : α
  deriving DecidableEq

/-- Entries in insertion order. -/
structure InstanceDirectory (α : Type) where
  entries : List (DirectoryEntry α)
  observers : List Nat
  ready : Bool
  disposed : Bool

namespace InstanceDirectory

variable {α : Type} {d : InstanceDirectory α} {e : DirectoryEntry α}

def create (ready : Bool) : InstanceDirectory α where
  entries := []
  observers := []
  ready := ready
  disposed := false

def observerCount (d : InstanceDirectory α) : Nat := d.observers.length

def get (d : InstanceDirectory α) (key : String) : Option (DirectoryEntry α) :=
  d.entries.find? fun entry => entry.key = key

def delete (d : InstanceDirectory α) (key : String) : InstanceDirectory α :=
  { d with entries := d.entries.filter fun entry => entry.key ≠ key }

def insert (d : InstanceDirectory α) (entry : DirectoryEntry α) :
    Except DirectoryError (InstanceDirectory α) :=
  if d.disposed then .error .disposed
  else if (d.get entry.key).isSome then .error (.liveKey entry.key)
  else .ok { d with entries := d.entries ++ [entry] }

def replace (d : InstanceDirectory α) (entry : DirectoryEntry α) :
    Except DirectoryError (InstanceDirectory α) :=
  if d.disposed then .error .disposed
  else match d.get entry.key with
    | none => .ok { d with entries := d.entries ++ [entry] }
    | some previous =>
      if previous.generation = entry.generation then .error .repeatedGeneration
      else .ok { d with entries := (d.delete entry.key).entries ++ [entry] }

/-- `remove(entry)` for the entry of this key, if its generation is the given one. -/
def remove (d : InstanceDirectory α) (key : String) (generation : Nat) :
    InstanceDirectory α :=
  match d.get key with
  | none => d
  | some entry => if entry.generation = generation then d.delete key else d

def markReady (d : InstanceDirectory α) : InstanceDirectory α :=
  { d with ready := true }

def reset (d : InstanceDirectory α) : InstanceDirectory α :=
  if d.disposed then d else { d with ready := false, entries := [] }

def observe (d : InstanceDirectory α) (observer : Nat) : InstanceDirectory α :=
  { d with observers := d.observers ++ [observer] }

def unobserve (d : InstanceDirectory α) (observer : Nat) : InstanceDirectory α :=
  { d with observers := d.observers.erase observer }

def dispose (d : InstanceDirectory α) : InstanceDirectory α :=
  if d.disposed then d
  else { d with disposed := true, observers := [], entries := [] }

theorem get_eq_none {key : String} (fresh : ∀ e ∈ d.entries, e.key ≠ key) : d.get key = none := by
  rw [get, List.find?_eq_none]
  intro e mem same
  exact fresh e mem (of_decide_eq_true same)

theorem replace_fresh (fresh : ∀ other ∈ d.entries, other.key ≠ e.key) :
    d.replace e =
      if d.disposed then .error .disposed
      else .ok { d with entries := d.entries ++ [e] } := by
  rw [replace, get_eq_none fresh]

theorem replace_ok {d next : InstanceDirectory α}
    (ok : d.replace e = .ok next) : next.observers = d.observers ∧ next.disposed = d.disposed := by
  unfold replace at ok
  split at ok
  · cases ok
  split at ok
  · cases ok
    exact ⟨rfl, rfl⟩
  split at ok
  · cases ok
  · cases ok
    exact ⟨rfl, rfl⟩

end InstanceDirectory

end Trpi.Chord.Services
