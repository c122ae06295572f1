import Mathlib.Data.List.Induction
import Trpi.CodingAgent.Migration
import Trpi.CodingAgent.SessionAppends

/-!
# Sessions whose writes do not throw

As long as no write throws, memory and file agree: the file, once there is one, holds the
entries in memory, and each was appended below an entry that was there. A write that throws
has changed the memory before.
-/

namespace Trpi.CodingAgent

open Library List

variable {N : Type}

def Present (entries : List (FileEntry N)) (id : String) : Prop :=
  ∃ e ∈ entries, e.isSession = false ∧ e.id = some id

variable {entries : List (FileEntry N)} {i : SessionIndex N} {e : FileEntry N} {id : String}

theorem Present.append (present : Present entries id) (more : List (FileEntry N)) :
    Present (entries ++ more) id := by
  obtain ⟨e, mem, facts⟩ := present
  exact ⟨e, mem_append_left _ mem, facts⟩

/-- Appended entries, each below one that was there. -/
inductive Parented (base : List (FileEntry N)) : List (FileEntry N) → Prop where
  | nil : Parented base []
  | snoc {returned : List (FileEntry N)} {e : FileEntry N} (before : Parented base returned)
      (parent : ∀ id, e.parentId = some id → Present (base ++ returned) id) :
      Parented base (returned ++ [e])

theorem Parented.last {base returned whole : List (FileEntry N)} (parented : Parented base whole)
    (last : whole = returned ++ [e])
    (parent : e.parentId = some id) : Present (base ++ returned) id := by
  cases parented with
  | nil => exact absurd last (append_ne_nil_of_right_ne_nil _ (cons_ne_nil _ _)).symm
  | snoc before present =>
    obtain ⟨rfl, same⟩ := append_inj' last rfl
    cases same
    exact present id parent

structure Indexes (i : SessionIndex N) (entries : List (FileEntry N)) : Prop where
  known : ∀ id, i.byId.contains (some id) = true → Present entries id
  leaf : ∀ id, i.leafId = .entry id → Present entries id

theorem Indexes.set (indexes : Indexes i entries) (plain : e.isSession = false) :
    Indexes { i with byId := i.byId.set e.id e, leafId := LeafId.of e.id } (entries ++ [e]) := by
  have self : ∀ id, e.id = some id → Present (entries ++ [e]) id := by
    intro id same
    exact ⟨e, mem_append_right _ (mem_singleton_self _), plain, same⟩
  constructor
  · intro id contained
    rw [InsertionMap.contains_set, Bool.or_eq_true, decide_eq_true_eq] at contained
    rcases contained with before | same
    · exact (indexes.known id before).append _
    · exact self id same.symm
  · intro id leaf
    cases own : e.id with
    | none =>
      rw [own] at leaf
      cases leaf
    | some other =>
      rw [own] at leaf
      cases leaf
      exact self id own

theorem Indexes.setLabel [JsonNumber N] (indexes : Indexes i entries)
    (targetId : Option String) (label timestamp : Option (Json N)) :
    Indexes (i.setLabel targetId label timestamp) entries := by
  unfold SessionIndex.setLabel
  split
  · exact ⟨indexes.known, indexes.leaf⟩
  split
  · exact ⟨indexes.known, indexes.leaf⟩
  · exact ⟨indexes.known, indexes.leaf⟩

theorem indexes_empty : Indexes (N := N) .empty [] := by
  constructor
  · intro id contained
    cases contained
  · intro id leaf
    cases leaf

variable [JsonNumber N]

theorem Indexes.add (indexes : Indexes i entries) (e : FileEntry N) :
    Indexes (i.add e) (entries ++ [e]) := by
  rw [SessionIndex.add]
  split
  · constructor
    · intro id contained
      exact (indexes.known id contained).append _
    · intro id leaf
      exact (indexes.leaf id leaf).append _
  · rename_i plain
    have set := indexes.set (Bool.eq_false_iff.mpr plain)
    dsimp only
    split
    · exact set.setLabel _ _ _
    · exact set

theorem indexes_build (entries : List (FileEntry N)) :
    Indexes (SessionIndex.build entries) entries := by
  induction entries using reverseRecOn with
  | nil => exact indexes_empty
  | append_singleton entries e ih =>
    rw [SessionIndex.build, foldl_append]
    exact ih.add e

def Filed (s : OpenSession N) : Prop :=
  match s.file with
  | none =>
    s.manager.persist = false ∨
      (s.manager.flushed = false ∧ s.manager.fileEntries.any (·.isAssistant) = false)
  | some bytes =>
    s.manager.persist = true ∧ s.manager.flushed = true ∧ Holds bytes s.manager.fileEntries

structure Consistent (s : OpenSession N) : Prop where
  header : ∃ header rest, s.manager.fileEntries = header :: rest ∧ isHeader header = true
  truthy : ∀ e ∈ s.manager.fileEntries, e.json.truthy = true
  current : CURRENT_SESSION_VERSION ≤ fileVersion s.manager.fileEntries
  indexes : Indexes s.manager.toSessionIndex s.manager.fileEntries
  filed : Filed s

def OpenSession.writes (s : OpenSession N) (assistant : Bool) : Bool :=
  s.manager.persist && (s.manager.flushed || s.manager.fileEntries.any (·.isAssistant) || assistant)

/-- The file of a consistent session is opened as what the session has in memory. -/
theorem Consistent.openFile {s : OpenSession N} (consistent : Consistent s) {bytes : List UInt8}
    (file : s.file = some bytes) (sources : Nat → IdSource) (header : FileEntry N) :
    OpenSession.openFile sources header bytes =
      some
        { manager :=
            { SessionIndex.build s.manager.fileEntries with
              persist := true, flushed := true, fileEntries := s.manager.fileEntries }
          file := some bytes } := by
  have filed := consistent.filed
  rw [Filed, file] at filed
  obtain ⟨-, -, holds⟩ := filed
  obtain ⟨first, rest, entries, -⟩ := consistent.header
  have some_ : s.manager.fileEntries ≠ [] := by
    rw [entries]
    exact cons_ne_nil _ _
  rw [OpenSession.openFile, holds.load]
  dsimp only
  rw [if_neg some_, SessionManager.loadEntries, migrateToCurrentVersion]
  dsimp only
  rw [if_pos consistent.current]
  rfl

section

variable {s : OpenSession N} {e : FileEntry N} {fault : Option Nat}

def OpenSession.remember (s : OpenSession N) (e : FileEntry N) : OpenSession N :=
  { s with
    manager :=
      { s.manager with
        fileEntries := s.manager.fileEntries ++ [e]
        byId := s.manager.byId.set e.id e
        leafId := LeafId.of e.id } }

theorem appendEntry_eq (fault : Option Nat) :
    s.appendEntry e fault = (s.remember e).persistEntry e fault := rfl

section

variable (s : OpenSession N)

/-- The entries in memory grow by the entry, whether the write throws or not. -/
theorem manager_persistEntry (e : FileEntry N) (fault : Option Nat) :
    (s.persistEntry e fault).1.manager.toSessionIndex =
        s.manager.toSessionIndex ∧
      (s.persistEntry e fault).1.manager.fileEntries = s.manager.fileEntries ∧
      (s.persistEntry e fault).1.manager.persist = s.manager.persist := by
  have appended : ∀ bytes, (s.appendFile bytes fault).1.manager = s.manager := by
    intro bytes
    cases fault <;> rfl
  unfold OpenSession.persistEntry
  split
  · exact ⟨rfl, rfl, rfl⟩
  split
  · split
    · rw [appended]
      exact ⟨rfl, rfl, rfl⟩
    · exact ⟨rfl, rfl, rfl⟩
  split
  · split <;> exact ⟨rfl, rfl, rfl⟩
  · rw [appended]
    exact ⟨rfl, rfl, rfl⟩

theorem persistEntry_memory (memory : s.manager.persist = false) (fault : Option Nat) :
    s.persistEntry e fault = (s, true) := by
  unfold OpenSession.persistEntry
  rw [if_pos memory]

theorem persistEntry_deferred (unflushed : s.manager.flushed = false)
    (unanswered : s.manager.fileEntries.any (·.isAssistant) = false) (fault : Option Nat) :
    s.persistEntry e fault = (s, true) := by
  unfold OpenSession.persistEntry
  rw [if_pos unanswered, unflushed, if_neg Bool.false_ne_true, ite_self]

theorem persistEntry_created (persist : s.manager.persist = true)
    (unflushed : s.manager.flushed = false)
    (answered : s.manager.fileEntries.any (·.isAssistant) = true) (file : s.file = none) :
    s.persistEntry e none =
      ({ manager := { s.manager with flushed := true }
         file := some (entryBytes s.manager.fileEntries) }, true) := by
  unfold OpenSession.persistEntry
  rw [if_neg (by rw [persist]; exact Bool.noConfusion),
    if_neg (by rw [answered]; exact Bool.noConfusion), if_pos unflushed, file]

theorem persistEntry_appended (persist : s.manager.persist = true)
    (flushed : s.manager.flushed = true) (fault : Option Nat) :
    s.persistEntry e fault = s.appendFile (entryBytes [e]) fault := by
  unfold OpenSession.persistEntry
  rw [if_neg (by rw [persist]; exact Bool.noConfusion)]
  split
  · rfl
  · rw [if_neg (by rw [flushed]; exact Bool.noConfusion)]

end

theorem Filed.appendFile (filed : Filed s) {bytes : List UInt8}
    (file : s.file = some bytes) (truthy : e.json.truthy = true) :
    ((s.remember e).appendFile (entryBytes [e]) none).2 = true ∧
      Filed ((s.remember e).appendFile (entryBytes [e]) none).1 := by
  rw [Filed, file] at filed
  obtain ⟨persist, flushed, holds⟩ := filed
  refine ⟨rfl, ?_⟩
  rw [Filed]
  have written : ((s.remember e).appendFile (entryBytes [e]) none).1.file =
      some (bytes ++ entryBytes [e]) := by
    show some (s.file.getD [] ++ _) = _
    rw [file]
    rfl
  rw [written]
  exact ⟨persist, flushed, holds.append truthy⟩

theorem Consistent.persistEntry (consistent : Consistent s) (truthy : e.json.truthy = true)
    (undisturbed : fault = none ∨ s.writes e.isAssistant = false) :
    ((s.remember e).persistEntry e fault).2 = true ∧
      Filed ((s.remember e).persistEntry e fault).1 := by
  have any : (s.remember e).manager.fileEntries.any (·.isAssistant) =
      (s.manager.fileEntries.any (·.isAssistant) || e.isAssistant) := by
    show (s.manager.fileEntries ++ [e]).any _ = _
    rw [any_append, any_cons, any_nil, Bool.or_false]
  have filed := consistent.filed
  cases file : s.file with
  | none =>
    have none_ : (s.remember e).file = none := file
    rw [Filed, file] at filed
    dsimp only at filed
    by_cases memory : s.manager.persist = false
    · rw [persistEntry_memory (s.remember e) memory]
      refine ⟨rfl, ?_⟩
      rw [Filed, none_]
      exact Or.inl memory
    have persist : s.manager.persist = true := (Bool.not_eq_false _).mp memory
    obtain ⟨unflushed, unanswered⟩ := filed.resolve_left memory
    cases assistant : e.isAssistant with
    | false =>
      have still : (s.remember e).manager.fileEntries.any (·.isAssistant) = false := by
        rw [any, unanswered, assistant]
        rfl
      rw [persistEntry_deferred (s.remember e) unflushed still]
      refine ⟨rfl, ?_⟩
      rw [Filed, none_]
      exact Or.inr ⟨unflushed, still⟩
    | true =>
      have answered : (s.remember e).manager.fileEntries.any (·.isAssistant) = true := by
        rw [any, assistant, Bool.or_true]
      have quiet : fault = none := by
        refine undisturbed.resolve_right ?_
        rw [OpenSession.writes, persist, assistant, Bool.or_true]
        exact Bool.noConfusion
      obtain ⟨header, rest, entries, valid⟩ := consistent.header
      have all : (s.remember e).manager.fileEntries = header :: (rest ++ [e]) := by
        show s.manager.fileEntries ++ [e] = _
        rw [entries]
        rfl
      have holds : Holds (entryBytes (header :: (rest ++ [e]))) (header :: (rest ++ [e])) := by
        refine holds_entryBytes valid ?_
        rw [← cons_append, ← entries, forall_mem_append, forall_mem_singleton]
        exact ⟨consistent.truthy, truthy⟩
      rw [quiet, persistEntry_created (s.remember e) persist unflushed answered none_]
      rw [← all] at holds
      exact ⟨rfl, persist, rfl, holds⟩
  | some bytes =>
    have facts := filed
    rw [Filed, file] at facts
    obtain ⟨persist, flushed, -⟩ := facts
    have quiet : fault = none := by
      refine undisturbed.resolve_right ?_
      rw [OpenSession.writes, persist, flushed]
      exact Bool.noConfusion
    rw [quiet, persistEntry_appended (s.remember e) persist flushed]
    exact filed.appendFile file truthy

theorem Consistent.appendEntry (consistent : Consistent s) (object : e.json.isObject = true)
    (plain : e.isSession = false) (undisturbed : fault = none ∨ s.writes e.isAssistant = false) :
    (s.appendEntry e fault).2 = true ∧
      Consistent (s.appendEntry e fault).1 ∧
      (s.appendEntry e fault).1.manager.fileEntries = s.manager.fileEntries ++ [e] := by
  have truthy := Json.truthy_of_isObject object
  obtain ⟨returned, filed⟩ := consistent.persistEntry truthy undisturbed
  obtain ⟨i, entries, -⟩ := manager_persistEntry (s.remember e) e fault
  have grown : (s.appendEntry e fault).1.manager.fileEntries =
      s.manager.fileEntries ++ [e] := entries
  refine ⟨returned, ?_, grown⟩
  obtain ⟨header, rest, before, valid⟩ := consistent.header
  constructor
  · exact ⟨header, rest ++ [e], by rw [grown, before]; rfl, valid⟩
  · rw [grown, forall_mem_append, forall_mem_singleton]
    exact ⟨consistent.truthy, truthy⟩
  · have current := consistent.current
    rw [before] at current
    rw [grown, before, fileVersion_append (Bool.and_eq_true_iff.mp valid).1]
    exact current
  · rw [grown, appendEntry_eq, i]
    exact consistent.indexes.set plain
  · exact filed

theorem Consistent.appendEntry_threw (consistent : Consistent s) {written : Nat}
    (writes : s.writes e.isAssistant = true) :
    (s.appendEntry e (some written)).2 = false ∧
      (s.appendEntry e (some written)).1.manager.fileEntries = s.manager.fileEntries ++ [e] := by
  obtain ⟨-, entries, -⟩ := manager_persistEntry (s.remember e) e (some written)
  refine ⟨?_, entries⟩
  rw [OpenSession.writes, Bool.and_eq_true] at writes
  obtain ⟨persist, needed⟩ := writes
  have filed := consistent.filed
  rw [appendEntry_eq]
  cases flushed : s.manager.flushed with
  | true =>
    rw [persistEntry_appended (s.remember e) persist flushed]
    rfl
  | false =>
    have answered : (s.remember e).manager.fileEntries.any (·.isAssistant) = true := by
      rw [flushed, Bool.false_or] at needed
      show (s.manager.fileEntries ++ [e]).any _ = _
      rw [any_append, any_cons, any_nil, Bool.or_false]
      exact needed
    cases file : s.file with
    | some bytes =>
      rw [Filed, file] at filed
      rw [filed.2.1] at flushed
      cases flushed
    | none =>
      have none_ : (s.remember e).file = none := file
      have kept : (s.remember e).manager.flushed = false := flushed
      have persists : (s.remember e).manager.persist = true := persist
      unfold OpenSession.persistEntry
      rw [persists, answered, kept, none_]
      rfl

end

end Trpi.CodingAgent
