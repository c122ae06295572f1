import Mathlib.Data.List.Induction
import Mathlib.Data.List.Nodup
import Mathlib.Logic.Function.Basic
import Trpi.CodingAgent.SettingsWrites
import Trpi.Library.JsonInt

/-!
# Concurrent settings writers

`FileSettingsStorage.withLock` of coding-agent/src/core/settings-manager.ts, one system call
at a time, run by any number of processes on one path. The lock admits one holder. Making the
directory changes no settings file and is left out.
-/

namespace Trpi.CodingAgent

open Library List Function

/-- Where a call of `withLock` is. A file that is there is locked before it is read; where
there is none the function has already run when the lock is asked for. -/
inductive LockStage (α : Type) where
  | checking
  | locking
  | reading
  | computed (next : Option α)
  | missing (next : α)
  | creating (next : α)
  | releasing
  | done
  | refused

structure LockCall (K α : Type) where
  call : K
  stage : LockStage α

/-- The file of one path and the calls on it. `order` are the calls that took effect, in the
order they did; `initial` is what the file was at first. -/
structure StorageWorld (K α : Type) where
  file : Option α
  lock : Option Nat
  calls : Nat → Option (LockCall K α)
  order : List (Nat × K)
  initial : Option α

/-- The next system call of a process. -/
inductive StorageEvent (K : Type) where
  | begin (id : Nat) (call : K)
  | existsSync (id : Nat)
  | lockSync (id : Nat)
  | giveUp (id : Nat)
  | readFileSync (id : Nat)
  | writeFileSync (id : Nat)
  | release (id : Nat)

namespace StorageWorld

variable {K α : Type}

def start (file : Option α) : StorageWorld K α := ⟨file, none, fun _ => none, [], file⟩

def move (w : StorageWorld K α) (id : Nat) (call : K) (stage : LockStage α) :
    StorageWorld K α :=
  { w with calls := Function.update w.calls id (some ⟨call, stage⟩) }

def effect (w : StorageWorld K α) (id : Nat) (call : K) : StorageWorld K α :=
  { w with order := w.order ++ [(id, call)] }

section

variable (run : K → Option α → Option α)

/-- The function of a call is given what the file holds and gives what is to be written; it
gives nothing where it returns `undefined` or throws. -/
def step (w : StorageWorld K α) : StorageEvent K → Option (StorageWorld K α)
  | .begin id call =>
    match w.calls id with
    | none => some (w.move id call .checking)
    | some _ => none
  | .existsSync id =>
    match w.calls id with
    | some ⟨call, .checking⟩ =>
      match w.file, run call none with
      | some _, _ => some (w.move id call .locking)
      | none, some next => some (w.move id call (.missing next))
      | none, none => some ((w.move id call .done).effect id call)
    | _ => none
  | .lockSync id =>
    match w.lock, w.calls id with
    | none, some ⟨call, .locking⟩ => some { w.move id call .reading with lock := some id }
    | none, some ⟨call, .missing next⟩ =>
      some { w.move id call (.creating next) with lock := some id }
    | _, _ => none
  | .giveUp id =>
    match w.calls id with
    | some ⟨call, .locking⟩ => some (w.move id call .refused)
    | some ⟨call, .missing _⟩ => some (w.move id call .refused)
    | _ => none
  | .readFileSync id =>
    match w.calls id with
    | some ⟨call, .reading⟩ => some (w.move id call (.computed (run call w.file)))
    | _ => none
  | .writeFileSync id =>
    match w.calls id with
    | some ⟨call, .computed none⟩ => some ((w.move id call .releasing).effect id call)
    | some ⟨call, .computed (some next)⟩ =>
      some { (w.move id call .releasing).effect id call with file := some next }
    | some ⟨call, .creating next⟩ =>
      some { (w.move id call .releasing).effect id call with file := some next }
    | _ => none
  | .release id =>
    match w.calls id with
    | some ⟨call, .releasing⟩ => some { w.move id call .done with lock := none }
    | _ => none

/-- The calls one after the other, each on what the one before it left. -/
def serial (file : Option α) (order : List (Nat × K)) : Option α :=
  order.foldl (fun file call => (run call.2 file).or file) file

end

end StorageWorld

def storageMachine {K α : Type} (run : K → Option α → Option α) :
    Machine (StorageWorld K α) (StorageEvent K) where
  start w := ∃ file, w = StorageWorld.start file
  step := StorageWorld.step run

namespace LockStage

variable {α : Type}

/-- Between taking and releasing the lock. -/
def holds : LockStage α → Bool
  | .reading | .computed _ | .creating _ | .releasing => true
  | _ => false

/-- The call has done what it does to the file. -/
def effective : LockStage α → Bool
  | .releasing | .done => true
  | _ => false

end LockStage

namespace StorageWorld

variable {K α : Type} {run : K → Option α → Option α} {id : Nat} {call : K}
  {w next : StorageWorld K α}

/-- A call that found no file writes only while there still is none. -/
def keeps (w : StorageWorld K α) : StorageEvent K → Bool
  | .writeFileSync id =>
    match w.calls id with
    | some ⟨_, .creating _⟩ => w.file.isNone
    | _ => true
  | _ => true

/-- What one call does next, where a file is created only while there is none. -/
inductive Took (run : K → Option α → Option α) (world : StorageWorld K α) (id : Nat) (call : K) :
    StorageWorld K α → Prop where
  | begun (fresh : world.calls id = none) : Took run world id call (world.move id call .checking)
  | found (here : world.calls id = some ⟨call, .checking⟩) :
      Took run world id call (world.move id call .locking)
  | missing {next : α} (here : world.calls id = some ⟨call, .checking⟩)
      (computed : run call none = some next) :
      Took run world id call (world.move id call (.missing next))
  | nothing (here : world.calls id = some ⟨call, .checking⟩) (absent : world.file = none)
      (computed : run call none = none) :
      Took run world id call ((world.move id call .done).effect id call)
  | locked (here : world.calls id = some ⟨call, .locking⟩) (free : world.lock = none) :
      Took run world id call { world.move id call .reading with lock := some id }
  | creating {next : α} (here : world.calls id = some ⟨call, .missing next⟩)
      (free : world.lock = none) :
      Took run world id call { world.move id call (.creating next) with lock := some id }
  | gaveUp {stage : LockStage α} (here : world.calls id = some ⟨call, stage⟩)
      (waiting : stage.effective = false) : Took run world id call (world.move id call .refused)
  | read (here : world.calls id = some ⟨call, .reading⟩) :
      Took run world id call (world.move id call (.computed (run call world.file)))
  | kept (here : world.calls id = some ⟨call, .computed none⟩) :
      Took run world id call ((world.move id call .releasing).effect id call)
  | wrote {next : α} (here : world.calls id = some ⟨call, .computed (some next)⟩) :
      Took run world id call
        { (world.move id call .releasing).effect id call with file := some next }
  | created {next : α} (here : world.calls id = some ⟨call, .creating next⟩)
      (absent : world.file = none) :
      Took run world id call
        { (world.move id call .releasing).effect id call with file := some next }
  | released (here : world.calls id = some ⟨call, .releasing⟩) :
      Took run world id call { world.move id call .done with lock := none }

theorem took_of_step {w : StorageWorld K α} {ev : StorageEvent K} (ok : w.keeps ev = true)
    (taken : w.step run ev = some next) : ∃ id call, Took run w id call next := by
  cases ev with
  | begin id call =>
    rw [step] at taken
    split at taken
    · rename_i fresh
      cases taken
      exact ⟨id, call, .begun fresh⟩
    · cases taken
  | existsSync id =>
    rw [step] at taken
    split at taken
    · rename_i call here
      split at taken
      · cases taken
        exact ⟨id, call, .found here⟩
      · rename_i computed
        cases taken
        exact ⟨id, call, .missing here computed⟩
      · rename_i absent computed
        cases taken
        exact ⟨id, call, .nothing here absent computed⟩
    · cases taken
  | lockSync id =>
    rw [step] at taken
    split at taken
    · rename_i call free here
      cases taken
      exact ⟨id, call, .locked here free⟩
    · rename_i call next free here
      cases taken
      exact ⟨id, call, .creating here free⟩
    · cases taken
  | giveUp id =>
    rw [step] at taken
    split at taken
    · rename_i call here
      cases taken
      exact ⟨id, call, .gaveUp here rfl⟩
    · rename_i call next here
      cases taken
      exact ⟨id, call, .gaveUp here rfl⟩
    · cases taken
  | readFileSync id =>
    rw [step] at taken
    split at taken
    · rename_i call here
      cases taken
      exact ⟨id, call, .read here⟩
    · cases taken
  | writeFileSync id =>
    rw [step] at taken
    split at taken
    · rename_i call here
      cases taken
      exact ⟨id, call, .kept here⟩
    · rename_i call next here
      cases taken
      exact ⟨id, call, .wrote here⟩
    · rename_i call next here
      cases taken
      rw [keeps, here] at ok
      exact ⟨id, call, .created here (Option.isNone_iff_eq_none.mp ok)⟩
    · cases taken
  | release id =>
    rw [step] at taken
    split at taken
    · rename_i call here
      cases taken
      exact ⟨id, call, .released here⟩
    · cases taken

/-- What the lock and the order say about the calls. -/
structure Serialized (run : K → Option α → Option α) (world : StorageWorld K α) : Prop where
  holder : ∀ id call stage, world.calls id = some ⟨call, stage⟩ → stage.holds = true →
    world.lock = some id
  unchanged : ∀ id call next, world.calls id = some ⟨call, .computed next⟩ →
    next = run call world.file
  absent : ∀ id call next, world.calls id = some ⟨call, .missing next⟩ ∨
    world.calls id = some ⟨call, .creating next⟩ → run call none = some next
  file : world.file = serial run world.initial world.order
  once : (world.order.map Prod.fst).Nodup
  effects : ∀ id call, (id, call) ∈ world.order ↔
    ∃ stage, world.calls id = some ⟨call, stage⟩ ∧ stage.effective = true

section

variable (w : StorageWorld K α)

theorem calls_move (id other : Nat) (call : K) (stage : LockStage α) :
    (w.move id call stage).calls other =
      if other = id then some ⟨call, stage⟩ else w.calls other :=
  update_apply _ _ _ _

theorem calls_effect (id : Nat) (call : K) : (w.effect id call).calls = w.calls := rfl

theorem file_effect (id : Nat) (call : K) (stage : LockStage α) :
    ((w.move id call stage).effect id call).file = w.file := rfl

theorem order_effect (id : Nat) (call : K) (stage : LockStage α) :
    ((w.move id call stage).effect id call).order = w.order ++ [(id, call)] := rfl

end

theorem serial_effect (file : Option α) (order : List (Nat × K)) (id : Nat) (call : K) :
    serial run file (order ++ [(id, call)]) =
      (run call (serial run file order)).or (serial run file order) := by
  rw [serial, foldl_append]
  rfl

section

variable {w : StorageWorld K α} (serialized : w.Serialized run) (took : Took run w id call next)

include serialized took

theorem holder_step :
    ∀ other call stage, next.calls other = some ⟨call, stage⟩ → stage.holds = true →
      next.lock = some other := by
  have holder := serialized.holder
  intro other second stage there holds
  cases took <;> simp only [calls_effect, calls_move] at there <;>
    grind [move, effect, LockStage.holds]

/-- Only the holder of the lock writes, so what another call has read is still there. -/
theorem unchanged_step :
    ∀ other call v, next.calls other = some ⟨call, .computed v⟩ → v = run call next.file := by
  have holder := serialized.holder
  have unchanged := serialized.unchanged
  intro other second v there
  cases took <;> simp only [calls_effect, calls_move] at there <;>
    grind [move, effect, LockStage.holds]

theorem absent_step :
    ∀ other call v, next.calls other = some ⟨call, .missing v⟩ ∨
      next.calls other = some ⟨call, .creating v⟩ → run call none = some v := by
  have absent := serialized.absent
  intro other second v there
  cases took <;> simp only [calls_effect, calls_move] at there <;> grind

theorem file_step : next.file = serial run next.initial next.order := by
  have file := serialized.file
  have effect_eq : ∀ v, v = (run call w.file).or w.file →
      v = serial run w.initial (w.order ++ [(id, call)]) := by
    intro v same
    rw [serial_effect, ← file]
    exact same
  cases took with
  | nothing here absent computed =>
    apply effect_eq
    rw [file_effect, absent, computed]
    rfl
  | kept here =>
    apply effect_eq
    rw [file_effect, ← serialized.unchanged id call none here]
    rfl
  | wrote here =>
    apply effect_eq
    rw [← serialized.unchanged id call _ here]
    rfl
  | created here absent =>
    apply effect_eq
    rw [absent, serialized.absent id call _ (.inr here)]
    rfl
  | begun => exact file
  | found => exact file
  | missing => exact file
  | locked => exact file
  | creating => exact file
  | gaveUp => exact file
  | read => exact file
  | released => exact file

end

theorem effects_quiet (serialized : w.Serialized run) {old stage : LockStage α}
    (here : w.calls id = some ⟨call, old⟩) (same : old.effective = stage.effective) :
    ∀ other second, (other, second) ∈ w.order ↔ ∃ new,
      (w.move id call stage).calls other = some ⟨second, new⟩ ∧ new.effective = true := by
  intro other second
  rw [serialized.effects, calls_move]
  grind

theorem effects_begun (serialized : w.Serialized run) (fresh : w.calls id = none) :
    ∀ other second, (other, second) ∈ w.order ↔ ∃ new,
      (w.move id call .checking).calls other = some ⟨second, new⟩ ∧ new.effective = true := by
  intro other second
  rw [serialized.effects, calls_move]
  grind [LockStage.effective]

theorem effects_effect (serialized : w.Serialized run) {old stage : LockStage α}
    (here : w.calls id = some ⟨call, old⟩) (early : old.effective = false)
    (late : stage.effective = true) :
    ((w.order ++ [(id, call)]).map Prod.fst).Nodup ∧
      ∀ other second, (other, second) ∈ w.order ++ [(id, call)] ↔ ∃ new,
        (w.move id call stage).calls other = some ⟨second, new⟩ ∧ new.effective = true := by
  have fresh : ∀ second, (id, second) ∉ w.order := by
    intro second inside
    obtain ⟨new, there, effective⟩ := (serialized.effects id second).mp inside
    grind
  constructor
  · rw [map_append, nodup_append]
    refine ⟨serialized.once, nodup_singleton _, ?_⟩
    intro first inside second last
    obtain ⟨e, listed, rfl⟩ := mem_map.mp inside
    rw [map_singleton, mem_singleton] at last
    rw [last]
    intro same
    have same : e.1 = id := same
    apply fresh e.2
    rw [← same]
    exact listed
  · intro other second
    rw [mem_append, mem_singleton, serialized.effects, calls_move]
    grind

theorem effects_step {w : StorageWorld K α} (serialized : w.Serialized run)
    (took : Took run w id call next) :
    (next.order.map Prod.fst).Nodup ∧ ∀ other call, (other, call) ∈ next.order ↔
      ∃ stage, next.calls other = some ⟨call, stage⟩ ∧ stage.effective = true := by
  have once := serialized.once
  cases took with
  | nothing here => exact effects_effect serialized here rfl rfl
  | kept here => exact effects_effect serialized here rfl rfl
  | wrote here => exact effects_effect serialized here rfl rfl
  | created here => exact effects_effect serialized here rfl rfl
  | begun fresh => exact ⟨once, effects_begun serialized fresh⟩
  | found here => exact ⟨once, effects_quiet serialized here rfl⟩
  | missing here => exact ⟨once, effects_quiet serialized here rfl⟩
  | locked here => exact ⟨once, effects_quiet serialized here rfl⟩
  | creating here => exact ⟨once, effects_quiet serialized here rfl⟩
  | gaveUp here waiting => exact ⟨once, effects_quiet serialized here waiting⟩
  | read here => exact ⟨once, effects_quiet serialized here rfl⟩
  | released here => exact ⟨once, effects_quiet serialized here rfl⟩

theorem serialized_start (file : Option α) : (start file : StorageWorld K α).Serialized run where
  holder := nofun
  unchanged := nofun
  absent := nofun
  file := rfl
  once := nodup_nil
  effects id call := by simp [start]

theorem serialized_inductive :
    (storageMachine run).Inductive (fun w ev => w.keeps ev = true) (Serialized run) where
  start w initial := by
    obtain ⟨file, rfl⟩ := initial
    exact serialized_start file
  step w ev next serialized ok taken := by
    obtain ⟨id, call, took⟩ := took_of_step ok taken
    obtain ⟨once, effects⟩ := effects_step serialized took
    exact ⟨holder_step serialized took, unchanged_step serialized took,
      absent_step serialized took, file_step serialized took, once, effects⟩

/-- The content of the file is that of a serial order of the calls that took effect. -/
def Serial (run : K → Option α → Option α) (w : StorageWorld K α) : Prop :=
  ∃ order : List (Nat × K), (order.map Prod.fst).Nodup ∧
    (∀ id call, (id, call) ∈ order ↔
      ∃ stage, w.calls id = some ⟨call, stage⟩ ∧ stage.effective = true) ∧
    w.file = serial run w.initial order

end StorageWorld

/-- The two users of `withLock`: a load gives nothing to write. -/
inductive SettingsCall (N : Type) where
  | loadFromStorage
  | persistScopedSettings (write : Write N) (sound : write.Sound)

namespace SettingsCall

variable {N : Type}

def run : SettingsCall N → Option (Settings N) → Option (Settings N)
  | .loadFromStorage, _ => none
  | .persistScopedSettings write _, current =>
    some (Trpi.CodingAgent.persistScopedSettings write current)

def Writes : SettingsCall N → Place → Prop
  | .loadFromStorage, _ => False
  | .persistScopedSettings write _, place => write.Carries place

end SettingsCall

variable {N : Type} {file : Option (Settings N)}

/-- A place written by one call has its value, unless another call writes the same place. -/
def FieldsKept (w : StorageWorld (SettingsCall N) (Settings N)) : Prop :=
  ∀ id write sound stage place,
    w.calls id = some ⟨.persistScopedSettings write sound, stage⟩ →
    stage.effective = true → place.Proper → write.Carries place →
    (migrateSettings (w.file.getD [])).read place = write.snapshotSettings.read place ∨
      ∃ other call late, other ≠ id ∧ w.calls other = some ⟨call, late⟩ ∧
        late.effective = true ∧ call.Writes place

open StorageWorld

section

variable (formed : Settings.Formed (file.getD []))

include formed

theorem formed_run
    (call : SettingsCall N) : Settings.Formed (((call.run file).or file).getD []) := by
  cases call with
  | loadFromStorage => exact formed
  | persistScopedSettings write sound =>
    exact persistScopedSettings_formed sound (migrateSettings_formed formed)

theorem formed_serial (order : List (Nat × SettingsCall N)) :
    Settings.Formed ((serial SettingsCall.run file order).getD []) := by
  induction order generalizing file with
  | nil => exact formed
  | cons call rest ih => exact ih (formed_run formed call.2)

theorem read_serial {place : Place}
    (proper : place.Proper) (order : List (Nat × SettingsCall N))
    (written : ∃ call ∈ order, call.2.Writes place) :
    ∃ id write sound, (id, .persistScopedSettings write sound) ∈ order ∧ write.Carries place ∧
      (migrateSettings ((serial SettingsCall.run file order).getD [])).read place =
        write.snapshotSettings.read place := by
  induction order using reverseRecOn with
  | nil =>
    obtain ⟨call, inside, -⟩ := written
    cases inside
  | append_singleton order last ih =>
    rcases last with ⟨id, call⟩
    have early : (∃ call ∈ order, call.2.Writes place) →
        (migrateSettings ((serial SettingsCall.run file (order ++ [(id, call)])).getD [])).read
          place =
        (migrateSettings ((serial SettingsCall.run file order).getD [])).read place →
        ∃ first write sound, (first, .persistScopedSettings write sound) ∈
            order ++ [(id, call)] ∧ write.Carries place ∧
          (migrateSettings ((serial SettingsCall.run file (order ++ [(id, call)])).getD [])).read
            place = write.snapshotSettings.read place := by
      intro written same
      obtain ⟨first, write, sound, inside, carried, v⟩ := ih written
      exact ⟨first, write, sound, mem_append_left _ inside, carried, same.trans v⟩
    rw [serial_effect] at early ⊢
    obtain ⟨writer, inside, writes⟩ := written
    rw [mem_append, mem_singleton] at inside
    cases call with
    | loadFromStorage =>
      rcases inside with listed | rfl
      · exact early ⟨writer, listed, writes⟩ rfl
      · cases writes
    | persistScopedSettings write sound =>
      have after := @read_after_write N (serial SettingsCall.run file order) write place sound
        (migrateSettings_formed (formed_serial formed order)) proper
      by_cases carried : write.Carries place
      · rw [if_pos carried] at after
        exact ⟨id, write, sound, mem_append_right _ mem_cons_self, carried, after⟩
      · rw [if_neg carried] at after
        rcases inside with listed | rfl
        · exact early ⟨writer, listed, writes⟩ after
        · exact absurd writes carried

end

theorem fieldsKept_of_serial {w : StorageWorld (SettingsCall N) (Settings N)}
    (formed : Settings.Formed (w.initial.getD []))
    (serial_ : w.Serial SettingsCall.run) : FieldsKept w := by
  obtain ⟨order, -, effects, file⟩ := serial_
  intro id write sound stage place there effective proper carried
  have inside := (effects id _).mpr ⟨stage, there, effective⟩
  obtain ⟨last, winner, winnerSound, listed, carries, v⟩ :=
    read_serial formed proper order ⟨_, inside, carried⟩
  rw [← file] at v
  obtain ⟨late, thereLast, effectiveLast⟩ := (effects last _).mp listed
  by_cases same : last = id
  · subst same
    rw [there] at thereLast
    cases thereLast
    exact .inl v
  · exact .inr ⟨last, _, late, same, thereLast, effectiveLast, carries⟩

/-- Where a call that found no file writes only while there still is none, the calls are
serial, and a place is lost only to another call that writes it. -/
theorem withLock_serial (N : Type) :
    (∀ (K α : Type) (run : K → Option α → Option α) (w : StorageWorld K α),
      (storageMachine run).Reached (fun w ev => w.keeps ev = true) w →
        w.Serial run) ∧
    ∀ w : StorageWorld (SettingsCall N) (Settings N),
      (storageMachine SettingsCall.run).Reached (fun w ev => w.keeps ev = true)
        w → Settings.Formed (w.initial.getD []) → FieldsKept w := by
  have serial_ : ∀ (K α : Type) (run : K → Option α → Option α) (w : StorageWorld K α),
      (storageMachine run).Reached (fun w ev => w.keeps ev = true) w → w.Serial run := by
    intro K α run w reached
    have serialized := serialized_inductive.reached reached
    exact ⟨w.order, serialized.once, serialized.effects, serialized.file⟩
  exact ⟨serial_, fun w reached formed =>
    fieldsKept_of_serial formed (serial_ _ _ _ w reached)⟩

/-- A write of one text field. -/
def writeOf (name value : String) : Write Int := ⟨[(name, .str value)], [name], []⟩

theorem sound_writeOf {name v : String} (plain : name ∉ "queueMode" :: "websockets" ::
    "steeringMode" :: "transport" :: "skills" :: keyedFields) : (writeOf name v).Sound where
  nested other marked nested := by
    rw [mem_singleton.mp marked] at nested
    exact absurd (mem_cons_of_mem _ nested) (assignField name
      (some (Json.str v : Json Int)) plain).proper
  marks := nofun
  objects := nofun
  values other marked _ := by
    have here := (assignField name (some (Json.str v : Json Int)) plain).assignable
    have found : Json.lookup name (writeOf name v).snapshotSettings = some (.str v) := by
      simp [writeOf, Json.lookup]
    rw [mem_singleton.mp marked, found]
    exact here
  levels marked := by
    have same := mem_singleton.mp marked
    rw [← same] at plain
    exact absurd (by decide) plain

def setsTheme : SettingsCall Int :=
  .persistScopedSettings (writeOf "theme" "dark") (sound_writeOf (by decide))

def setsModel : SettingsCall Int :=
  .persistScopedSettings (writeOf "defaultModel" "m") (sound_writeOf (by decide))

/-- The second call looks at the file after the first one has released it. -/
def inTurn : StorageWorld (SettingsCall Int) (Settings Int) :=
  ((storageMachine SettingsCall.run).exec (fun w event => w.keeps event = true)
    (start none)
    [.begin 0 setsTheme, .begin 1 setsModel, .existsSync 0, .lockSync 0, .writeFileSync 0,
      .release 0, .existsSync 1, .lockSync 1, .readFileSync 1, .writeFileSync 1,
      .release 1]).get (by decide)

theorem withLock_serial_inTurn :
    inTurn.Serial SettingsCall.run ∧ FieldsKept inTurn ∧ inTurn.order.length = 2 := by
  have reached : (storageMachine SettingsCall.run).Reached
      (fun w ev => w.keeps ev = true) inTurn :=
    Machine.Reached.exec (.start ⟨none, rfl⟩) (Option.some_get _).symm
  exact ⟨(withLock_serial Int).1 _ _ _ _ reached, (withLock_serial Int).2 _ reached nofun, rfl⟩

/-- Both calls look before there is a file. -/
def racing : StorageWorld (SettingsCall Int) (Settings Int) :=
  ((storageMachine SettingsCall.run).exec (fun _ _ => True) (start none)
    [.begin 0 setsTheme, .begin 1 setsModel, .existsSync 0, .existsSync 1, .lockSync 0,
      .writeFileSync 0, .release 0, .lockSync 1, .writeFileSync 1, .release 1]).get (by decide)

theorem racing_calls {other : Nat} (first : other ≠ 0) (second : other ≠ 1) :
    racing.calls other = none :=
  calc racing.calls other
    _ = _ := update_of_ne second _ _
    _ = _ := update_of_ne second _ _
    _ = _ := update_of_ne second _ _
    _ = _ := update_of_ne first _ _
    _ = _ := update_of_ne first _ _
    _ = _ := update_of_ne first _ _
    _ = _ := update_of_ne second _ _
    _ = _ := update_of_ne first _ _
    _ = _ := update_of_ne second _ _
    _ = _ := update_of_ne first _ _
    _ = none := rfl

theorem theme_lost : ¬FieldsKept racing := by
  intro kept
  have here : racing.calls 0 = some ⟨setsTheme, .done⟩ := rfl
  have plain : (Place.field "theme").Proper := by decide
  rcases kept 0 _ _ .done (.field "theme") here rfl plain mem_cons_self with
    v | ⟨other, call, stage, apart, there, -, writes⟩
  · cases v
  · by_cases second : other = 1
    · subst second
      have model : racing.calls 1 = some ⟨setsModel, .done⟩ := rfl
      rw [model] at there
      cases there
      exact absurd (mem_singleton.mp writes) (by decide)
    · rw [racing_calls apart second] at there
      cases there

theorem withLock_overwrites :
    ¬∀ w : StorageWorld (SettingsCall Int) (Settings Int),
      (storageMachine SettingsCall.run).Reached (fun _ _ => True) w →
        w.Serial SettingsCall.run := by
  intro serial_
  have reached : (storageMachine SettingsCall.run).Reached (fun _ _ => True) racing :=
    Machine.Reached.exec (.start ⟨none, rfl⟩) (Option.some_get _).symm
  exact theme_lost (fieldsKept_of_serial nofun (serial_ racing reached))

end Trpi.CodingAgent
