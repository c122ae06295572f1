import Trpi.CodingAgent.SettingsCalls
import Trpi.Library.JsonInt

/-!
# Runs of a settings manager

A touched place is in the file, in a write that waits, or still marked, as long as no failing
write takes the last trace of one.
-/

namespace Trpi.CodingAgent

open Library Settings SettingsManager List

variable {N : Type} {write : Write N}

/-- What the queued writes will leave at a place, if they all succeed and one carries it. -/
def pendingValue : List (Write N) → Place → Option (Option (Json N))
  | [], _ => none
  | write :: rest, place =>
    match pendingValue rest place with
    | some value => some value
    | none => if write.Carries place then some (write.snapshotSettings.read place) else none

theorem pendingValue_append (queue : List (Write N)) (write : Write N) (place : Place) :
    pendingValue (queue ++ [write]) place =
      if write.Carries place then some (write.snapshotSettings.read place)
      else pendingValue queue place := by
  induction queue with
  | nil => rfl
  | cons first rest ih =>
    rw [cons_append, pendingValue, ih, pendingValue]
    split
    · rename_i v found
      by_cases carried : write.Carries place
      · rw [if_pos carried] at found ⊢
        exact found.symm
      · rw [if_neg carried] at found ⊢
        rw [found]
    · rename_i absent
      by_cases carried : write.Carries place
      · rw [if_pos carried] at absent
        cases absent
      · rw [if_neg carried] at absent ⊢
        rw [absent]

theorem pendingValue_eq_none {queue : List (Write N)} {place : Place} :
    pendingValue queue place = none ↔ ∀ write ∈ queue, ¬write.Carries place := by
  induction queue with
  | nil => simp [pendingValue]
  | cons first rest ih =>
    rw [pendingValue, forall_mem_cons, ← ih]
    cases later : pendingValue rest place with
    | some v => simp
    | none => simp

theorem Write.sound_of_unmarked (fields : write.modifiedFields = [])
    (nested : write.modifiedNestedFields = []) : write.Sound where
  nested _ marked := absurd (fields ▸ marked) not_mem_nil
  marks _ _ marked := absurd (nested ▸ marked) not_mem_nil
  objects _ _ marked := absurd (nested ▸ marked) not_mem_nil
  values _ marked := absurd (fields ▸ marked) not_mem_nil
  levels marked := absurd (fields ▸ marked) not_mem_nil

theorem Write.not_carries_of_unmarked (fields : write.modifiedFields = [])
    (nested : write.modifiedNestedFields = []) (place : Place) : ¬write.Carries place := by
  cases place with
  | field name =>
    rw [Write.Carries, fields]
    exact not_mem_nil
  | nested name key =>
    rw [Write.Carries, fields, nested]
    simp

namespace SettingsManager

@[simp] theorem snapshot_save (m : SettingsManager N) : m.save.snapshot = m.snapshot := by
  rw [save]
  split <;> rfl

@[simp] theorem settings_save (m : SettingsManager N) : m.save.settings = m.settings := by
  rw [save]
  split <;> rfl

@[simp] theorem loadError_save (m : SettingsManager N) : m.save.loadError = m.loadError := by
  rw [save]
  split <;> rfl

variable {m : SettingsManager N}

theorem writeQueue_save_failed (failed : m.loadError = true) :
    m.save.writeQueue = m.writeQueue := by
  rw [save, if_pos failed]

theorem writeQueue_save (loaded : m.loadError = false) :
    m.save.writeQueue = m.writeQueue ++ [m.snapshot] := by
  rw [save, if_neg (by simp [loaded])]

theorem mem_writeQueue_save {write : Write N}
    (queued : write ∈ m.save.writeQueue) : write ∈ m.writeQueue ∨ write = m.snapshot := by
  cases loaded : m.loadError with
  | true =>
    rw [writeQueue_save_failed loaded] at queued
    exact .inl queued
  | false =>
    rw [writeQueue_save loaded, mem_append, mem_singleton] at queued
    exact queued

end SettingsManager

namespace SettingsWorld

/-- The place is marked for the next write to be queued. -/
def Marked (w : SettingsWorld N) (place : Place) : Prop :=
  w.manager.snapshot.Carries place

def levelsCurrent (w : SettingsWorld N) (write : Write N) : Prop :=
  "modelThinkingLevels" ∈ write.modifiedFields → ∀ key,
    Place.nested "modelThinkingLevels" key ∉ w.set →
      write.snapshotSettings.read (.nested "modelThinkingLevels" key) =
        w.inFile.read (.nested "modelThinkingLevels" key)

/-- No touched place is forgotten by the failure of the next write: what it carries is still
marked, or carried by a write behind it. -/
def failureKeeps (w : SettingsWorld N) (write : Write N) (rest : List (Write N)) : Prop :=
  ∀ place ∈ w.touched, write.Carries place → w.Marked place ∨ ∃ later ∈ rest, later.Carries place

/-- Another process changes what this manager has not set. -/
def editsOther (w : SettingsWorld N) (content : SettingsDocument N) : Prop :=
  ∀ place ∈ w.touched, (migrateSettings content.settings).read place = w.inFile.read place

/-- The runs in which nothing is forgotten. -/
def Keeps (w : SettingsWorld N) : SettingsEvent N → Prop
  | .call _ => True
  | .write true => ∀ write ∈ w.manager.writeQueue.head?, w.levelsCurrent write
  | .write false => ∀ write ∈ w.manager.writeQueue.head?,
      w.failureKeeps write w.manager.writeQueue.tail
  | .edit content => w.editsOther content
  | .reload _ => True

theorem runWrite_eq {w next : SettingsWorld N} {succeeds : Bool}
    (taken : w.runWrite succeeds = some next) :
    ∃ write rest, w.manager.writeQueue = write :: rest ∧
      next = if succeeds then
          { w with
            manager := ({ w.manager with writeQueue := rest } :
              SettingsManager N).clearModifiedScope
            file := some (persistScopedSettings write w.file)
            lastSucceeded := true }
        else
          { w with
            manager := { w.manager with writeQueue := rest }
            lastSucceeded := false } := by
  unfold runWrite at taken
  split at taken
  · cases taken
  · rename_i write rest queue
    refine ⟨write, rest, queue, ?_⟩
    cases succeeds with
    | true =>
      cases taken
      rfl
    | false =>
      cases taken
      rfl

structure Sane (world : SettingsWorld N) : Prop where
  snapshot : world.manager.snapshot.Sound
  writes : ∀ write ∈ world.manager.writeQueue, write.Sound
  formed : Formed (world.file.getD [])

variable {w : SettingsWorld N} {rest : List (Write N)} {ev : SettingsEvent N} {write : Write N}

theorem Sane.inFile (sane : w.Sane) : Formed w.inFile :=
  migrateSettings_formed sane.formed

theorem formed_nil : Formed ([] : Settings N) := nofun

theorem formed_file (file : Option (SettingsDocument N)) :
    Formed ((file.map SettingsDocument.settings).getD []) := by
  cases file with
  | none => exact formed_nil
  | some content => exact content.formed

theorem sane_start (file : Option (SettingsDocument N)) : (start file).Sane where
  snapshot := Write.sound_of_unmarked rfl rfl
  writes := nofun
  formed := formed_file file

theorem call_cases [JsonNumber N] (w : SettingsWorld N) (assignments : List (Assignment N)) :
    w.call assignments = w ∨
      ∃ m, SettingsManager.Assigned w.manager m
          (assignments.map Assignment.place) ∧
        w.call assignments =
          { w with
            manager := m.save
            touched := if w.manager.loadError then w.touched
              else assignments.map Assignment.place ++ w.touched
            set := assignments.map Assignment.place ++ w.set } := by
  unfold call
  split
  · exact .inl rfl
  · rename_i m all
    exact .inr ⟨m, assigned_assignAll all, rfl⟩

theorem sane_step [JsonNumber N] {w next : SettingsWorld N} (sane : w.Sane)
    (taken : w.step ev = some next) : next.Sane := by
  cases ev with
  | call assignments =>
    cases taken
    rcases w.call_cases assignments with same | ⟨m, assigned, same⟩
    · rw [same]
      exact sane
    · rw [same]
      have sound := assigned.sound sane.snapshot
      refine ⟨by simpa using sound, ?_, sane.formed⟩
      intro write queued
      rcases mem_writeQueue_save queued with early | rfl
      · rw [assigned.writeQueue] at early
        exact sane.writes write early
      · exact sound
  | write succeeds =>
    obtain ⟨write, rest, queue, rfl⟩ := runWrite_eq taken
    have sound : ∀ other ∈ write :: rest, other.Sound := queue ▸ sane.writes
    rw [forall_mem_cons] at sound
    cases succeeds with
    | true =>
      exact ⟨Write.sound_of_unmarked rfl rfl, sound.2,
        persistScopedSettings_formed sound.1 sane.inFile⟩
    | false => exact ⟨sane.snapshot, sound.2, sane.formed⟩
  | edit content =>
    cases taken
    exact ⟨sane.snapshot, sane.writes, content.formed⟩
  | reload loads =>
    cases taken
    refine ⟨Write.sound_of_unmarked rfl rfl, ?_, sane.formed⟩
    cases loads <;> exact sane.writes

def Kept (w : SettingsWorld N) (place : Place) : Prop :=
  match pendingValue w.manager.writeQueue place with
  | some value => value = w.manager.settings.read place
  | none => w.inFile.read place = w.manager.settings.read place ∨ w.Marked place

structure Remembered (world : SettingsWorld N) : Prop where
  proper : ∀ place ∈ world.touched, place.Proper
  unloaded : world.manager.loadError = true → world.touched = []
  kept : ∀ place ∈ world.touched, world.Kept place
  carried : world.manager.loadError = false → ∀ write ∈ world.manager.writeQueue.getLast?,
    ∀ place, world.Marked place → write.Carries place
  unmarked : world.manager.loadError = false → world.manager.writeQueue = [] →
    world.lastSucceeded = true → ∀ place, ¬world.Marked place

theorem Kept.file {place : Place} (kept : w.Kept place) (unmarked : ¬w.Marked place)
    (uncarried : ∀ write ∈ w.manager.writeQueue, ¬write.Carries place) :
    w.inFile.read place = w.manager.settings.read place := by
  rw [Kept, pendingValue_eq_none.mpr uncarried] at kept
  exact kept.resolve_right unmarked

theorem remembered_start (file : Option (SettingsDocument N)) : (start file).Remembered where
  proper := nofun
  unloaded := nofun
  kept := nofun
  carried := nofun
  unmarked _ _ _ := Write.not_carries_of_unmarked rfl rfl

theorem remembered_call [JsonNumber N] (remembered : w.Remembered)
    (assignments : List (Assignment N)) : (w.call assignments).Remembered := by
  rcases w.call_cases assignments with same | ⟨m, assigned, same⟩
  · rw [same]
    exact remembered
  · rw [same]
    cases loaded : w.manager.loadError with
    | true =>
      have failed : m.loadError = true := assigned.loadError.trans loaded
      have untouched : w.touched = [] := remembered.unloaded loaded
      constructor
      all_goals simp [untouched, failed]
    | false =>
      have current : m.loadError = false := assigned.loadError.trans loaded
      have queue := writeQueue_save current
      rw [assigned.writeQueue] at queue
      constructor
      case proper =>
        intro place touched
        rw [if_neg (by simp), mem_append, mem_map] at touched
        rcases touched with ⟨assignment, -, rfl⟩ | early
        · exact assignment.proper
        · exact remembered.proper place early
      case unloaded =>
        intro failed
        simp [current] at failed
      case kept =>
        intro place touched
        rw [if_neg (by simp), mem_append] at touched
        rw [Kept]
        dsimp only
        rw [queue, pendingValue_append, settings_save]
        by_cases carried : m.snapshot.Carries place
        · rw [if_pos carried]
          rfl
        · rw [if_neg carried]
          have outside : place ∉ assignments.map Assignment.place := fun inside =>
            carried (assigned.marked place inside)
          have early := touched.resolve_left outside
          have kept := remembered.kept place early
          rw [Kept] at kept
          rw [assigned.reads place (remembered.proper place early) outside]
          split at kept
          · exact kept
          · exact .inl (kept.resolve_right fun marked => carried (assigned.kept place marked))
      case carried =>
        intro _ write last place marked
        dsimp only at last
        rw [queue, getLast?_append, getLast?_singleton] at last
        cases last
        simpa [Marked] using marked
      case unmarked =>
        intro _ empty
        dsimp only at empty
        rw [queue] at empty
        simp at empty

theorem remembered_write (sane : w.Sane) (remembered : w.Remembered)
    (queue : w.manager.writeQueue = write :: rest) :
    Remembered { w with
      manager := ({ w.manager with writeQueue := rest } : SettingsManager N).clearModifiedScope
      file := some (persistScopedSettings write w.file)
      lastSucceeded := true } where
  proper := remembered.proper
  unloaded := remembered.unloaded
  kept place touched := by
    have sound : write.Sound := sane.writes write (queue ▸ mem_cons_self)
    have kept := remembered.kept place touched
    rw [Kept, queue, pendingValue] at kept
    change match pendingValue rest place with
      | some v => v = w.manager.settings.read place
      | none => (migrateSettings (persistScopedSettings write w.file)).read place =
          w.manager.settings.read place ∨ _
    cases later : pendingValue rest place with
    | some v =>
      rw [later] at kept
      exact kept
    | none =>
      left
      rw [later] at kept
      dsimp only at kept ⊢
      rw [read_after_write sound sane.inFile (remembered.proper place touched)]
      by_cases carried : write.Carries place
      · rw [if_pos carried] at kept ⊢
        exact kept
      · rw [if_neg carried] at kept ⊢
        apply kept.resolve_right
        -- a mark would be carried by the last write of the queue
        intro marked
        have loaded : w.manager.loadError = false := by
          cases failed : w.manager.loadError with
          | false => rfl
          | true =>
            rw [remembered.unloaded failed] at touched
            cases touched
        have last := remembered.carried loaded ((write :: rest).getLast (by simp))
          (by rw [queue]; exact getLast?_eq_getLast_of_ne_nil _) place marked
        have inside := getLast_mem (cons_ne_nil write rest)
        rcases mem_cons.mp inside with first | behind
        · rw [first] at last
          exact carried last
        · exact pendingValue_eq_none.mp later _ behind last
  carried _ _ _ _ marked := absurd marked (Write.not_carries_of_unmarked rfl rfl _)
  unmarked _ _ _ := Write.not_carries_of_unmarked rfl rfl

theorem remembered_fail (remembered : w.Remembered) (queue : w.manager.writeQueue = write :: rest)
    (keeps : w.failureKeeps write rest) :
    Remembered { w with
      manager := { w.manager with writeQueue := rest }
      lastSucceeded := false } where
  proper := remembered.proper
  unloaded := remembered.unloaded
  kept place touched := by
    have kept := remembered.kept place touched
    rw [Kept, queue, pendingValue] at kept
    change match pendingValue rest place with
      | some v => v = w.manager.settings.read place
      | none => w.inFile.read place = w.manager.settings.read place ∨ w.Marked place
    cases later : pendingValue rest place with
    | some v =>
      rw [later] at kept
      exact kept
    | none =>
      rw [later] at kept
      dsimp only at kept ⊢
      by_cases carried : write.Carries place
      · rcases keeps place touched carried with marked | ⟨other, behind, carries⟩
        · exact .inr marked
        · exact absurd carries (pendingValue_eq_none.mp later other behind)
      · rw [if_neg carried] at kept
        exact kept
  carried loaded last inside place marked := by
    apply remembered.carried loaded last _ place marked
    rw [queue, getLast?_cons]
    dsimp only at inside
    rw [Option.mem_def] at inside
    rw [inside]
    rfl
  unmarked _ _ succeeded := by cases succeeded

theorem remembered_step [JsonNumber N] {w next : SettingsWorld N} (sane : w.Sane)
    (remembered : w.Remembered) (keeps : w.Keeps ev)
    (taken : w.step ev = some next) : next.Remembered := by
  cases ev with
  | call assignments =>
    cases taken
    exact remembered_call remembered assignments
  | write succeeds =>
    obtain ⟨write, rest, queue, rfl⟩ := runWrite_eq taken
    cases succeeds with
    | true => exact remembered_write sane remembered queue
    | false =>
      rw [Keeps, queue] at keeps
      exact remembered_fail remembered queue (keeps write rfl)
  | edit content =>
    cases taken
    refine ⟨remembered.proper, remembered.unloaded, ?_, remembered.carried, remembered.unmarked⟩
    intro place touched
    have kept := remembered.kept place touched
    have same : (migrateSettings content.settings).read place = w.inFile.read place :=
      keeps place touched
    rw [Kept] at kept ⊢
    rw [← same] at kept
    exact kept
  | reload loads =>
    cases taken
    have unmarked : ∀ place, ¬(w.reload loads).Marked place :=
      Write.not_carries_of_unmarked rfl rfl
    exact ⟨nofun, fun _ => rfl, nofun, fun _ _ _ place marked => absurd marked (unmarked place),
      fun _ _ _ => unmarked⟩

/-- The places that were never set have their latest values in the file. -/
structure Untouched (world : SettingsWorld N) : Prop where
  fields : ∀ write ∈ world.manager.snapshot :: world.manager.writeQueue,
    ∀ name ∈ write.modifiedFields, ∃ place ∈ world.set, place.parent = name
  keys : ∀ write ∈ world.manager.snapshot :: world.manager.writeQueue,
    ∀ mark ∈ write.modifiedNestedFields, Place.nested mark.1 mark.2 ∈ world.set
  latestField : ∀ name, (∀ place ∈ world.set, place.parent ≠ name) →
    Json.lookup name world.inFile = Json.lookup name (migrateSettings world.edited)
  latestKey : ∀ name ∈ keyedFields, ∀ key, Place.nested name key ∉ world.set →
    world.inFile.read (.nested name key) = (migrateSettings world.edited).read (.nested name key)

theorem untouched_start (file : Option (SettingsDocument N)) : (start file).Untouched where
  fields write queued := by
    rw [mem_singleton.mp queued]
    exact nofun
  keys write queued := by
    rw [mem_singleton.mp queued]
    exact nofun
  latestField _ _ := rfl
  latestKey _ _ _ _ := rfl

theorem untouched_call [JsonNumber N] (untouched : w.Untouched)
    (assignments : List (Assignment N)) : (w.call assignments).Untouched := by
  rcases w.call_cases assignments with same | ⟨m, assigned, same⟩
  · rw [same]
    exact untouched
  · rw [same]
    have writes : ∀ write ∈ m.save.snapshot :: m.save.writeQueue,
        write = m.snapshot ∨ write ∈ w.manager.writeQueue := by
      intro write queued
      rw [snapshot_save] at queued
      rcases mem_cons.mp queued with here | behind
      · exact .inl here
      · rw [← assigned.writeQueue]
        exact (mem_writeQueue_save behind).symm
    constructor
    case fields =>
      intro write queued name marked
      have early : name ∈ w.manager.modifiedFields ∨
          (∃ other ∈ w.manager.writeQueue, name ∈ other.modifiedFields) ∨
            ∃ place ∈ assignments.map Assignment.place, place.parent = name := by
        rcases writes write queued with rfl | behind
        · rcases assigned.fields name marked with before | here
          · exact .inl before
          · exact .inr (.inr here)
        · exact .inr (.inl ⟨write, behind, marked⟩)
      rcases early with before | ⟨other, behind, marked⟩ | ⟨place, inside, same⟩
      · obtain ⟨place, inside, same⟩ := untouched.fields _ mem_cons_self name before
        exact ⟨place, mem_append_right _ inside, same⟩
      · obtain ⟨place, inside, same⟩ :=
          untouched.fields other (mem_cons_of_mem _ behind) name marked
        exact ⟨place, mem_append_right _ inside, same⟩
      · exact ⟨place, mem_append_left _ inside, same⟩
    case keys =>
      intro write queued mark marked
      rcases writes write queued with rfl | behind
      · rcases assigned.nested mark marked with before | here
        · exact mem_append_right _ (untouched.keys _ mem_cons_self mark before)
        · exact mem_append_left _ here
      · exact mem_append_right _ (untouched.keys write (mem_cons_of_mem _ behind) mark marked)
    case latestField =>
      intro name apart
      exact untouched.latestField name fun place inside =>
        apart place (mem_append_right _ inside)
    case latestKey =>
      intro name keyed key outside
      exact untouched.latestKey name keyed key fun inside =>
        outside (mem_append_right _ inside)

theorem untouched_write (sane : w.Sane) (untouched : w.Untouched)
    (queue : w.manager.writeQueue = write :: rest) (levels : w.levelsCurrent write) :
    Untouched { w with
      manager := ({ w.manager with writeQueue := rest } : SettingsManager N).clearModifiedScope
      file := some (persistScopedSettings write w.file)
      lastSucceeded := true } := by
  have sound : write.Sound := sane.writes write (queue ▸ mem_cons_self)
  have head : write ∈ w.manager.snapshot :: w.manager.writeQueue := by
    rw [queue]
    exact mem_cons_of_mem _ mem_cons_self
  have behind : ∀ other ∈ rest, other ∈ w.manager.snapshot :: w.manager.writeQueue := by
    intro other inside
    rw [queue]
    exact mem_cons_of_mem _ (mem_cons_of_mem _ inside)
  constructor
  case fields =>
    intro other queued name marked
    rcases mem_cons.mp queued with rfl | inside
    · cases marked
    · exact untouched.fields other (behind other inside) name marked
  case keys =>
    intro other queued mark marked
    rcases mem_cons.mp queued with rfl | inside
    · cases marked
    · exact untouched.keys other (behind other inside) mark marked
  case latestField =>
    intro name apart
    have unmarked : name ∉ write.modifiedFields := by
      intro marked
      obtain ⟨place, inside, same⟩ := untouched.fields write head name marked
      exact apart place inside same
    exact (lookup_after_write sound sane.inFile unmarked).trans (untouched.latestField name apart)
  case latestKey =>
    intro name keyed key outside
    rw [← untouched.latestKey name keyed key outside]
    have after :=
      @read_after_write N w.file write (.nested name key) sound sane.inFile keyed
    refine after.trans ?_
    by_cases carried : write.Carries (.nested name key)
    · rw [if_pos carried]
      rw [Write.Carries] at carried
      split at carried
      · exact absurd (untouched.keys write head _ carried) outside
      · rename_i whole
        rcases mem_cons.mp keyed with rfl | nested
        · exact levels carried key outside
        · exact absurd nested whole
    · rw [if_neg carried]
      rfl

theorem untouched_step [JsonNumber N] {w next : SettingsWorld N} (sane : w.Sane)
    (untouched : w.Untouched) (keeps : w.Keeps ev)
    (taken : w.step ev = some next) : next.Untouched := by
  cases ev with
  | call assignments =>
    cases taken
    exact untouched_call untouched assignments
  | write succeeds =>
    obtain ⟨write, rest, queue, rfl⟩ := runWrite_eq taken
    cases succeeds with
    | true =>
      rw [Keeps, queue] at keeps
      exact untouched_write sane untouched queue (keeps write rfl)
    | false =>
      have behind : ∀ other ∈ w.manager.snapshot :: rest,
          other ∈ w.manager.snapshot :: w.manager.writeQueue := by
        rw [queue]
        intro other inside
        rcases mem_cons.mp inside with rfl | later
        · exact mem_cons_self
        · exact mem_cons_of_mem _ (mem_cons_of_mem _ later)
      exact ⟨fun other inside => untouched.fields other (behind other inside),
        fun other inside => untouched.keys other (behind other inside),
        untouched.latestField, untouched.latestKey⟩
  | edit content =>
    cases taken
    exact ⟨untouched.fields, untouched.keys, fun _ _ => rfl, fun _ _ _ _ => rfl⟩
  | reload loads =>
    cases taken
    have behind : ∀ other ∈ (w.reload loads).manager.snapshot ::
        (w.reload loads).manager.writeQueue, other ∈ w.manager.writeQueue ∨
          other.modifiedFields = [] ∧ other.modifiedNestedFields = [] := by
      intro other inside
      rcases mem_cons.mp inside with rfl | later
      · exact .inr ⟨rfl, rfl⟩
      · left
        cases loads <;> exact later
    constructor
    case fields =>
      intro other inside name marked
      rcases behind other inside with queued | ⟨none_, -⟩
      · exact untouched.fields other (mem_cons_of_mem _ queued) name marked
      · exact absurd (none_ ▸ marked) not_mem_nil
    case keys =>
      intro other inside mark marked
      rcases behind other inside with queued | ⟨-, none_⟩
      · exact untouched.keys other (mem_cons_of_mem _ queued) mark marked
      · exact absurd (none_ ▸ marked) not_mem_nil
    case latestField => exact untouched.latestField
    case latestKey => exact untouched.latestKey

/-- Once the queue is empty after a successful write, the file has what was set. -/
def HasSet (w : SettingsWorld N) : Prop :=
  w.manager.writeQueue = [] → w.lastSucceeded = true → ∀ place ∈ w.touched,
    w.inFile.read place = w.manager.settings.read place

/-- What was never set has its latest value in the file. -/
def HasLatest (w : SettingsWorld N) : Prop :=
  (∀ name, (∀ place ∈ w.set, place.parent ≠ name) →
    Json.lookup name w.inFile = Json.lookup name (migrateSettings w.edited)) ∧
  ∀ name ∈ keyedFields, ∀ key, Place.nested name key ∉ w.set →
    w.inFile.read (.nested name key) = (migrateSettings w.edited).read (.nested name key)

end SettingsWorld

open SettingsWorld

theorem settings_inductive [JsonNumber N] :
    settingsMachine.Inductive SettingsWorld.Keeps fun w : SettingsWorld N =>
      w.Sane ∧ w.Remembered ∧ w.Untouched where
  start w initial := by
    obtain ⟨file, rfl⟩ := initial
    exact ⟨sane_start file, remembered_start file, untouched_start file⟩
  step w ev next holds keeps taken := by
    obtain ⟨sane, remembered, untouched⟩ := holds
    exact ⟨sane_step sane taken, remembered_step sane remembered keeps taken,
      untouched_step sane untouched keeps taken⟩

/-- In every run in which no failing write takes the last trace of a change, and no level of a
model is written over another process's, nothing that was set is forgotten and nothing else
is changed. -/
theorem settings_remembered [JsonNumber N] {w : SettingsWorld N}
    (reached : settingsMachine.Reached SettingsWorld.Keeps w) : w.HasSet ∧ w.HasLatest := by
  obtain ⟨-, remembered, untouched⟩ := settings_inductive.reached reached
  refine ⟨?_, untouched.latestField, untouched.latestKey⟩
  intro empty succeeded place touched
  have loaded : w.manager.loadError = false := by
    cases failed : w.manager.loadError with
    | false => rfl
    | true =>
      rw [remembered.unloaded failed] at touched
      cases touched
  apply (remembered.kept place touched).file
  · exact remembered.unmarked loaded empty succeeded place
  · rw [empty]
    exact nofun

def repaired : List (SettingsWorld Int) :=
  let called := (start none).call (setQuietStartup true)
  let failed := (called.runWrite false).getD called
  let again := failed.call (setTheme "dark")
  [called, failed, again, (again.runWrite true).getD again]

theorem settings_remembered_repaired : ∃ w : SettingsWorld Int,
    w.manager.writeQueue = [] ∧ w.touched.length = 2 ∧ w.HasSet ∧ w.HasLatest := by
  have called : settingsMachine.Reached SettingsWorld.Keeps repaired[0] :=
    @Machine.Reached.step _ _ _ _ _ _ (.call (setQuietStartup true)) (.start ⟨none, rfl⟩)
      trivial rfl
  have failed : settingsMachine.Reached SettingsWorld.Keeps repaired[1] := by
    refine @Machine.Reached.step _ _ _ _ _ _ (.write false) called ?_ rfl
    intro write head place touched carried
    cases head
    left
    rw [List.mem_singleton.mp touched, Marked]
    decide
  have again : settingsMachine.Reached SettingsWorld.Keeps repaired[2] :=
    @Machine.Reached.step _ _ _ _ _ _ (.call (setTheme "dark")) failed trivial rfl
  have written : settingsMachine.Reached SettingsWorld.Keeps repaired[3] := by
    refine @Machine.Reached.step _ _ _ _ _ _ (.write true) again ?_ rfl
    intro write head marked
    cases head
    exact absurd marked (by decide)
  exact ⟨repaired[3], rfl, rfl, settings_remembered written⟩

/-- Other processes change other settings. -/
def Polite (w : SettingsWorld N) : SettingsEvent N → Prop
  | .edit content => w.editsOther content
  | _ => True

/-- Only what the setters and the queue do. -/
def undisturbed : SettingsEvent N → Bool
  | .call _ => true
  | .write _ => true
  | _ => false

theorem Polite.of_undisturbed (w : SettingsWorld N) (ev : SettingsEvent N)
    (calm : undisturbed ev = true) : Polite w ev := by
  cases ev with
  | edit content => cases calm
  | call assignments => trivial
  | write succeeds => trivial
  | reload loads => trivial

/-- The first write clears the mark of the second call, whose own write then fails. -/
def forgettingRun : List (SettingsEvent Int) :=
  [.call (setQuietStartup true), .call (setCollapseChangelog true), .write true, .write false,
    .call (setHideThinkingBlock true), .write true]

def forgetting : SettingsWorld Int :=
  (settingsMachine.exec (fun _ event => undisturbed event = true) (start none)
    forgettingRun).get (by decide)

theorem forgetting_reached : settingsMachine.Reached Polite forgetting := by
  have reached : settingsMachine.Reached (fun _ ev => undisturbed ev = true) forgetting :=
    Machine.Reached.exec (.start ⟨none, rfl⟩) (Option.some_get _).symm
  exact reached.mono Polite.of_undisturbed

theorem set_forgotten : ¬∀ w : SettingsWorld Int, settingsMachine.Reached Polite w → w.HasSet := by
  intro remembers
  have held := remembers forgetting forgetting_reached rfl rfl (.field "collapseChangelog")
    (by decide)
  cases held

def levels (members : Settings Int) : SettingsDocument Int where
  settings := [("modelThinkingLevels", .obj members)]
  formed name keyed value present := by
    rw [Json.lookup] at present
    split at present
    · rename_i later found
      cases found
    · split at present
      · cases present
        exact .inr ⟨members, rfl⟩
      · cases present

/-- Another process sets a level before this one sets the level of another model. -/
def overwriting : SettingsWorld Int :=
  let edited : SettingsWorld Int :=
    { (start (some (levels []))) with
      file := some (levels [("p/a", .str "high")]).settings
      edited := (levels [("p/a", .str "high")]).settings }
  let called := edited.call (setModelThinkingLevel "p" "b" "low")
  (called.runWrite true).getD called

theorem level_overwritten :
    ¬∀ w : SettingsWorld Int, settingsMachine.Reached Polite w → w.HasLatest := by
  intro keeps
  have edited := @Machine.Reached.step _ _ settingsMachine Polite _ _
    (.edit (levels [("p/a", .str "high")])) (.start ⟨some (levels []), rfl⟩) nofun rfl
  have called := @Machine.Reached.step _ _ settingsMachine Polite _ _
    (.call (setModelThinkingLevel "p" "b" "low")) edited trivial rfl
  have written := @Machine.Reached.step _ _ settingsMachine Polite _ overwriting
    (.write true) called trivial rfl
  have held := (keeps overwriting written).2 "modelThinkingLevels" (by decide) "p/a" (by decide)
  cases held

/-- A change is forgotten in one run, and another process's level is lost in another. -/
theorem settings_lost :
    (¬∀ w : SettingsWorld Int, settingsMachine.Reached Polite w → w.HasSet) ∧
      ¬∀ w : SettingsWorld Int, settingsMachine.Reached Polite w → w.HasLatest :=
  ⟨set_forgotten, level_overwritten⟩

end Trpi.CodingAgent
