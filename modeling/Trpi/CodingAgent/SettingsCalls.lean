import Trpi.CodingAgent.SettingsWrites

/-!
# One setter call

A setter changes the places it assigns and no other, and marks what a write then carries.
-/

namespace Trpi.CodingAgent

open Library Settings Json

open List hiding lookup

variable {N : Type}

theorem mem_addMark {α : Type} [DecidableEq α] (marks : List α) (mark other : α) :
    other ∈ addMark marks mark ↔ other ∈ marks ∨ other = mark := by
  rw [addMark]
  split
  · rename_i present
    exact ⟨.inl, Or.rec id fun same => same ▸ present⟩
  · rw [mem_append, mem_singleton]

namespace SettingsManager

section

variable (m : SettingsManager N)

@[simp] theorem settings_markModified (place : Place) :
    (m.markModified place).settings = m.settings := by
  cases place <;> rfl

@[simp] theorem writeQueue_markModified (place : Place) :
    (m.markModified place).writeQueue = m.writeQueue := by
  cases place <;> rfl

@[simp] theorem loadError_markModified (place : Place) :
    (m.markModified place).loadError = m.loadError := by
  cases place <;> rfl

theorem mem_modifiedFields (place : Place) (name : String) :
    name ∈ (m.markModified place).modifiedFields ↔
      name ∈ m.modifiedFields ∨ name = place.parent := by
  cases place with
  | field field => exact mem_addMark _ _ _
  | nested field key => exact mem_addMark _ _ _

theorem mem_modifiedNestedFields (place : Place) (mark : String × String) :
    mark ∈ (m.markModified place).modifiedNestedFields ↔ mark ∈ m.modifiedNestedFields ∨
        mark.1 ∈ nestedFields ∧ place = .nested mark.1 mark.2 := by
  rcases mark with ⟨name, key⟩
  cases place with
  | field field => simp [markModified]
  | nested field other =>
    rw [markModified]
    dsimp only
    split
    · rename_i nested
      rw [mem_addMark]
      grind
    · rename_i whole
      grind

end

end SettingsManager

namespace SettingsManager

structure Assigned (before after : SettingsManager N) (places : List Place) : Prop where
  sound : before.snapshot.Sound → after.snapshot.Sound
  reads : ∀ place : Place, place.Proper → place ∉ places →
    after.settings.read place = before.settings.read place
  kept : ∀ place, before.snapshot.Carries place → after.snapshot.Carries place
  marked : ∀ place ∈ places, after.snapshot.Carries place
  fields : ∀ name ∈ after.modifiedFields,
    name ∈ before.modifiedFields ∨ ∃ place ∈ places, place.parent = name
  nested : ∀ mark ∈ after.modifiedNestedFields,
    mark ∈ before.modifiedNestedFields ∨ Place.nested mark.1 mark.2 ∈ places
  loadError : after.loadError = before.loadError
  writeQueue : after.writeQueue = before.writeQueue

theorem Assigned.refl (m : SettingsManager N) : Assigned m m [] where
  sound := id
  reads _ _ _ := rfl
  kept _ := id
  marked _ none_ := absurd none_ not_mem_nil
  fields _ := .inl
  nested _ := .inl
  loadError := rfl
  writeQueue := rfl

theorem Assigned.trans {first second third : SettingsManager N} {places more : List Place}
    (left : Assigned first second places) (right : Assigned second third more) :
    Assigned first third (places ++ more) where
  sound sound := right.sound (left.sound sound)
  reads place proper outside := by
    rw [mem_append, not_or] at outside
    rw [right.reads place proper outside.2, left.reads place proper outside.1]
  kept place carried := right.kept place (left.kept place carried)
  marked place inside := by
    rcases mem_append.mp inside with early | late
    · exact right.kept place (left.marked place early)
    · exact right.marked place late
  fields name marked := by
    rcases right.fields name marked with early | ⟨place, inside, same⟩
    · rcases left.fields name early with before | ⟨place, inside, same⟩
      · exact .inl before
      · exact .inr ⟨place, mem_append_left _ inside, same⟩
    · exact .inr ⟨place, mem_append_right _ inside, same⟩
  nested mark marked := by
    rcases right.nested mark marked with early | inside
    · rcases left.nested mark early with before | inside
      · exact .inl before
      · exact .inr (mem_append_left _ inside)
    · exact .inr (mem_append_right _ inside)
  loadError := right.loadError.trans left.loadError
  writeQueue := right.writeQueue.trans left.writeQueue

theorem carries_kept (m : SettingsManager N) (place other : Place)
    (carried : m.snapshot.Carries other) : (m.markModified place).snapshot.Carries other := by
  cases other with
  | field name => exact (m.mem_modifiedFields place name).mpr (.inl carried)
  | nested name key =>
    rw [Write.Carries] at carried ⊢
    by_cases nested : name ∈ nestedFields
    · rw [if_pos nested] at carried ⊢
      exact (m.mem_modifiedNestedFields place _).mpr (.inl carried)
    · rw [if_neg nested] at carried ⊢
      exact (m.mem_modifiedFields place name).mpr (.inl carried)

theorem carries_marked (m : SettingsManager N) (place : Place) :
    (m.markModified place).snapshot.Carries place := by
  cases place with
  | field name => exact (m.mem_modifiedFields _ name).mpr (.inr rfl)
  | nested name key =>
    rw [Write.Carries]
    split
    · rename_i nested
      exact (m.mem_modifiedNestedFields _ _).mpr (.inr ⟨nested, rfl⟩)
    · exact (m.mem_modifiedFields _ name).mpr (.inr rfl)

end SettingsManager

variable [JsonNumber N]

theorem get?_of_falsy {v : Json N} (falsy : ¬v.truthy = true) (key : String) :
    v.get? key = none := by
  cases v with
  | obj members => exact absurd rfl falsy
  | null => rfl
  | bool flag => rfl
  | num number => rfl
  | str text => rfl
  | arr items => rfl

variable {settings next : Settings N} {name : String} {v : Option (Json N)}

theorem read_nested_of_falsy (missing : (lookup name settings).filter truthy = none)
    (key : String) : settings.read (.nested name key) = none := by
  rw [read_nested]
  cases present : lookup name settings with
  | none => rfl
  | some v =>
    rw [present, Option.filter_eq_none_iff] at missing
    exact get?_of_falsy (missing v rfl) key

theorem lookup_of_filter {v : Json N} (found : (lookup name settings).filter truthy = some v) :
    lookup name settings = some v :=
  (Option.filter_eq_some_iff.mp found).1

theorem lookup_assignPlace_nested {key : String}
    (assigned : assignPlace settings (.nested name key) v = some next) :
    ∃ field, next = settings.assign name field ∧
      (∀ other, (field.bind fun field => field.get? other) =
        if key = other then v else settings.read (.nested name other)) ∧
      (∀ document, field = some document → ∃ members, document = .obj members) ∧
      (v.isSome = true → field.isSome = true) := by
  unfold assignPlace at assigned
  dsimp only at assigned
  split at assigned
  · rename_i v missing
    cases assigned
    refine ⟨_, rfl, ?_, ?_, fun _ => rfl⟩
    · intro other
      rw [read_nested_of_falsy missing]
      rfl
    · rintro document ⟨⟩
      exact ⟨_, rfl⟩
  · cases assigned
  · rename_i members v found
    cases assigned
    refine ⟨_, rfl, ?_, ?_, fun _ => rfl⟩
    · intro other
      rw [read_nested, lookup_of_filter found]
      exact lookup_setMembers key other v members
    · rintro document ⟨⟩
      exact ⟨_, rfl⟩
  · rename_i members found
    cases assigned
    refine ⟨_, rfl, ?_, ?_, nofun⟩
    · intro other
      have left := lookup_filter key other members
      rw [read_nested, lookup_of_filter found]
      split
      · rename_i empty
        rw [isEmpty_iff.mp empty] at left
        exact left
      · exact left
    · intro document there
      split at there
      · cases there
      · cases there
        exact ⟨_, rfl⟩
  · cases assigned

theorem lookup_assignPlace {place : Place} (assigned : assignPlace settings place v = some next)
    (apart : place.parent ≠ name) : lookup name next = lookup name settings := by
  cases place with
  | field field =>
    cases assigned
    exact lookup_assign_other apart settings v
  | nested field key =>
    obtain ⟨document, rfl, -⟩ := lookup_assignPlace_nested assigned
    exact lookup_assign_other apart settings document

theorem read_assignPlace {place other : Place} (assigned : assignPlace settings place v = some next)
    (proper : place.Proper) (otherProper : other.Proper) :
    next.read other = if place = other then v else settings.read other := by
  by_cases same : place.parent = other.parent
  · cases place with
    | field name =>
      cases other with
      | field second =>
        cases assigned
        rw [Place.parent, Place.parent] at same
        subst same
        rw [if_pos rfl]
        exact lookup_assign_self settings name v
      | nested second key =>
        have same : name = second := same
        exact absurd (same ▸ otherProper : name ∈ keyedFields) proper
    | nested name key =>
      cases other with
      | field second =>
        have same : name = second := same
        exact absurd (same ▸ proper : second ∈ keyedFields) otherProper
      | nested second other =>
        rw [Place.parent, Place.parent] at same
        subst same
        obtain ⟨field, rfl, keys, -⟩ := lookup_assignPlace_nested assigned
        rw [read_nested, lookup_assign_self, keys]
        simp
  · rw [if_neg fun equal => same (congrArg Place.parent equal)]
    exact read_congr other (lookup_assignPlace assigned same)

namespace SettingsManager

variable {m : SettingsManager N}

theorem sound_assignPlace {next : Settings N} (sound : m.snapshot.Sound) (assignment : Assignment N)
    (assigned : assignPlace m.settings assignment.place assignment.value = some next) :
    (({ m with settings := next } : SettingsManager N).markModified
      assignment.place).snapshot.Sound := by
  rcases assignment with ⟨place, v, proper, assignable⟩
  dsimp only at assigned ⊢
  have fields := ({ m with settings := next } : SettingsManager N).mem_modifiedFields place
  have nested :=
    ({ m with settings := next } : SettingsManager N).mem_modifiedNestedFields place
  constructor
  case nested =>
    intro name marked inside
    rcases (fields name).mp marked with before | here
    · obtain ⟨key, mark⟩ := sound.nested name before inside
      exact ⟨key, (nested _).mpr (.inl mark)⟩
    · cases place with
      | field field =>
        have same : name = field := here
        exact absurd (mem_cons_of_mem _ (same ▸ inside)) proper
      | nested field key =>
        have same : name = field := here
        exact ⟨key, (nested (name, key)).mpr (.inr ⟨inside, by rw [same]⟩)⟩
  case marks =>
    intro name key marked
    rcases (nested _).mp marked with before | ⟨inside, rfl⟩
    · obtain ⟨inside, field, current⟩ := sound.marks name key before
      exact ⟨inside, (fields name).mpr (.inl field), current⟩
    · exact ⟨inside, (fields name).mpr (.inr rfl), assignable.1⟩
  case objects =>
    intro name key marked
    change ∃ members, lookup name
      (({ m with settings := next } : SettingsManager N).markModified place).settings =
        some (.obj members)
    rw [settings_markModified]
    have before : (name, key) ∈ m.modifiedNestedFields → place.parent ≠ name →
        ∃ members, lookup name next = some (.obj members) := by
      intro mark apart
      rw [lookup_assignPlace assigned apart]
      exact sound.objects name key mark
    cases place with
    | field field =>
      rcases (nested _).mp marked with mark | ⟨-, same⟩
      · apply before mark
        intro same
        have same : field = name := same
        exact proper (same ▸ mem_cons_of_mem _ (sound.marks name key mark).1)
      · cases same
    | nested field other =>
      by_cases same : field = name
      · subst same
        obtain ⟨document, rfl, -, object, present⟩ := lookup_assignPlace_nested assigned
        have inside : field ∈ nestedFields := by
          rcases (nested _).mp marked with mark | ⟨inside, -⟩
          · exact (sound.marks field key mark).1
          · exact inside
        obtain ⟨document, rfl⟩ := Option.isSome_iff_exists.mp (present (assignable.2 inside))
        obtain ⟨members, rfl⟩ := object document rfl
        exact ⟨members, lookup_assign_self m.settings field (some (.obj members))⟩
      · rcases (nested _).mp marked with mark | ⟨-, equal⟩
        · exact before mark same
        · cases equal
          exact absurd rfl same
  case values =>
    intro name marked whole
    change Assignable (.field name) (lookup name
      (({ m with settings := next } : SettingsManager N).markModified place).settings)
    rw [settings_markModified]
    by_cases same : place.parent = name
    · cases place with
      | field field =>
        have same : field = name := same
        subst same
        cases assigned
        rw [lookup_assign_self]
        exact assignable
      | nested field key =>
        have same : field = name := same
        exact absurd (same ▸ proper) whole
    · rw [lookup_assignPlace assigned same]
      rcases (fields name).mp marked with before | here
      · exact sound.values name before whole
      · exact absurd here.symm same
  case levels =>
    intro marked v present
    change lookup "modelThinkingLevels"
      (({ m with settings := next } : SettingsManager N).markModified place).settings =
        some v at present
    rw [settings_markModified] at present
    change lookup "modelThinkingLevels" next = some v at present
    by_cases same : place.parent = "modelThinkingLevels"
    · cases place with
      | field field =>
        have same : field = "modelThinkingLevels" := same
        exact absurd (same ▸ mem_cons_self) proper
      | nested field key =>
        have same : field = "modelThinkingLevels" := same
        subst same
        obtain ⟨document, rfl, -, object, -⟩ := lookup_assignPlace_nested assigned
        rw [lookup_assign_self] at present
        exact object v present
    · rw [lookup_assignPlace assigned same] at present
      rcases (fields _).mp marked with before | here
      · exact sound.levels before v present
      · exact absurd here.symm same

theorem assigned_assignPlace {next : Settings N} (assignment : Assignment N)
    (assigned : assignPlace m.settings assignment.place assignment.value = some next) :
    Assigned m
      (({ m with settings := next } : SettingsManager N).markModified assignment.place)
      [assignment.place] where
  sound sound := sound_assignPlace sound assignment assigned
  reads place proper outside := by
    have apart : assignment.place ≠ place := by
      intro same
      exact outside (mem_singleton.mpr same.symm)
    rw [settings_markModified]
    exact (read_assignPlace assigned assignment.proper proper).trans (if_neg apart)
  kept place carried := by
    apply carries_kept
    cases place with
    | field name => exact carried
    | nested name key => exact carried
  marked place inside := by
    rw [mem_singleton] at inside
    rw [inside]
    exact carries_marked _ _
  fields name marked := by
    rcases (mem_modifiedFields _ _ _).mp marked with before | here
    · exact .inl before
    · exact .inr ⟨_, mem_cons_self, here.symm⟩
  nested mark marked := by
    rcases (mem_modifiedNestedFields _ _ _).mp marked with before | ⟨-, here⟩
    · exact .inl before
    · exact .inr (here ▸ mem_cons_self)
  loadError := loadError_markModified _ _
  writeQueue := writeQueue_markModified _ _

theorem assigned_assignAll {after : SettingsManager N} {assignments : List (Assignment N)}
    (all : m.assignAll assignments = some after) :
    Assigned m after (assignments.map Assignment.place) := by
  induction assignments generalizing m with
  | nil =>
    cases all
    exact .refl _
  | cons assignment rest ih =>
    rw [assignAll] at all
    split at all
    · cases all
    · rename_i next assigned
      exact (assigned_assignPlace assignment assigned).trans (ih all)

end SettingsManager

end Trpi.CodingAgent
