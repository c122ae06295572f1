import Trpi.CodingAgent.SettingsManager

/-!
# The current format

What migration leaves is in the current format, and migrating that again changes no value.
Assigning what a setter may assign keeps the format.
-/

namespace Trpi.CodingAgent

open Library Json

open List hiding lookup

variable {N : Type}

namespace Settings

theorem lookup_assign (settings : Settings N) (name other : String) (v : Option (Json N)) :
    lookup other (settings.assign name v) =
      if name = other then v else lookup other settings := by
  cases v with
  | some v => exact lookup_setMembers name other v settings
  | none => exact lookup_filter name other settings

theorem lookup_assign_self (settings : Settings N) (name : String) (v : Option (Json N)) :
    lookup name (settings.assign name v) = v := by
  rw [lookup_assign, if_pos rfl]

theorem lookup_assign_other {name other : String} (apart : name ≠ other) (settings : Settings N)
    (v : Option (Json N)) : lookup other (settings.assign name v) = lookup other settings := by
  rw [lookup_assign, if_neg apart]

theorem has_assign (settings : Settings N) (name other : String) (v : Option (Json N)) :
    (settings.assign name v).has other =
      if name = other then v.isSome else settings.has other := by
  rw [has, lookup_assign]
  split <;> rfl

theorem read_congr {first second : Settings N} (place : Place)
    (same : lookup place.parent first = lookup place.parent second) :
    first.read place = second.read place := by
  cases place with
  | field name => exact same
  | nested name key =>
    rw [Place.parent] at same
    rw [read, read, same]

/-- Nothing of a legacy format is left to migrate. -/
structure Current (settings : Settings N) : Prop where
  queueMode : settings.has "queueMode" = true → settings.has "steeringMode" = true
  websockets : ∀ flag, Json.lookup "websockets" settings = some (.bool flag) →
    settings.has "transport" = true
  skills : ∀ members, Json.lookup "skills" settings ≠ some (.obj members)
  retry : ∀ members, Json.lookup "retry" settings = some (.obj members) →
    Json.lookup "maxDelayMs" members = none

end Settings

open Settings

variable {name : String} {settings : Settings N}

theorem lookup_migrateQueueMode (settings : Settings N)
    (apart : name ≠ "steeringMode" ∧ name ≠ "queueMode") :
    lookup name (migrateQueueMode settings) = lookup name settings := by
  rw [migrateQueueMode]
  split
  · split
    · rfl
    · rw [lookup_assign_other apart.2.symm, lookup_assign_other apart.1.symm]
  · rfl

theorem lookup_migrateWebsockets (settings : Settings N)
    (apart : name ≠ "transport" ∧ name ≠ "websockets") :
    lookup name (migrateWebsockets settings) = lookup name settings := by
  unfold migrateWebsockets
  split
  · rw [lookup_assign_other apart.2.symm, lookup_assign_other apart.1.symm]
  · rfl

theorem lookup_migrateSkillCommands (settings skills : Settings N)
    (apart : name ≠ "enableSkillCommands") :
    lookup name (migrateSkillCommands settings skills) = lookup name settings := by
  unfold migrateSkillCommands
  split
  · exact lookup_assign_other apart.symm settings _
  · rfl

section

variable (settings : Settings N)

theorem lookup_migrateSkills (apart : name ≠ "enableSkillCommands" ∧ name ≠ "skills") :
    lookup name (migrateSkills settings) = lookup name settings := by
  unfold migrateSkills
  split
  · split
    · rw [lookup_assign_other apart.2.symm, lookup_migrateSkillCommands settings _ apart.1]
    · rw [lookup_assign_other apart.2.symm, lookup_migrateSkillCommands settings _ apart.1]
  · rfl

theorem lookup_migrateRetry (apart : name ≠ "retry") :
    lookup name (migrateRetry settings) = lookup name settings := by
  unfold migrateRetry
  split
  · exact lookup_assign_other apart.symm settings _
  · rfl

theorem migrateQueueMode_current
    (present : (migrateQueueMode settings).has "queueMode" = true) :
    (migrateQueueMode settings).has "steeringMode" = true := by
  unfold migrateQueueMode at present ⊢
  split
  · split
    · assumption
    · rename_i mode found absent
      rw [found] at present
      dsimp only at present
      rw [if_neg absent, has_assign, if_pos rfl] at present
      cases present
  · rename_i missing
    rw [missing] at present
    dsimp only at present
    rw [has, missing] at present
    cases present

theorem migrateWebsockets_current {flag : Bool}
    (present : lookup "websockets" (migrateWebsockets settings) = some (.bool flag)) :
    (migrateWebsockets settings).has "transport" = true := by
  unfold migrateWebsockets at present ⊢
  split
  · rename_i websockets absent found
    rw [absent, found] at present
    dsimp only at present
    rw [lookup_assign_self] at present
    cases present
  · rename_i other
    cases transport : settings.has "transport" with
    | true => rfl
    | false =>
      split at present
      · rw [lookup_assign_self] at present
        cases present
      · exact absurd present (other flag transport)

theorem migrateSkills_current (members : Settings N) :
    lookup "skills" (migrateSkills settings) ≠ some (.obj members) := by
  unfold migrateSkills
  split
  · split
    · rw [lookup_assign_self]
      nofun
    · rw [lookup_assign_self]
      nofun
  · rename_i other
    exact other members

theorem migrateRetry_current {members : Settings N}
    (present : lookup "retry" (migrateRetry settings) = some (.obj members)) :
    lookup "maxDelayMs" members = none := by
  unfold migrateRetry at present
  split at present
  · rw [lookup_assign_self] at present
    cases present
    exact lookup_assign_self _ _ none
  · rename_i other
    exact absurd present (other members)

theorem migrateSettings_current : (migrateSettings settings).Current where
  queueMode := by
    have kept : ∀ name, name = "queueMode" ∨ name = "steeringMode" →
        (migrateSettings settings).has name = (migrateQueueMode settings).has name := by
      intro name here
      rw [has, has, migrateSettings, lookup_migrateRetry, lookup_migrateSkills,
        lookup_migrateWebsockets]
      all_goals rcases here with rfl | rfl <;> decide
    rw [kept _ (.inl rfl), kept _ (.inr rfl)]
    exact migrateQueueMode_current settings
  websockets flag := by
    have kept : ∀ name, name = "websockets" ∨ name = "transport" →
        lookup name (migrateSettings settings) =
          lookup name (migrateWebsockets (migrateQueueMode settings)) := by
      intro name here
      rw [migrateSettings, lookup_migrateRetry, lookup_migrateSkills]
      all_goals rcases here with rfl | rfl <;> decide
    rw [has, kept _ (.inl rfl), kept _ (.inr rfl)]
    exact migrateWebsockets_current _
  skills members := by
    rw [migrateSettings, lookup_migrateRetry _ (by decide)]
    exact migrateSkills_current _ members
  retry members := migrateRetry_current _

end

theorem migrateRetry_of_current (current : settings.Current) (name : String) :
    lookup name (migrateRetry settings) = lookup name settings := by
  unfold migrateRetry
  split
  · rename_i members present
    have absent := current.retry members present
    have delay : migrateRetryDelay members = members := by
      unfold migrateRetryDelay
      rw [absent]
    have same : Settings.assign members "maxDelayMs" none = members := by
      rw [assign, filter_eq_self]
      intro mem inside
      apply decide_eq_true
      intro named
      obtain ⟨v, found⟩ := exists_lookup inside
      rw [named, absent] at found
      cases found
    rw [delay, same, lookup_assign]
    split
    · rename_i here
      rw [← here, present]
    · rfl
  · rfl

theorem lookup_migrateSettings (current : settings.Current) (name : String) :
    lookup name (migrateSettings settings) = lookup name settings := by
  have queue : migrateQueueMode settings = settings := by
    unfold migrateQueueMode
    split
    · rename_i mode found
      rw [if_pos (current.queueMode (by rw [has, found]; rfl))]
    · rfl
  have sockets : migrateWebsockets settings = settings := by
    unfold migrateWebsockets
    split
    · rename_i flag absent found
      rw [current.websockets flag found] at absent
      cases absent
    · rfl
  have skills : migrateSkills settings = settings := by
    unfold migrateSkills
    split
    · rename_i members present
      exact absurd present (current.skills members)
    · rfl
  rw [migrateSettings, queue, sockets, skills]
  exact migrateRetry_of_current current name

theorem read_migrateSettings (current : settings.Current) (place : Place) :
    (migrateSettings settings).read place = settings.read place :=
  read_congr place (lookup_migrateSettings current _)

theorem migrateSettings_formed (formed : settings.Formed) : (migrateSettings settings).Formed := by
  intro name keyed v present
  by_cases retry : name = "retry"
  · subst retry
    rw [migrateSettings] at present
    unfold migrateRetry at present
    split at present
    · rw [lookup_assign_self] at present
      cases present
      exact .inr ⟨_, rfl⟩
    · rw [lookup_migrateSkills _ (by decide), lookup_migrateWebsockets _ (by decide),
        lookup_migrateQueueMode _ (by decide)] at present
      exact formed _ keyed v present
  · have apart : ∀ name ∈ keyedFields, ∀ legacy ∈ ["steeringMode", "queueMode", "transport",
        "websockets", "enableSkillCommands", "skills"], name ≠ legacy := by decide
    rw [migrateSettings, lookup_migrateRetry _ retry,
      lookup_migrateSkills _ ⟨apart name keyed _ (by decide), apart name keyed _ (by decide)⟩,
      lookup_migrateWebsockets _ ⟨apart name keyed _ (by decide), apart name keyed _ (by decide)⟩,
      lookup_migrateQueueMode _ ⟨apart name keyed _ (by decide), apart name keyed _ (by decide)⟩]
      at present
    exact formed _ keyed v present

/-!
## One write

A write puts the values of the places it carries into the file and leaves every other place
as a reader found it.
-/

variable {N : Type} {file : Option (Settings N)} {write : Write N} {name : String} {place : Place}

namespace Write

/-- The write takes the value of the place from its snapshot. -/
def Carries (write : Write N) : Place → Prop
  | .field name => name ∈ write.modifiedFields
  | .nested name key =>
    if name ∈ nestedFields then (name, key) ∈ write.modifiedNestedFields
    else name ∈ write.modifiedFields

instance (write : Write N) : (place : Place) → Decidable (write.Carries place)
  | .field name => inferInstanceAs (Decidable (name ∈ write.modifiedFields))
  | .nested name key => by
    unfold Carries
    infer_instance

/-- The marks go with what the setters assigned. -/
structure Sound (write : Write N) : Prop where
  nested : ∀ name ∈ write.modifiedFields, name ∈ nestedFields →
    ∃ key, (name, key) ∈ write.modifiedNestedFields
  marks : ∀ name key, (name, key) ∈ write.modifiedNestedFields →
    name ∈ nestedFields ∧ name ∈ write.modifiedFields ∧ (name, key) ≠ ("retry", "maxDelayMs")
  objects : ∀ name key, (name, key) ∈ write.modifiedNestedFields →
    ∃ members, Json.lookup name write.snapshotSettings = some (.obj members)
  values : ∀ name ∈ write.modifiedFields, name ∉ keyedFields →
    Assignable (.field name) (Json.lookup name write.snapshotSettings)
  levels : "modelThinkingLevels" ∈ write.modifiedFields → ∀ value,
    Json.lookup "modelThinkingLevels" write.snapshotSettings = some value →
      ∃ members, value = .obj members

theorem mem_nestedKeys {write : Write N} {name key : String} :
    key ∈ write.nestedKeys name ↔ (name, key) ∈ write.modifiedNestedFields := by
  rw [nestedKeys, mem_map]
  constructor
  · rintro ⟨⟨field, key⟩, marked, rfl⟩
    obtain ⟨marked, same⟩ := mem_filter.mp marked
    rw [← of_decide_eq_true same]
    exact marked
  · intro marked
    exact ⟨(name, key), mem_filter.mpr ⟨marked, decide_eq_true rfl⟩, rfl⟩

end Write

namespace Settings

theorem lookup_foldl_assign (v : String → Option (Json N)) (names : List String)
    (settings : Settings N) (other : String) :
    lookup other (names.foldl (fun merged name => assign merged name (v name)) settings) =
      if other ∈ names then v other else lookup other settings := by
  induction names generalizing settings with
  | nil => rfl
  | cons name rest ih =>
    rw [foldl_cons, ih, lookup_assign]
    by_cases later : other ∈ rest
    · rw [if_pos later, if_pos (mem_cons_of_mem _ later)]
    · rw [if_neg later]
      by_cases here : name = other
      · rw [if_pos here, if_pos (here ▸ mem_cons_self), here]
      · rw [if_neg here, if_neg (not_mem_cons_of_ne_of_not_mem (Ne.symm here) later)]

theorem lookup_spread {settings : Settings N} (formed : settings.Formed) {name : String}
    (keyed : name ∈ keyedFields) (key : String) :
    lookup key (spread (lookup name settings)) = settings.read (.nested name key) := by
  rw [read]
  cases present : lookup name settings with
  | none => rfl
  | some v =>
    rcases formed name keyed v present with rfl | ⟨members, rfl⟩
    · rfl
    · rfl

end Settings

open Settings

theorem persistedValue_marked (sound : write.Sound) (marked : name ∈ write.modifiedFields)
    (nested : name ∈ nestedFields) (current : Settings N) :
    ∃ inMemory, lookup name write.snapshotSettings = some (.obj inMemory) ∧
      persistedValue write current name = some (.obj ((write.nestedKeys name).foldl
        (fun merged key => assign merged key (lookup key inMemory))
        (spread (lookup name current)))) := by
  obtain ⟨key, mark⟩ := sound.nested name marked nested
  obtain ⟨inMemory, present⟩ := sound.objects name key mark
  refine ⟨inMemory, present, ?_⟩
  have listed := Write.mem_nestedKeys.mpr mark
  unfold persistedValue
  rw [present]
  cases keys : write.nestedKeys name with
  | nil =>
    rw [keys] at listed
    cases listed
  | cons first rest => rfl

theorem persistedValue_whole (sound : write.Sound) (whole : name ∉ nestedFields)
    (current : Settings N) :
    persistedValue write current name = lookup name write.snapshotSettings := by
  have noKeys : write.nestedKeys name = [] := by
    rw [eq_nil_iff_forall_not_mem]
    intro key listed
    exact whole (sound.marks name key (Write.mem_nestedKeys.mp listed)).1
  unfold persistedValue
  rw [noKeys]

theorem lookup_persistScopedSettings (write : Write N) (file : Option (Settings N))
    (name : String) :
    lookup name (persistScopedSettings write file) =
      if name ∈ write.modifiedFields then
        persistedValue write (migrateSettings (file.getD [])) name
      else lookup name (migrateSettings (file.getD [])) :=
  lookup_foldl_assign _ write.modifiedFields _ name

theorem read_nested (settings : Settings N) (name key : String) :
    settings.read (.nested name key) =
      (lookup name settings).bind fun v => v.get? key := rfl

section

variable (sound : write.Sound) (formed : (migrateSettings (file.getD [])).Formed)

include sound formed

theorem read_persistScopedSettings (proper : place.Proper) :
    (persistScopedSettings write file).read place =
      if write.Carries place then write.snapshotSettings.read place
      else (migrateSettings (file.getD [])).read place := by
  cases place with
  | field name =>
    have whole : name ∉ nestedFields := fun nested => proper (mem_cons_of_mem _ nested)
    change lookup name (persistScopedSettings write file) = _
    rw [lookup_persistScopedSettings, persistedValue_whole sound whole]
    rfl
  | nested name key =>
    rw [read_nested, lookup_persistScopedSettings]
    by_cases nested : name ∈ nestedFields
    · by_cases marked : name ∈ write.modifiedFields
      · obtain ⟨inMemory, present, persisted⟩ :=
          persistedValue_marked sound marked nested (migrateSettings (file.getD []))
        rw [if_pos marked, persisted, Option.bind_some, get?, lookup_foldl_assign,
          lookup_spread formed proper, read_nested write.snapshotSettings, present]
        simp only [Write.Carries, if_pos nested, Write.mem_nestedKeys]
        rfl
      · have uncarried : ¬write.Carries (.nested name key) := by
          rw [Write.Carries, if_pos nested]
          intro mark
          exact marked (sound.marks name key mark).2.1
        rw [if_neg marked, if_neg uncarried]
        rfl
    · rw [persistedValue_whole sound nested]
      simp only [Write.Carries, if_neg nested]
      split
      · rfl
      · rfl

theorem persistScopedSettings_current : (persistScopedSettings write file).Current := by
  have current := migrateSettings_current (file.getD [])
  have legacy : ∀ name ∈ ["queueMode", "websockets"], name ∉ write.modifiedFields := by
    intro name listed marked
    have apart : ∀ name ∈ ["queueMode", "websockets"], name ∉ keyedFields := by decide
    exact (sound.values name marked (apart name listed)).1 listed
  have target : ∀ name ∈ ["steeringMode", "transport"],
      (migrateSettings (file.getD [])).has name = true →
        (persistScopedSettings write file).has name = true := by
    intro name listed present
    have apart : ∀ name ∈ ["steeringMode", "transport"], name ∉ keyedFields := by decide
    have whole : name ∉ nestedFields := fun nested =>
      apart name listed (mem_cons_of_mem _ nested)
    rw [has, lookup_persistScopedSettings, persistedValue_whole sound whole]
    split
    · rename_i marked
      exact (sound.values name marked (apart name listed)).2.1 listed
    · exact present
  constructor
  case queueMode =>
    intro present
    apply target _ (by decide)
    apply current.queueMode
    rw [has, lookup_persistScopedSettings, if_neg (legacy _ (by decide))] at present
    exact present
  case websockets =>
    intro flag present
    apply target _ (by decide)
    apply current.websockets flag
    rw [lookup_persistScopedSettings, if_neg (legacy _ (by decide))] at present
    exact present
  case skills =>
    intro members
    rw [lookup_persistScopedSettings, persistedValue_whole sound (by decide)]
    split
    · rename_i marked
      exact (sound.values _ marked (by decide)).2.2 rfl members
    · exact current.skills members
  case retry =>
    intro members present
    rw [lookup_persistScopedSettings] at present
    split at present
    · rename_i marked
      obtain ⟨inMemory, -, persisted⟩ :=
        persistedValue_marked sound marked (by decide) (migrateSettings (file.getD []))
      rw [persisted] at present
      cases present
      have unmarked : "maxDelayMs" ∉ write.nestedKeys "retry" := by
        intro listed
        exact (sound.marks _ _ (Write.mem_nestedKeys.mp listed)).2.2 rfl
      rw [lookup_foldl_assign, if_neg unmarked, lookup_spread formed (by decide), read_nested]
      cases old : lookup "retry" (migrateSettings (file.getD [])) with
      | none => rfl
      | some v =>
        rcases formed _ (by decide) v old with rfl | ⟨members, rfl⟩
        · rfl
        · exact current.retry members old
    · exact current.retry members present

theorem persistScopedSettings_formed : (persistScopedSettings write file).Formed := by
  intro name keyed v present
  rw [lookup_persistScopedSettings] at present
  split at present
  · rename_i marked
    by_cases nested : name ∈ nestedFields
    · obtain ⟨inMemory, -, persisted⟩ :=
        persistedValue_marked sound marked nested (migrateSettings (file.getD []))
      rw [persisted] at present
      cases present
      exact .inr ⟨_, rfl⟩
    · rcases mem_cons.mp keyed with rfl | listed
      · rw [persistedValue_whole sound nested] at present
        exact .inr (sound.levels marked v present)
      · exact absurd listed nested
  · exact formed name keyed v present

theorem read_after_write (proper : place.Proper) :
    (migrateSettings (persistScopedSettings write file)).read place =
      if write.Carries place then write.snapshotSettings.read place
      else (migrateSettings (file.getD [])).read place := by
  rw [read_migrateSettings (persistScopedSettings_current sound formed)]
  exact read_persistScopedSettings sound formed proper

theorem lookup_after_write (unmarked : name ∉ write.modifiedFields) :
    lookup name (migrateSettings (persistScopedSettings write file)) =
      lookup name (migrateSettings (file.getD [])) := by
  rw [lookup_migrateSettings (persistScopedSettings_current sound formed),
    lookup_persistScopedSettings, if_neg unmarked]

end

end Trpi.CodingAgent
