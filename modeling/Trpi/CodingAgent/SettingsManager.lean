import Trpi.Library.JsonObject
import Trpi.Library.Machine

/-!
# Settings of one scope

The part of coding-agent/src/core/settings-manager.ts that remembers, queues and writes
setting changes. A settings document is its members. One scope stands for the global or the
project file: both have their own marks and their own file. A write fails for whatever
reason the file system, another process or an untrusted project gives it. Everyone reads
the file through `migrateSettings`.
-/

namespace Trpi.CodingAgent

open Library

variable {N : Type}

/-- The members of a settings object. -/
abbrev Settings (N : Type) := List (String × Json N)

namespace Settings

/-- Assigning `undefined` leaves nothing in the file. -/
def assign (settings : Settings N) (name : String) (value : Option (Json N)) : Settings N :=
  match value with
  | some value => Json.setMembers name value settings
  | none => settings.filter fun member => member.1 ≠ name

def members : Json N → Settings N
  | .obj members => members
  | _ => []

def has (settings : Settings N) (name : String) : Bool := (Json.lookup name settings).isSome

/-- `{ ...value }` of an object, an array, `null` or `undefined`. -/
def spread : Option (Json N) → Settings N
  | some (.obj members) => members
  | some (.arr items) => items.zipIdx.map fun item => (toString item.2, item.1)
  | _ => []

end Settings

/-- The settings whose keys are marked one by one. -/
def nestedFields : List String := ["compaction", "retry", "terminal", "images", "markdown"]

/-- The settings whose keys are assigned one by one. The levels of the models are marked as
one field. -/
def keyedFields : List String := "modelThinkingLevels" :: nestedFields

/-- What a setter changes: a top-level field, or a key of one. -/
inductive Place where
  | field (name : String)
  | nested (field key : String)
  deriving DecidableEq

namespace Place

def parent : Place → String
  | .field name => name
  | .nested name _ => name

/-- A field is assigned whole or key by key. -/
def Proper : Place → Prop
  | .field name => name ∉ keyedFields
  | .nested name _ => name ∈ keyedFields

instance : (place : Place) → Decidable place.Proper
  | .field name => inferInstanceAs (Decidable (name ∉ keyedFields))
  | .nested name _ => inferInstanceAs (Decidable (name ∈ keyedFields))

end Place

def Settings.read (settings : Settings N) : Place → Option (Json N)
  | .field name => Json.lookup name settings
  | .nested field key => (Json.lookup field settings).bind fun value => value.get? key

/-- The type of the settings: a field with keys is an object where it is there at all. -/
def Settings.Formed (settings : Settings N) : Prop :=
  ∀ name ∈ keyedFields, ∀ value, Json.lookup name settings = some value →
    value = .null ∨ ∃ members, value = .obj members

/-- What a settings file holds. -/
structure SettingsDocument (N : Type) where
  settings : Settings N
  formed : settings.Formed

def migrateQueueMode (settings : Settings N) : Settings N :=
  match Json.lookup "queueMode" settings with
  | some mode =>
    if settings.has "steeringMode" then settings
    else (settings.assign "steeringMode" (some mode)).assign "queueMode" none
  | none => settings

def migrateWebsockets (settings : Settings N) : Settings N :=
  match settings.has "transport", Json.lookup "websockets" settings with
  | false, some (.bool websockets) =>
    (settings.assign "transport" (some (.str (if websockets then "websocket" else "sse")))).assign
      "websockets" none
  | _, _ => settings

def migrateSkillCommands (settings skills : Settings N) : Settings N :=
  match Json.lookup "enableSkillCommands" skills, settings.has "enableSkillCommands" with
  | some enabled, false => settings.assign "enableSkillCommands" (some enabled)
  | _, _ => settings

def migrateSkills (settings : Settings N) : Settings N :=
  match Json.lookup "skills" settings with
  | some (.obj skills) =>
    match Json.lookup "customDirectories" skills with
    | some (.arr (d :: directories)) =>
      (migrateSkillCommands settings skills).assign "skills" (some (.arr (d :: directories)))
    | _ => (migrateSkillCommands settings skills).assign "skills" none
  | _ => settings

def migrateRetryDelay (retry : Settings N) : Settings N :=
  let provider := Settings.spread ((Json.lookup "provider" retry).filter fun provider =>
    provider matches .obj _ | .arr _)
  match Json.lookup "maxDelayMs" retry, Json.lookup "maxRetryDelayMs" provider with
  | some (.num delay), none | some (.num delay), some .null =>
    Settings.assign retry "provider"
      (some (.obj (Settings.assign provider "maxRetryDelayMs" (some (.num delay)))))
  | _, _ => retry

def migrateRetry (settings : Settings N) : Settings N :=
  match Json.lookup "retry" settings with
  | some (.obj retry) =>
    settings.assign "retry"
      (some (.obj (Settings.assign (migrateRetryDelay retry) "maxDelayMs" none)))
  | _ => settings

def migrateSettings (settings : Settings N) : Settings N :=
  migrateRetry (migrateSkills (migrateWebsockets (migrateQueueMode settings)))

/-- A queued write: the settings and the marks there were when it was queued. -/
structure Write (N : Type) where
  snapshotSettings : Settings N
  modifiedFields : List String
  modifiedNestedFields : List (String × String)

structure SettingsManager (N : Type) where
  settings : Settings N
  modifiedFields : List String
  modifiedNestedFields : List (String × String)
  loadError : Bool
  writeQueue : List (Write N)

/-- No setter writes a legacy form or takes away what would be read from one, and only a
model's level is taken away from its field. -/
def Assignable (place : Place) (value : Option (Json N)) : Prop :=
  match place with
  | .field name =>
    name ∉ ["queueMode", "websockets"] ∧
    (name ∈ ["steeringMode", "transport"] → value.isSome) ∧
    (name = "skills" → ∀ members, value ≠ some (.obj members))
  | .nested name key =>
    (name, key) ≠ ("retry", "maxDelayMs") ∧ (name ∈ nestedFields → value.isSome)

/-- What a setter assigns and marks. -/
structure Assignment (N : Type) where
  place : Place
  value : Option (Json N)
  proper : place.Proper
  assignable : Assignable place value

/-! ## The setters

A number is as the setter leaves it after rounding and clamping.
-/

def assignField (name : String) (value : Option (Json N))
    (plain : name ∉ "queueMode" :: "websockets" :: "steeringMode" :: "transport" :: "skills" ::
      keyedFields) : Assignment N where
  place := .field name
  value := value
  proper keyed := plain (by simp [keyed])
  assignable := by
    simp only [List.mem_cons, not_or] at plain
    exact ⟨by simp [plain], by simp [plain], fun same => absurd same plain.2.2.2.2.1⟩

/-- A key of a field whose keys are marked. -/
def assignNested (name key : String) (value : Json N)
    (current : name ∈ nestedFields ∧ (name, key) ≠ ("retry", "maxDelayMs")) : Assignment N where
  place := .nested name key
  value := some value
  proper := List.mem_cons_of_mem _ current.1
  assignable := ⟨current.2, fun _ => rfl⟩

def texts (items : List String) : Json N := .arr (items.map .str)

def setLastChangelogVersion (value : String) : List (Assignment N) :=
  [assignField "lastChangelogVersion" (some (.str value)) (by decide)]

def setDefaultProvider (value : String) : List (Assignment N) :=
  [assignField "defaultProvider" (some (.str value)) (by decide)]

def setDefaultModel (value : String) : List (Assignment N) :=
  [assignField "defaultModel" (some (.str value)) (by decide)]

def setDefaultModelAndProvider (provider modelId : String) : List (Assignment N) :=
  setDefaultProvider provider ++ setDefaultModel modelId

def setFollowUpMode (value : String) : List (Assignment N) :=
  [assignField "followUpMode" (some (.str value)) (by decide)]

def setTheme (value : String) : List (Assignment N) :=
  [assignField "theme" (some (.str value)) (by decide)]

def setDefaultThinkingLevel (value : String) : List (Assignment N) :=
  [assignField "defaultThinkingLevel" (some (.str value)) (by decide)]

def setDefaultProjectTrust (value : String) : List (Assignment N) :=
  [assignField "defaultProjectTrust" (some (.str value)) (by decide)]

def setTuiMode (value : String) : List (Assignment N) :=
  [assignField "tuiMode" (some (.str value)) (by decide)]

def setFullscreenExitOutput (value : String) : List (Assignment N) :=
  [assignField "fullscreenExitOutput" (some (.str value)) (by decide)]

def setFullscreenScrollbar (value : String) : List (Assignment N) :=
  [assignField "fullscreenScrollbar" (some (.str value)) (by decide)]

def setDoubleEscapeAction (value : String) : List (Assignment N) :=
  [assignField "doubleEscapeAction" (some (.str value)) (by decide)]

def setTreeFilterMode (value : String) : List (Assignment N) :=
  [assignField "treeFilterMode" (some (.str value)) (by decide)]

def setShellPath (path : Option String) : List (Assignment N) :=
  [assignField "shellPath" (path.map .str) (by decide)]

def setShellCommandPrefix (commandPrefix : Option String) : List (Assignment N) :=
  [assignField "shellCommandPrefix" (commandPrefix.map .str) (by decide)]

def setHideThinkingBlock (value : Bool) : List (Assignment N) :=
  [assignField "hideThinkingBlock" (some (.bool value)) (by decide)]

def setShowCacheMissNotices (value : Bool) : List (Assignment N) :=
  [assignField "showCacheMissNotices" (some (.bool value)) (by decide)]

def setQuietStartup (value : Bool) : List (Assignment N) :=
  [assignField "quietStartup" (some (.bool value)) (by decide)]

def setCollapseChangelog (value : Bool) : List (Assignment N) :=
  [assignField "collapseChangelog" (some (.bool value)) (by decide)]

def setEnableInstallTelemetry (value : Bool) : List (Assignment N) :=
  [assignField "enableInstallTelemetry" (some (.bool value)) (by decide)]

def setEnableSkillCommands (value : Bool) : List (Assignment N) :=
  [assignField "enableSkillCommands" (some (.bool value)) (by decide)]

def setFullscreenCopyOnSelect (value : Bool) : List (Assignment N) :=
  [assignField "fullscreenCopyOnSelect" (some (.bool value)) (by decide)]

def setShowHardwareCursor (value : Bool) : List (Assignment N) :=
  [assignField "showHardwareCursor" (some (.bool value)) (by decide)]

def setHttpIdleTimeoutMs (value : N) : List (Assignment N) :=
  [assignField "httpIdleTimeoutMs" (some (.num value)) (by decide)]

def setEditorPaddingX (value : N) : List (Assignment N) :=
  [assignField "editorPaddingX" (some (.num value)) (by decide)]

def setOutputPad (value : N) : List (Assignment N) :=
  [assignField "outputPad" (some (.num value)) (by decide)]

def setAutocompleteMaxVisible (value : N) : List (Assignment N) :=
  [assignField "autocompleteMaxVisible" (some (.num value)) (by decide)]

def setNpmCommand (items : Option (List String)) : List (Assignment N) :=
  [assignField "npmCommand" (items.map texts) (by decide)]

def setEnabledModels (items : Option (List String)) : List (Assignment N) :=
  [assignField "enabledModels" (items.map texts) (by decide)]

def setExtensionPaths (paths : List String) : List (Assignment N) :=
  [assignField "extensions" (some (texts paths)) (by decide)]

def setPromptTemplatePaths (paths : List String) : List (Assignment N) :=
  [assignField "prompts" (some (texts paths)) (by decide)]

def setThemePaths (paths : List String) : List (Assignment N) :=
  [assignField "themes" (some (texts paths)) (by decide)]

def setPackages (packages : List (Json N)) : List (Assignment N) :=
  [assignField "packages" (some (.arr packages)) (by decide)]

def setWarnings (warnings : Settings N) : List (Assignment N) :=
  [assignField "warnings" (some (.obj warnings)) (by decide)]

/-- The identifier is made where the settings have none. -/
def setEnableAnalytics (settings : Settings N) [JsonNumber N] (enabled : Bool)
    (randomUUID : String) : List (Assignment N) :=
  assignField "enableAnalytics" (some (.bool enabled)) (by decide) ::
    if enabled && !((Json.lookup "trackingId" settings).any Json.truthy) then
      [assignField "trackingId" (some (.str randomUUID)) (by decide)]
    else []

def setSteeringMode (mode : String) : List (Assignment N) :=
  [{ place := .field "steeringMode"
     value := some (.str mode)
     proper := by decide
     assignable := by simp [Assignable] }]

def setTransport (transport : String) : List (Assignment N) :=
  [{ place := .field "transport"
     value := some (.str transport)
     proper := by decide
     assignable := by simp [Assignable] }]

def setSkillPaths (paths : List String) : List (Assignment N) :=
  [{ place := .field "skills"
     value := some (texts paths)
     proper := by decide
     assignable := by simp [Assignable, texts] }]

def setCompactionEnabled (value : Bool) : List (Assignment N) :=
  [assignNested "compaction" "enabled" (.bool value) (by decide)]

def setRetryEnabled (value : Bool) : List (Assignment N) :=
  [assignNested "retry" "enabled" (.bool value) (by decide)]

def setShowImages (value : Bool) : List (Assignment N) :=
  [assignNested "terminal" "showImages" (.bool value) (by decide)]

def setImageWidthCells (value : N) : List (Assignment N) :=
  [assignNested "terminal" "imageWidthCells" (.num value) (by decide)]

def setClearOnShrink (value : Bool) : List (Assignment N) :=
  [assignNested "terminal" "clearOnShrink" (.bool value) (by decide)]

def setShowTerminalProgress (value : Bool) : List (Assignment N) :=
  [assignNested "terminal" "showTerminalProgress" (.bool value) (by decide)]

def setImageAutoResize (value : Bool) : List (Assignment N) :=
  [assignNested "images" "autoResize" (.bool value) (by decide)]

def setBlockImages (value : Bool) : List (Assignment N) :=
  [assignNested "images" "blockImages" (.bool value) (by decide)]

def setMermaidRenderingMode (value : String) : List (Assignment N) :=
  [assignNested "markdown" "mermaid" (.str value) (by decide)]

def assignLevel (provider modelId : String) (level : Option (Json N)) : Assignment N where
  place := .nested "modelThinkingLevels" (provider ++ "/" ++ modelId)
  value := level
  proper := List.mem_cons_self
  assignable := by simp [Assignable, nestedFields]

def setModelThinkingLevel (provider modelId level : String) : List (Assignment N) :=
  [assignLevel provider modelId (some (.str level))]

def removeModelThinkingLevel (provider modelId : String) : List (Assignment N) :=
  [assignLevel provider modelId none]

/-- A missing object starts as `{}`; where there is nothing to take a key from, and where a
primitive cannot take one, the setter ends early. -/
def assignPlace [JsonNumber N] (settings : Settings N) (place : Place) (value : Option (Json N)) :
    Option (Settings N) :=
  match place with
  | .field name => some (settings.assign name value)
  | .nested name key =>
    match (Json.lookup name settings).filter Json.truthy, value with
    | none, some value => some (settings.assign name (some (.obj [(key, value)])))
    | none, none => none
    | some (.obj members), some value =>
      some (settings.assign name (some (.obj (Json.setMembers key value members))))
    | some (.obj members), none =>
      let left := members.filter fun member => member.1 ≠ key
      some (settings.assign name (if left.isEmpty then none else some (.obj left)))
    | some _, _ => none

/-- `Set.add`. -/
def addMark {α : Type} [DecidableEq α] (marks : List α) (mark : α) : List α :=
  if mark ∈ marks then marks else marks ++ [mark]

namespace SettingsManager

def markModified (m : SettingsManager N) : Place → SettingsManager N
  | .field name => { m with modifiedFields := addMark m.modifiedFields name }
  | .nested name key =>
    { m with
      modifiedFields := addMark m.modifiedFields name
      modifiedNestedFields :=
        if name ∈ nestedFields then addMark m.modifiedNestedFields (name, key)
        else m.modifiedNestedFields }

def assignAll [JsonNumber N] (m : SettingsManager N) :
    List (Assignment N) → Option (SettingsManager N)
  | [] => some m
  | assignment :: rest =>
    match assignPlace m.settings assignment.place assignment.value with
    | none => none
    | some settings =>
      ({ m with settings := settings }.markModified assignment.place).assignAll rest

/-- What a write queued now carries. -/
def snapshot (m : SettingsManager N) : Write N :=
  ⟨m.settings, m.modifiedFields, m.modifiedNestedFields⟩

/-- `save` and `saveProjectSettings`: nothing is queued for a file that failed to load. -/
def save (m : SettingsManager N) : SettingsManager N :=
  if m.loadError then m
  else { m with writeQueue := m.writeQueue ++ [m.snapshot] }

def clearModifiedScope (m : SettingsManager N) : SettingsManager N :=
  { m with modifiedFields := [], modifiedNestedFields := [] }

end SettingsManager

def Write.nestedKeys (write : Write N) (field : String) : List String :=
  (write.modifiedNestedFields.filter fun mark => mark.1 = field).map Prod.snd

/-- What `persistScopedSettings` makes of a field: key by key where keys are marked and the
value is an object. -/
def persistedValue (write : Write N) (current : Settings N) (field : String) :
    Option (Json N) :=
  let value := Json.lookup field write.snapshotSettings
  match write.nestedKeys field, value.filter fun value => value matches .obj _ | .arr _ with
  | key :: keys, some inMemory =>
    some (.obj ((key :: keys).foldl
      (fun merged key => Settings.assign merged key (inMemory.get? key))
      (Settings.spread (Json.lookup field current))))
  | _, _ => value

def persistScopedSettings (write : Write N) (current : Option (Settings N)) :
    Settings N :=
  let currentFileSettings := migrateSettings (current.getD [])
  write.modifiedFields.foldl
    (fun merged field => merged.assign field (persistedValue write currentFileSettings field))
    currentFileSettings

/-- The manager and its file. `touched` are the places set since the last reload by calls that
queued a write, `set` all that were ever set; `edited` is what the file was after the last
edit by someone else. -/
structure SettingsWorld (N : Type) where
  manager : SettingsManager N
  file : Option (Settings N)
  touched : List Place
  set : List Place
  edited : Settings N
  lastSucceeded : Bool

/-- A setter call, the next queued write, an edit by another process, a reload that finds
the file well formed or not. -/
inductive SettingsEvent (N : Type) where
  | call (assignments : List (Assignment N))
  | write (succeeds : Bool)
  | edit (content : SettingsDocument N)
  | reload (loads : Bool)

namespace SettingsWorld

variable [JsonNumber N]

def inFile (w : SettingsWorld N) : Settings N := migrateSettings (w.file.getD [])

def start (file : Option (SettingsDocument N)) : SettingsWorld N where
  manager := ⟨migrateSettings ((file.map SettingsDocument.settings).getD []), [], [], false, []⟩
  file := file.map SettingsDocument.settings
  touched := []
  set := []
  edited := (file.map SettingsDocument.settings).getD []
  lastSucceeded := true

def call (w : SettingsWorld N) (assignments : List (Assignment N)) : SettingsWorld N :=
  match w.manager.assignAll assignments with
  | none => w
  | some m =>
    let places := assignments.map Assignment.place
    { w with
      manager := m.save
      touched := if w.manager.loadError then w.touched else places ++ w.touched
      set := places ++ w.set }

/-- The head of the queue, and what follows its success or failure. -/
def runWrite (w : SettingsWorld N) (succeeds : Bool) : Option (SettingsWorld N) :=
  match w.manager.writeQueue with
  | [] => none
  | write :: rest =>
    let m := { w.manager with writeQueue := rest }
    if succeeds then
      some { w with
        manager := m.clearModifiedScope
        file := some (persistScopedSettings write w.file)
        lastSucceeded := true }
    else some { w with manager := m, lastSucceeded := false }

def reload (w : SettingsWorld N) (loads : Bool) : SettingsWorld N :=
  let m :=
    if loads then
      { w.manager with
        settings := w.inFile
        loadError := false }
    else { w.manager with loadError := true }
  { w with manager := m.clearModifiedScope, touched := [] }

def step (w : SettingsWorld N) : SettingsEvent N → Option (SettingsWorld N)
  | .call assignments => some (w.call assignments)
  | .write succeeds => w.runWrite succeeds
  | .edit content => some { w with file := some content.settings, edited := content.settings }
  | .reload loads => some (w.reload loads)

end SettingsWorld

def settingsMachine [JsonNumber N] : Machine (SettingsWorld N) (SettingsEvent N) where
  start w := ∃ file, w = SettingsWorld.start file
  step := SettingsWorld.step

end Trpi.CodingAgent
