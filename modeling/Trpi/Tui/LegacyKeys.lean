import Trpi.Tui.StdinFraming

/-!
# Legacy key sequences

The tables of tui/src/keys.ts by which a key is matched, and what becomes of their
sequences in the stdin buffer. The Linux console's `ESC [ [ x` ends for the buffer
with the second bracket, and rxvt's `ESC [ n $` does not end with the dollar sign;
every other sequence of the tables is a unit.
-/

namespace Trpi.Tui

open Library List
open Library.Utf16 (Units)

def LEGACY_KEY_SEQUENCES : List (String × List Units) :=
  [("up", [text "\x1b[A", text "\x1bOA"]),
   ("down", [text "\x1b[B", text "\x1bOB"]),
   ("right", [text "\x1b[C", text "\x1bOC"]),
   ("left", [text "\x1b[D", text "\x1bOD"]),
   ("home", [text "\x1b[H", text "\x1bOH", text "\x1b[1~", text "\x1b[7~"]),
   ("end", [text "\x1b[F", text "\x1bOF", text "\x1b[4~", text "\x1b[8~"]),
   ("insert", [text "\x1b[2~"]),
   ("delete", [text "\x1b[3~"]),
   ("pageUp", [text "\x1b[5~", text "\x1b[[5~"]),
   ("pageDown", [text "\x1b[6~", text "\x1b[[6~"]),
   ("clear", [text "\x1b[E", text "\x1bOE"]),
   ("f1", [text "\x1bOP", text "\x1b[11~", text "\x1b[[A"]),
   ("f2", [text "\x1bOQ", text "\x1b[12~", text "\x1b[[B"]),
   ("f3", [text "\x1bOR", text "\x1b[13~", text "\x1b[[C"]),
   ("f4", [text "\x1bOS", text "\x1b[14~", text "\x1b[[D"]),
   ("f5", [text "\x1b[15~", text "\x1b[[E"]),
   ("f6", [text "\x1b[17~"]),
   ("f7", [text "\x1b[18~"]),
   ("f8", [text "\x1b[19~"]),
   ("f9", [text "\x1b[20~"]),
   ("f10", [text "\x1b[21~"]), ("f11", [text "\x1b[23~"]), ("f12", [text "\x1b[24~"])]

def LEGACY_SHIFT_SEQUENCES : List (String × List Units) :=
  [("up", [text "\x1b[a"]),
   ("down", [text "\x1b[b"]),
   ("right", [text "\x1b[c"]),
   ("left", [text "\x1b[d"]),
   ("clear", [text "\x1b[e"]),
   ("insert", [text "\x1b[2$"]),
   ("delete", [text "\x1b[3$"]),
   ("pageUp", [text "\x1b[5$"]),
   ("pageDown", [text "\x1b[6$"]), ("home", [text "\x1b[7$"]), ("end", [text "\x1b[8$"])]

def LEGACY_CTRL_SEQUENCES : List (String × List Units) :=
  [("up", [text "\x1bOa"]),
   ("down", [text "\x1bOb"]),
   ("right", [text "\x1bOc"]),
   ("left", [text "\x1bOd"]),
   ("clear", [text "\x1bOe"]),
   ("insert", [text "\x1b[2^"]),
   ("delete", [text "\x1b[3^"]),
   ("pageUp", [text "\x1b[5^"]),
   ("pageDown", [text "\x1b[6^"]), ("home", [text "\x1b[7^"]), ("end", [text "\x1b[8^"])]

def LEGACY_SEQUENCE_KEY_IDS : List (Units × String) :=
  [(text "\x1bOA", "up"), (text "\x1bOB", "down"), (text "\x1bOC", "right"), (text "\x1bOD", "left"),
   (text "\x1bOH", "home"), (text "\x1bOF", "end"), (text "\x1b[E", "clear"),
   (text "\x1bOE", "clear"), (text "\x1bOe", "ctrl+clear"), (text "\x1b[e", "shift+clear"),
   (text "\x1b[2~", "insert"), (text "\x1b[2$", "shift+insert"), (text "\x1b[2^", "ctrl+insert"),
   (text "\x1b[3$", "shift+delete"), (text "\x1b[3^", "ctrl+delete"), (text "\x1b[[5~", "pageUp"),
   (text "\x1b[[6~", "pageDown"), (text "\x1b[a", "shift+up"), (text "\x1b[b", "shift+down"),
   (text "\x1b[c", "shift+right"), (text "\x1b[d", "shift+left"), (text "\x1bOa", "ctrl+up"),
   (text "\x1bOb", "ctrl+down"), (text "\x1bOc", "ctrl+right"), (text "\x1bOd", "ctrl+left"),
   (text "\x1b[5$", "shift+pageUp"), (text "\x1b[6$", "shift+pageDown"),
   (text "\x1b[7$", "shift+home"), (text "\x1b[8$", "shift+end"), (text "\x1b[5^", "ctrl+pageUp"),
   (text "\x1b[6^", "ctrl+pageDown"), (text "\x1b[7^", "ctrl+home"), (text "\x1b[8^", "ctrl+end"),
   (text "\x1bOP", "f1"), (text "\x1bOQ", "f2"), (text "\x1bOR", "f3"), (text "\x1bOS", "f4"),
   (text "\x1b[11~", "f1"), (text "\x1b[12~", "f2"), (text "\x1b[13~", "f3"),
   (text "\x1b[14~", "f4"), (text "\x1b[[A", "f1"), (text "\x1b[[B", "f2"), (text "\x1b[[C", "f3"),
   (text "\x1b[[D", "f4"), (text "\x1b[[E", "f5"), (text "\x1b[15~", "f5"), (text "\x1b[17~", "f6"),
   (text "\x1b[18~", "f7"), (text "\x1b[19~", "f8"), (text "\x1b[20~", "f9"),
   (text "\x1b[21~", "f10"), (text "\x1b[23~", "f11"), (text "\x1b[24~", "f12"),
   (text "\x1bb", "alt+left"), (text "\x1bf", "alt+right"), (text "\x1bp", "alt+up"),
   (text "\x1bn", "alt+down")]

def recognised : List Units :=
  LEGACY_KEY_SEQUENCES.flatMap Prod.snd ++ LEGACY_SHIFT_SEQUENCES.flatMap Prod.snd ++
    LEGACY_CTRL_SEQUENCES.flatMap Prod.snd ++ LEGACY_SEQUENCE_KEY_IDS.map Prod.fst

/-- Neither a Linux console form nor an rxvt form that ends with a dollar sign. -/
def Bufferable (sequence : Units) : Prop :=
  ¬ text "\x1b[[" <+: sequence ∧ sequence.getLast? ≠ some (ascii '$')

instance (sequence : Units) : Decidable (Bufferable sequence) :=
  inferInstanceAs (Decidable (¬ _ ∧ _ ≠ _))

/-- Read a sequence of the tables as a unit. -/
def unitOf : Units → InputUnit
  | [_, key] => .metaKey key
  | first :: second :: rest =>
    if second = ascii 'O' then .ss3 (rest.headD 0)
    else .csi rest.dropLast (rest.getLastD first)
  | _ => .char 0

def InputUnit.isChar : InputUnit → Bool
  | .char _ => true
  | _ => false

instance (unit : InputUnit) : Decidable unit.WellFormed :=
  match unit with
  | .char _ => inferInstanceAs (Decidable (_ ≠ _))
  | .csi parameters _ =>
    letI := List.decidableBAll (fun unit => isParameterByte unit = true) parameters
    inferInstanceAs (Decidable ((∀ unit ∈ parameters, isParameterByte unit = true) ∧ _ = true ∧
      _ ≠ _ ∧ (_ = _ → _ ≠ _) ∧ ¬ (_ = _ ∧ _ = _)))
  | .mouseSgr _ _ _ _ => inferInstanceAs (Decidable (_ = _ ∧ _ = _ ∧ _ = _ ∧ (_ = _ ∨ _ = _)))
  | .mouseX10 _ _ _ => inferInstanceAs (Decidable (_ ≠ _ ∧ _ ≠ _ ∧ _ ≠ _))
  | .ss3 _ => inferInstanceAs (Decidable (_ ≠ _))
  | .osc _ _ => inferInstanceAs (Decidable (_ ∉ _ ∧ _ ∉ _))
  | .dcs _ => inferInstanceAs (Decidable (_ ∉ _))
  | .apc _ => inferInstanceAs (Decidable (_ ∉ _))
  | .metaKey _ => inferInstanceAs (Decidable (_ ≠ _ ∧ _ ∉ _))
  | .paste content => inferInstanceAs (Decidable (¬ bracketedPasteEnd <:+: content))

set_option maxRecDepth 4000 in
theorem unitOf_recognised : ∀ sequence ∈ recognised, Bufferable sequence →
    (unitOf sequence).WellFormed ∧ (unitOf sequence).units = sequence ∧
      (unitOf sequence).isPaste = false ∧ (unitOf sequence).isChar = false := by
  decide

theorem deliver_sequences {units : List InputUnit} (sequences : ∀ unit ∈ units, unit.isPaste = false)
    (noChars : ∀ unit ∈ units, unit.isChar = false) (pending : Option Nat) :
    deliver pending units = units.map fun unit => .data unit.units := by
  induction units generalizing pending with
  | nil => rfl
  | cons unit rest ih =>
    have later := ih (fun other mem => sequences other (.tail _ mem))
      (fun other mem => noChars other (.tail _ mem))
    have notPaste := sequences unit mem_cons_self
    have notChar := noChars unit mem_cons_self
    rw [deliver, map_cons]
    cases unit with
    | char c => cases notChar
    | paste content => cases notPaste
    | _ => simp [InputUnit.repeats, InputUnit.event, later]

namespace StdinBuffer

section

variable {before : List StdinEvent} {s : StdinBuffer}

section

variable (start : before <+: s.events)

include start

theorem emit_events_grow (sequence : Units) : before <+: (s.emitDataSequence sequence).events := by
  rw [emitDataSequence]
  generalize (if sequence.length = 1 then sequence.head?.map UInt16.toNat else none) = raw
  split
  · exact start
  · exact start.trans (prefix_append _ _)

theorem emitAll_events_grow (sequences : List Units) :
    before <+: (sequences.foldl emitDataSequence s).events := by
  induction sequences generalizing s with
  | nil => exact start
  | cons sequence rest ih => exact ih (emit_events_grow start sequence)

theorem processPaste_events_grow : before <+: s.processPaste.1.events := by
  unfold processPaste
  split
  · exact start
  · exact start.trans (prefix_append _ _)

theorem processOnce_events_grow (str : Units) : before <+: (s.processOnce str).1.events := by
  unfold processOnce
  split
  · exact emit_events_grow start _
  · dsimp only
    split
    · exact processPaste_events_grow start
    · split
      · apply processPaste_events_grow
        exact emitAll_events_grow start _
      · apply emitAll_events_grow
        exact start

theorem process_events_grow (str : Units) : before <+: (s.process str).events := by
  induction measure : s.size + str.length using Nat.strongRecOn generalizing s str with
  | ind total ih =>
    rw [process_eq]
    split
    · exact processOnce_events_grow start str
    · rename_i more
      have shrinks := processOnce_shrinks more
      exact ih _ (by omega) (processOnce_events_grow start str) _ rfl

theorem processAll_events_grow (chunks : List Units) : before <+: (s.processAll chunks).events := by
  induction chunks generalizing s with
  | nil => exact start
  | cons chunk rest ih => exact ih (process_events_grow start chunk)

end

end

/-- Of a form that the buffer does not know, with the beginning of the next key behind
it, it makes another sequence, or nothing where no key follows. -/
def Misread (key ahead : Units) : Prop :=
  indexOf bracketedPasteStart (key ++ ahead) = none ∧
    (∀ first ∈ (extractCompleteSequences (key ++ ahead)).sequences.head?,
      first ≠ key ∧ 2 ≤ first.length) ∧
    ((extractCompleteSequences (key ++ ahead)).sequences = [] → ahead = [])
  deriving Decidable

/-- How the sequences of the tables begin. -/
def beginnings : List Units :=
  [text "\x1b[", text "\x1bO", text "\x1bb", text "\x1bf", text "\x1bp", text "\x1bn"]

set_option maxRecDepth 4000 in
theorem take_recognised : ∀ key ∈ recognised, key.take 2 ∈ beginnings := by
  decide

set_option maxRecDepth 8000 in
theorem misread_recognised : ∀ key ∈ recognised, ¬ Bufferable key →
    Misread key [] ∧ ∀ ahead ∈ beginnings, Misread key ahead := by
  decide

set_option maxRecDepth 4000 in
theorem recognised_ne_nil : ∀ key ∈ recognised, key ≠ [] := by
  decide

theorem process_misread {s : StdinBuffer} {key ahead : Units} (idle : s.buffer = [])
    (mode : s.pasteMode = false) (given : key ≠ []) (misread : Misread key ahead) :
    (ahead = [] ∧ (s.process (key ++ ahead)).events = s.events) ∨
      ∃ first, first ≠ key ∧ s.events ++ [.data first] <+: (s.process (key ++ ahead)).events := by
  obtain ⟨unmarked, others, silent⟩ := misread
  have nonempty : ¬ (key ++ ahead = [] ∧ s.buffer = []) := fun both =>
    given (append_eq_nil_iff.mp both.1).1
  have once : s.processOnce (key ++ ahead) =
      ((extractCompleteSequences (key ++ ahead)).sequences.foldl emitDataSequence
        { s with buffer := (extractCompleteSequences (key ++ ahead)).remainder }, []) := by
    rw [processOnce, if_neg nonempty]
    simp [mode, idle, unmarked]
  rw [process_eq, once]
  simp only [if_true]
  cases sequences : (extractCompleteSequences (key ++ ahead)).sequences with
  | nil => exact .inl ⟨silent sequences, rfl⟩
  | cons first more =>
    obtain ⟨other, long⟩ := others first (by rw [sequences]; rfl)
    refine .inr ⟨first, other, ?_⟩
    rw [foldl_cons, emit_long _ long]
    apply emitAll_events_grow
    exact prefix_rfl

/-- A text cut off as one string, unless it is empty. -/
def oneString (text : Units) : List Units := if text = [] then [] else [text]

theorem oneString_flatten (text : Units) : (oneString text).flatten = text := by
  unfold oneString
  split
  · rename_i empty
    rw [empty]
    rfl
  · exact append_nil _

theorem oneString_nonempty (text : Units) : ∀ chunk ∈ oneString text, chunk ≠ [] := by
  unfold oneString
  split
  · simp
  · rename_i some
    simpa using some

/-- Keys of known forms arrive as they are, however they are cut. -/
theorem processAll_bufferable {keys chunks : List Units} (known : ∀ key ∈ keys, key ∈ recognised)
    (bufferable : ∀ key ∈ keys, Bufferable key) (given : ∀ chunk ∈ chunks, chunk ≠ [])
    (cut : chunks.flatten = keys.flatten) :
    (create.processAll chunks).events = keys.map StdinEvent.data ∧
      (create.processAll chunks).buffer = [] ∧ (create.processAll chunks).pasteMode = false := by
  have facts (key : Units) (mem : key ∈ keys) :=
    unitOf_recognised key (known key mem) (bufferable key mem)
  have units : (keys.map unitOf).map InputUnit.units = keys := by
    rw [map_map]
    conv_rhs => rw [← map_id keys]
    exact map_congr_left fun key mem => (facts key mem).2.1
  have wellFormed : ∀ unit ∈ keys.map unitOf, unit.WellFormed :=
    forall_mem_map.mpr fun key mem => (facts key mem).1
  have framed := processAll_framed wellFormed given (by rw [cut, stream, units])
  rw [deliver_sequences (forall_mem_map.mpr fun key mem => (facts key mem).2.2.1)
    (forall_mem_map.mpr fun key mem => (facts key mem).2.2.2)] at framed
  refine ⟨?_, framed.2⟩
  calc (create.processAll chunks).events
      = ((keys.map unitOf).map InputUnit.units).map StdinEvent.data := by
        simp only [framed.1, map_map]
        rfl
    _ = keys.map StdinEvent.data := by rw [units]

/-- A key of another form does not arrive as it is when what follows it is cut after two
units. -/
theorem processAll_unbufferable {good rest : List Units} {key : Units}
    (known : ∀ other ∈ good ++ key :: rest, other ∈ recognised)
    (bufferable : ∀ other ∈ good, Bufferable other) (other : ¬ Bufferable key) :
    ∃ chunks : List Units, (∀ chunk ∈ chunks, chunk ≠ []) ∧
      chunks.flatten = (good ++ key :: rest).flatten ∧
      (create.processAll chunks).events ≠ (good ++ key :: rest).map StdinEvent.data := by
  have isKey := known key (by simp)
  have given := recognised_ne_nil key isKey
  have goodKnown : ∀ other ∈ good, other ∈ recognised := fun other mem =>
    known other (mem_append_left _ mem)
  obtain ⟨ahead, later, split, misread, noneLeft⟩ : ∃ ahead later, rest.flatten = ahead ++ later ∧
      Misread key ahead ∧ (ahead = [] → rest = []) := by
    cases rest with
    | nil => exact ⟨[], [], rfl, (misread_recognised key isKey other).1, fun _ => rfl⟩
    | cons next rest =>
      have isNext := known next (by simp)
      refine ⟨next.take 2, next.drop 2 ++ rest.flatten, ?_,
        (misread_recognised key isKey other).2 _ (take_recognised next isNext), ?_⟩
      · rw [flatten_cons, ← append_assoc, take_append_drop]
      · intro empty
        cases next with
        | nil => exact absurd rfl (recognised_ne_nil _ isNext)
        | cons unit next => cases empty
  have start := processAll_bufferable goodKnown bufferable (oneString_nonempty good.flatten)
    (oneString_flatten good.flatten)
  refine ⟨oneString good.flatten ++ (key ++ ahead) :: oneString later, ?_, ?_, ?_⟩
  · intro chunk mem
    rcases mem_append.mp mem with mem | mem
    · exact oneString_nonempty _ _ mem
    · rcases mem_cons.mp mem with rfl | mem
      · exact append_ne_nil_of_left_ne_nil given _
      · exact oneString_nonempty _ _ mem
  · simp [oneString_flatten, split]
  · intro same
    have grown (events : List StdinEvent)
        (seen : events <+: ((create.processAll (oneString good.flatten)).process
          (key ++ ahead)).events) : events <+: (good ++ key :: rest).map StdinEvent.data := by
      rw [← same, processAll, foldl_append, foldl_cons]
      exact processAll_events_grow seen _
    rcases process_misread start.2.1 start.2.2 given misread with ⟨empty, unchanged⟩ | ⟨first, different, seen⟩
    · have nothing := noneLeft empty
      subst nothing
      have empty' : later = [] := by
        rw [empty] at split
        exact split.symm
      rw [empty', processAll, foldl_append, foldl_cons] at same
      have length := congrArg length (same.symm.trans (unchanged.trans start.1))
      simp at length
    · have found := grown _ seen
      rw [start.1, map_append, prefix_append_right_inj, map_cons, cons_prefix_cons] at found
      exact different (StdinEvent.data.inj found.1)

/-- Pressed keys arrive one event each, however their sequences are cut, exactly when
none is sent in a form the buffer does not know. -/
theorem keys_survive_iff {keys : List Units} (known : ∀ key ∈ keys, key ∈ recognised) :
    (∀ chunks : List Units, (∀ chunk ∈ chunks, chunk ≠ []) → chunks.flatten = keys.flatten →
      (create.processAll chunks).events = keys.map StdinEvent.data) ↔
      ∀ key ∈ keys, Bufferable key := by
  constructor
  · intro survive
    cases found : keys.find? fun key => ¬ Bufferable key with
    | none => simpa using List.find?_eq_none.mp found
    | some key =>
      obtain ⟨other, good, rest, rfl, before⟩ := List.find?_eq_some_iff_append.mp found
      obtain ⟨chunks, given, cut, differ⟩ := processAll_unbufferable known
        (by simpa using before) (by simpa using other)
      exact absurd (survive chunks given cut) differ
  · intro bufferable chunks given cut
    exact (processAll_bufferable known bufferable given cut).1

theorem keys_survive_iff_sample :
    (∀ chunks : List Units, (∀ chunk ∈ chunks, chunk ≠ []) →
      chunks.flatten = [text "\x1b[A", text "\x1b[[5~"].flatten →
      (create.processAll chunks).events =
        [text "\x1b[A", text "\x1b[[5~"].map StdinEvent.data) ↔
      ∀ key ∈ [text "\x1b[A", text "\x1b[[5~"], Bufferable key :=
  keys_survive_iff (by decide)

/-- F1 of the Linux console is split, and rxvt's shifted delete is glued to the next key. -/
theorem console_keys_misread :
    (∀ key ∈ [text "\x1b[[A", text "\x1b[3$", text "\x1b[A"], key ∈ recognised) ∧
      (create.processAll [text "\x1b[[A"]).events ≠ [text "\x1b[[A"].map StdinEvent.data ∧
      (create.processAll [text "\x1b[3$\x1b[A"]).events ≠
        [text "\x1b[3$", text "\x1b[A"].map StdinEvent.data := by
  decide

end StdinBuffer

end Trpi.Tui
