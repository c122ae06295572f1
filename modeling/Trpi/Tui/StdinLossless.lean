import Trpi.Tui.StdinBuffer

/-!
# What becomes of input

Input is emitted, still held, or a single character left out right after a Kitty sequence that
reported it. Where a paste begins behind a sequence that is not complete, that sequence is lost.
-/

namespace Trpi.Tui

open Library List
open Library.Utf16 (Units)

/-- Events stand for this input, from a reported codepoint that waits to one that still does. -/
inductive Accounts : Option Nat → List StdinEvent → Units → Option Nat → Prop
  | done (pending : Option Nat) : Accounts pending [] [] pending
  | data {pending later : Option Nat} {events : List StdinEvent} {input : Units}
    (sequence : Units)
    (rest : Accounts (parseUnmodifiedKittyPrintableCodepoint sequence) events input later) :
    Accounts pending (.data sequence :: events) (sequence ++ input) later
  | paste {pending later : Option Nat} {events : List StdinEvent} {input : Units}
    (content : Units) (rest : Accounts none events input later) :
    Accounts pending (.paste content :: events)
      (bracketedPasteStart ++ content ++ bracketedPasteEnd ++ input) later
  | suppressed {later : Option Nat} {events : List StdinEvent} {input : Units} (unit : UInt16)
    (rest : Accounts none events input later) :
    Accounts (some unit.toNat) events (unit :: input) later
  | forgotten {pending later : Option Nat} {events : List StdinEvent} {input : Units}
    (rest : Accounts none events input later) : Accounts pending events input later

theorem Accounts.trans {pending between later : Option Nat} {events more : List StdinEvent}
    {input next : Units} (first : Accounts pending events input between)
    (second : Accounts between more next later) :
    Accounts pending (events ++ more) (input ++ next) later := by
  induction first with
  | done => exact second
  | data sequence _ ih =>
    rw [append_assoc]
    exact .data sequence (ih second)
  | paste content _ ih =>
    rw [append_assoc]
    exact .paste content (ih second)
  | suppressed unit _ ih => exact .suppressed unit (ih second)
  | forgotten _ ih => exact .forgotten (ih second)

theorem Accounts.begins {pending later : Option Nat} {events : List StdinEvent}
    {input content : Units} (accounts : Accounts pending events input later)
    (none_ : pending = none) (first : events.head? = some (.paste content)) :
    bracketedPasteStart <+: input := by
  induction accounts with
  | done => cases first
  | data => cases first
  | paste content _ =>
    rw [append_assoc, append_assoc]
    exact prefix_append _ _
  | suppressed => cases none_
  | forgotten _ ih => exact ih rfl first

namespace StdinBuffer

/-- Input that is not emitted yet, with the marker of the paste it is in. -/
def held (s : StdinBuffer) : Units :=
  if s.pasteMode then bracketedPasteStart ++ s.pasteBuffer else s.buffer

/-- Only one of the two buffers is in use, and what was taken in is accounted for. -/
structure Keeps (s : StdinBuffer) (input : Units) : Prop where
  waits : s.pasteMode = true → s.buffer = []
  idle : s.pasteMode = false → s.pasteBuffer = []
  accounted : ∃ accounted, Accounts none s.events accounted
    s.pendingKittyPrintableCodepoint ∧ accounted ++ s.held = input

inductive StdinStep where
  | chunk (str : Units)
  | timeout

/-- The timer: what `flush` returns is emitted. -/
def timeout (s : StdinBuffer) : StdinBuffer := s.flush.2.foldl emitDataSequence s.flush.1

def step (s : StdinBuffer) : StdinStep → StdinBuffer
  | .chunk str => s.process str
  | .timeout => s.timeout

def run (steps : List StdinStep) : StdinBuffer := steps.foldl step create

def StdinStep.input : StdinStep → Units
  | .chunk str => str
  | .timeout => []

/-- No paste begins in this call behind a sequence that is not complete. -/
def whole (s : StdinBuffer) (str : Units) : Bool :=
  s.pasteMode || (indexOf bracketedPasteStart (s.buffer ++ str)).all fun startIndex =>
    (extractCompleteSequences ((s.buffer ++ str).take startIndex)).remainder = []

/-- Nor in a call that it makes of itself. -/
def wholeCalls : Nat → StdinBuffer → Units → Bool
  | 0, _, _ => true
  | calls + 1, s, str =>
    s.whole str &&
      ((s.processOnce str).2 = [] ||
        wholeCalls calls (s.processOnce str).1 (s.processOnce str).2)

def StdinStep.whole (s : StdinBuffer) : StdinStep → Bool
  | .chunk str =>
    wholeCalls (s.pasteBuffer.length + s.buffer.length + str.length + 1) s str
  | .timeout => true

/-- Every step of a run is whole. -/
def wholeRun : StdinBuffer → List StdinStep → Bool
  | _, [] => true
  | s, next :: steps => next.whole s && wholeRun (s.step next) steps

def Accounted (steps : List StdinStep) : Prop :=
  ∃ accounted later, Accounts none (run steps).events accounted later ∧
    accounted ++ (run steps).held = steps.flatMap StdinStep.input

section

variable {s : StdinBuffer} {input str : Units}

theorem extractCompleteSequences_flatten_append (buffer : Units) :
    (extractCompleteSequences buffer).sequences.flatten ++
      (extractCompleteSequences buffer).remainder = buffer := by
  have rounds (count : Nat) : ∀ remaining : Units,
      (extractRounds count remaining).sequences.flatten ++
        (extractRounds count remaining).remainder = remaining := by
    induction count with
    | zero => exact fun remaining => rfl
    | succ count ih =>
      intro remaining
      rw [extractRounds]
      split
      · rename_i empty
        exact empty.symm
      · split
        · rfl
        · simp [append_assoc, ih]
  exact rounds buffer.length buffer

theorem emitDataSequence_accounts (s : StdinBuffer) (sequence : Units) :
    ∃ extra, s.emitDataSequence sequence =
      { s with
        pendingKittyPrintableCodepoint :=
          (s.emitDataSequence sequence).pendingKittyPrintableCodepoint
        events := s.events ++ extra } ∧
      Accounts s.pendingKittyPrintableCodepoint extra sequence
        (s.emitDataSequence sequence).pendingKittyPrintableCodepoint := by
  unfold emitDataSequence
  dsimp only
  split_ifs with long reported reported
  · refine ⟨[], by simp, ?_⟩
    obtain ⟨unit, rfl⟩ := length_eq_one_iff.mp long
    rw [← reported.2]
    exact .suppressed unit (.done none)
  · refine ⟨[.data sequence], rfl, ?_⟩
    have shown := @Accounts.data s.pendingKittyPrintableCodepoint _ _ _ sequence (.done _)
    rwa [append_nil] at shown
  · exact absurd rfl reported.1
  · refine ⟨[.data sequence], rfl, ?_⟩
    have shown := @Accounts.data s.pendingKittyPrintableCodepoint _ _ _ sequence (.done _)
    rwa [append_nil] at shown

theorem emitAll_accounts (s : StdinBuffer) (sequences : List Units) :
    ∃ extra, sequences.foldl emitDataSequence s =
      { s with
        pendingKittyPrintableCodepoint :=
          (sequences.foldl emitDataSequence s).pendingKittyPrintableCodepoint
        events := s.events ++ extra } ∧
      Accounts s.pendingKittyPrintableCodepoint extra sequences.flatten
        (sequences.foldl emitDataSequence s).pendingKittyPrintableCodepoint := by
  induction sequences generalizing s with
  | nil => exact ⟨[], by simp, .done _⟩
  | cons sequence sequences ih =>
    obtain ⟨extra, emitted, accounts⟩ := emitDataSequence_accounts s sequence
    obtain ⟨more, later, rest⟩ := ih (s.emitDataSequence sequence)
    refine ⟨extra ++ more, ?_, accounts.trans rest⟩
    rw [foldl_cons, later, emitted]
    simp

/-- What a call has taken in, and what it processes next. -/
def Hands (result : StdinBuffer × Units) (input : Units) : Prop :=
  ∃ taken, result.1.Keeps taken ∧ taken ++ result.2 = input

theorem processPaste_hands (keeps : s.Keeps input) (mode : s.pasteMode = true) :
    Hands s.processPaste input := by
  obtain ⟨accounted, accounts, whole⟩ := keeps.accounted
  have waits := keeps.waits mode
  unfold processPaste
  split
  · exact ⟨input, keeps, append_nil _⟩
  · rename_i endIndex found
    obtain ⟨marker, -⟩ := take_of_mem_positions (mem_positions_of_indexOf found)
    refine ⟨accounted ++ (bracketedPasteStart ++ s.pasteBuffer.take endIndex ++
      bracketedPasteEnd), ⟨fun absurd => (nomatch absurd), fun _ => rfl, _, accounts.trans
        (.forgotten (.paste _ (.done none))), ?_⟩, ?_⟩
    · simp [held, finishPaste, waits]
    · rw [← whole, held, if_pos mode]
      have rest := take_append_drop bracketedPasteEnd.length (s.pasteBuffer.drop endIndex)
      rw [marker, drop_drop] at rest
      simp only [append_assoc, rest, take_append_drop]

theorem emitDataSequence_keeps (keeps : s.Keeps input) : (s.emitDataSequence []).Keeps input := by
  obtain ⟨accounted, accounts, total⟩ := keeps.accounted
  obtain ⟨extra, emitted, shown⟩ := emitDataSequence_accounts s []
  have shown := accounts.trans shown
  rw [append_nil] at shown
  rw [emitted]
  exact ⟨keeps.waits, keeps.idle, accounted, shown, total⟩

theorem processOnce_hands (keeps : s.Keeps input) (whole : s.whole str = true) :
    Hands (s.processOnce str) (input ++ str) := by
  obtain ⟨accounted, accounts, total⟩ := keeps.accounted
  unfold processOnce
  split_ifs with empty mode
  · rw [empty.1, append_nil]
    exact ⟨input, emitDataSequence_keeps keeps, append_nil _⟩
  · apply processPaste_hands _ (by exact mode)
    refine ⟨fun _ => rfl, fun plain => absurd mode (ne_true_of_eq_false plain), accounted, accounts,
      ?_⟩
    rw [← total, held, held, if_pos mode, if_pos mode, keeps.waits mode]
    simp [append_assoc]
  · have plain : s.pasteMode = false := Bool.eq_false_iff.mpr mode
    rw [held, if_neg mode] at total
    dsimp only
    split
    · rename_i startIndex found
      have complete : (extractCompleteSequences
          ((s.buffer ++ str).take startIndex)).remainder = [] := by
        simpa [StdinBuffer.whole, plain, found] using whole
      have cut := extractCompleteSequences_flatten_append ((s.buffer ++ str).take startIndex)
      rw [complete, append_nil] at cut
      obtain ⟨extra, emitted, shown⟩ := emitAll_accounts s
        (extractCompleteSequences ((s.buffer ++ str).take startIndex)).sequences
      rw [cut] at shown
      apply processPaste_hands _ rfl
      refine ⟨fun _ => rfl, fun absurd => (by cases absurd),
        accounted ++ (s.buffer ++ str).take startIndex, ?_, ?_⟩
      · rw [emitted]
        have settled := (accounts.trans shown).trans (.forgotten (.done none))
        rwa [append_nil, append_nil] at settled
      · obtain ⟨marker, -⟩ := take_of_mem_positions (mem_positions_of_indexOf found)
        have rest := take_append_drop bracketedPasteStart.length ((s.buffer ++ str).drop startIndex)
        rw [marker, drop_drop] at rest
        rw [held, if_pos rfl, append_assoc, rest, take_append_drop, ← total, append_assoc]
    · obtain ⟨extra, emitted, shown⟩ := emitAll_accounts
        { s with buffer := (extractCompleteSequences (s.buffer ++ str)).remainder }
        (extractCompleteSequences (s.buffer ++ str)).sequences
      rw [emitted]
      refine ⟨_, ⟨fun on => absurd on mode, keeps.idle, _, accounts.trans shown, rfl⟩, ?_⟩
      rw [held, if_neg mode, ← total]
      simp [append_assoc, extractCompleteSequences_flatten_append]

theorem processCalls_keeps (calls : Nat) (keeps : s.Keeps input)
    (whole : wholeCalls calls s str = true) (enough : s.size + str.length < calls) :
    (processCalls calls s str).Keeps (input ++ str) := by
  induction calls generalizing s str input with
  | zero => cases enough
  | succ calls ih =>
    rw [wholeCalls, Bool.and_eq_true, Bool.or_eq_true, decide_eq_true_eq] at whole
    obtain ⟨taken, kept, all⟩ := processOnce_hands keeps whole.1
    rw [processCalls]
    split
    · rename_i next remaining once
      rw [once] at kept all whole
      dsimp only at kept all whole ⊢
      split_ifs with last
      · rw [last, append_nil] at all
        rwa [← all]
      · have shrinks := @processOnce_shrinks s str (by rwa [once])
        rw [once] at shrinks
        dsimp only at shrinks
        rw [← all]
        exact ih kept (whole.2.resolve_left last) (by omega)

theorem timeout_keeps (keeps : s.Keeps input) : s.timeout.Keeps input := by
  unfold timeout flush
  split_ifs with empty
  · exact keeps
  · obtain ⟨accounted, accounts, total⟩ := keeps.accounted
    have plain : s.pasteMode ≠ true := fun mode => empty (keeps.waits mode)
    obtain ⟨extra, emitted, shown⟩ := emitDataSequence_accounts
      { s with buffer := [], pendingKittyPrintableCodepoint := none } s.buffer
    rw [held, if_neg plain] at total
    rw [foldl_cons, foldl_nil, emitted]
    refine ⟨fun _ => rfl, keeps.idle, _, accounts.trans (.forgotten shown), ?_⟩
    rw [held, if_neg plain, append_nil, total]

theorem step_keeps {next : StdinStep} (keeps : s.Keeps input)
    (whole : next.whole s = true) : (s.step next).Keeps (input ++ next.input) := by
  cases next with
  | chunk str => exact processCalls_keeps _ keeps whole (Nat.lt_succ_self _)
  | timeout =>
    rw [StdinStep.input, append_nil]
    exact timeout_keeps keeps

theorem run_keeps {steps : List StdinStep} (keeps : s.Keeps input)
    (whole : wholeRun s steps = true) :
    (steps.foldl step s).Keeps (input ++ steps.flatMap StdinStep.input) := by
  induction steps generalizing s input with
  | nil => simpa using keeps
  | cons next steps ih =>
    rw [wholeRun, Bool.and_eq_true] at whole
    rw [foldl_cons, flatMap_cons, ← append_assoc]
    exact ih (step_keeps keeps whole.1) whole.2

end

/-- In a run in which no paste begins behind an incomplete sequence no input is lost. -/
theorem run_accounted (steps : List StdinStep) (whole : wholeRun create steps = true) :
    Accounted steps := by
  have begun : create.Keeps [] :=
    ⟨fun _ => rfl, fun _ => rfl, [], .done none, rfl⟩
  obtain ⟨accounted, accounts, total⟩ := (run_keeps begun whole).accounted
  exact ⟨accounted, _, accounts, total⟩

/-- An arrow key that a timeout cuts, and a paste behind it. -/
theorem run_accounted_sample :
    Accounted [.chunk (text "a\x1b["), .timeout, .chunk (text "B\x1b[200~x\x1b[201~c")] :=
  run_accounted _ (by decide +kernel)

/-- An Escape that still waits when a paste arrives is never seen. -/
theorem escape_lost : ¬ Accounted [.chunk [esc], .chunk (text "\x1b[200~x\x1b[201~")] := by
  rintro ⟨accounted, later, accounts, total⟩
  have events : (run [.chunk [esc], .chunk (text "\x1b[200~x\x1b[201~")]).events =
      [.paste (text "x")] := by decide +kernel
  have rest : (run [.chunk [esc], .chunk (text "\x1b[200~x\x1b[201~")]).held = [] := by
    decide +kernel
  rw [rest, append_nil] at total
  rw [events, total] at accounts
  exact absurd (accounts.begins rfl rfl) (by decide +kernel)

end StdinBuffer

end Trpi.Tui
