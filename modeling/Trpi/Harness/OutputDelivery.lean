import Trpi.Harness.OutputPublication

/-!
# What a reader of the updates has

The updates that were published are folded in the order they were delivered. Whatever the
consumer does in between, each leads to the snapshot it was made from, and when no timer is
pending the last one leads to the snapshot of now. Before the first there is nothing to fold;
the capture is then as it was made.
-/

namespace Trpi.Harness

open Library Option List OutputCapture
open Library.Utf16 (Units units)

/-- The updates applied one after another. -/
def foldUpdates (log : List (ShellOutputUpdate × SpilledOutputView)) : Option SpilledOutputView :=
  log.foldl (fun view publication => some (applyShellOutputUpdate view publication.1)) none

theorem foldUpdates_append (log : List (ShellOutputUpdate × SpilledOutputView))
    (publication : ShellOutputUpdate × SpilledOutputView) :
    foldUpdates (log ++ [publication]) =
      some (applyShellOutputUpdate (foldUpdates log) publication.1) := by
  rw [foldUpdates, foldl_append]
  rfl

structure PublicationInvariant (fresh : SpilledOutputView) (s : PublishedCapture) : Prop where
  serves : s.publisher.Serves (foldUpdates s.log) s.snapshot fresh
  exact : ∀ before publication after, s.log = before ++ publication :: after →
    foldUpdates (before ++ [publication]) = some publication.2
  disposed : s.publisher.disposed = s.capture.disposed

theorem updateFrom_exact (measure : ShellOutputUpdate → Nat) (previous : Option SpilledOutputView)
    (current : SpilledOutputView) :
    ∃ update, (publisherOptions measure).update previous current = some update ∧
      applyShellOutputUpdate previous update = current :=
  ⟨updateFrom previous current, rfl, apply_updateFrom previous current⟩

theorem disposed_bound (capture : OutputCapture) : capture.bound.disposed = capture.disposed := by
  rw [bound]
  dsimp only
  split
  · rfl
  · rfl

theorem disposed_appendText (capture : OutputCapture) (text : Units) :
    (capture.appendText text).disposed = capture.disposed := by
  rw [appendText]
  split
  · rfl
  · rw [disposed_bound]
    rfl

namespace PublishedCapture

variable {measure : ShellOutputUpdate → Nat} {fresh : SpilledOutputView} {s : PublishedCapture}

theorem invariant_publish
    {result : AdaptivePublisher SpilledOutputView × Option ShellOutputUpdate}
    (exact_ : ∀ before publication after, s.log = before ++ publication :: after →
      foldUpdates (before ++ [publication]) = some publication.2)
    (disposed : s.publisher.disposed = s.capture.disposed)
    (delivers : s.publisher.Delivers applyShellOutputUpdate (foldUpdates s.log)
      s.snapshot fresh result) : PublicationInvariant fresh (s.publish result) := by
  obtain ⟨publisher, sent⟩ := result
  cases sent with
  | none =>
    constructor
    · exact delivers.serves
    · exact exact_
    · exact delivers.disposed.trans disposed
  | some update =>
    have leads := delivers.exact update rfl
    constructor
    · change publisher.Serves (foldUpdates (s.log ++ [(update, s.snapshot)]))
        s.snapshot fresh
      rw [foldUpdates_append]
      exact delivers.serves
    · intro before publication after same
      change s.log ++ [(update, s.snapshot)] = _ at same
      rcases eq_nil_or_concat after with rfl | ⟨rest, last, rfl⟩
      · obtain ⟨rfl, last⟩ := append_inj' same rfl
        obtain rfl := singleton_inj.mp last
        rw [foldUpdates_append, leads]
      · rw [concat_eq_append, ← cons_append, ← append_assoc] at same
        exact exact_ before publication rest (append_inj' same rfl).1
    · exact delivers.disposed.trans disposed

theorem invariant_markDirty
    (exact_ : ∀ before publication after, s.log = before ++ publication :: after →
      foldUpdates (before ++ [publication]) = some publication.2)
    (disposed : s.publisher.disposed = s.capture.disposed)
    (follows : foldUpdates s.log = s.publisher.published) (clock : ClockReadings) :
    PublicationInvariant fresh (s.markDirty measure clock) :=
  invariant_publish exact_ disposed
    (AdaptivePublisher.delivers_markDirty (updateFrom_exact measure) clock follows)

end PublishedCapture

namespace PublicationInvariant

open PublishedCapture

variable {measure : ShellOutputUpdate → Nat} {fresh : SpilledOutputView} {s : PublishedCapture}

section

variable (inv : PublicationInvariant fresh s) {next : PublishedCapture}

include inv

theorem stack (stack : List CaptureFrame) :
    PublicationInvariant fresh { s with stack := stack } :=
  ⟨inv.serves, inv.exact, inv.disposed⟩

theorem decoder (decoder : TextDecoder) : PublicationInvariant fresh
      { s with capture := { s.capture with decoder := decoder } } :=
  ⟨inv.serves, inv.exact, inv.disposed⟩

theorem appendText (text : Units) (clock : ClockReadings) :
    PublicationInvariant fresh (s.appendText measure text clock) := by
  unfold PublishedCapture.appendText
  split
  · exact inv
  · apply invariant_markDirty
    · exact inv.exact
    · exact inv.disposed.trans (disposed_appendText s.capture text).symm
    · exact inv.serves.follows

theorem flushDecoder (clock : ClockReadings) :
    PublicationInvariant fresh (s.flushDecoder measure clock) :=
  (inv.decoder .new).appendText _ clock

theorem forcedFlush (now : Int) : PublicationInvariant fresh (s.forcedFlush measure now) :=
  invariant_publish inv.exact inv.disposed
    (AdaptivePublisher.delivers_flush (updateFrom_exact measure) now true
      inv.serves.follows inv.serves.latest)

theorem push (chunk : Chunk)
    (clock : ClockReadings) : PublicationInvariant fresh (s.push measure chunk clock) := by
  unfold PublishedCapture.push
  split
  · exact inv
  cases chunk with
  | text chunk => exact (inv.stack _).flushDecoder clock
  | bytes chunk => exact (inv.decoder _).appendText _ clock

theorem setSpillPath (path : String) (clock : ClockReadings) :
    PublicationInvariant fresh (s.setSpillPath measure path clock) := by
  unfold PublishedCapture.setSpillPath
  split
  · exact inv
  · apply invariant_markDirty
    · exact inv.exact
    · exact inv.disposed
    · exact inv.serves.follows

theorem flush (now : Int) : PublicationInvariant fresh (s.flush measure now) := by
  unfold PublishedCapture.flush
  split
  · exact inv
  · exact inv.forcedFlush now

theorem dispose : PublicationInvariant fresh s.dispose := by
  constructor
  · constructor
    · exact inv.serves.follows
    · intro open_
      cases open_
    · intro open_
      cases open_
  · exact inv.exact
  · rfl

theorem fire {now : Int} (taken : s.fire measure now = some next) :
    PublicationInvariant fresh next := by
  unfold PublishedCapture.fire at taken
  split at taken
  · obtain ⟨result, fired, rfl⟩ := map_eq_some_iff.mp taken
    rw [AdaptivePublisher.fire] at fired
    split at fired
    · cases fired
      apply invariant_publish inv.exact inv.disposed
      have delivers : AdaptivePublisher.Delivers applyShellOutputUpdate
          { s.publisher with timer := false } (foldUpdates s.log) s.snapshot
          fresh _ :=
        AdaptivePublisher.delivers_flush (updateFrom_exact measure) now false
          inv.serves.follows inv.serves.latest
      exact ⟨delivers.serves, delivers.exact, delivers.disposed⟩
    · cases fired
  · cases taken

theorem step {ev : CaptureEvent} (taken : s.step measure ev = some next) :
    PublicationInvariant fresh next := by
  have called : ∀ {after : PublishedCapture}, PublicationInvariant fresh after →
      (if s.callable then some after else none) = some next → PublicationInvariant fresh next := by
    intro after kept ok
    split at ok
    · exact some.inj ok ▸ kept
    · cases ok
  cases ev with
  | push chunk clock => exact called (inv.push chunk clock) taken
  | finish clock =>
    apply called _ taken
    unfold PublishedCapture.finish
    split
    · exact inv
    · exact inv.flushDecoder clock
  | setSpillPath path clock => exact called (inv.setSpillPath path clock) taken
  | flush now => exact called (inv.flush now) taken
  | dispose => exact called inv.dispose taken
  | resume clock =>
    rw [PublishedCapture.step, PublishedCapture.resume] at taken
    split at taken
    · exact some.inj taken ▸ (inv.stack _).appendText _ clock
    · exact some.inj taken ▸ (inv.stack _).flush _
    · cases taken
  | fire now => exact inv.fire taken
  | returns =>
    rw [PublishedCapture.step] at taken
    split at taken
    · exact some.inj taken ▸ inv.stack _
    · cases taken
  | throws =>
    rw [PublishedCapture.step] at taken
    split at taken
    · exact some.inj taken ▸ inv.stack _
    · cases taken

end

end PublicationInvariant

theorem publicationInvariant_new (capture : OutputCapture) (live : capture.disposed = false) :
    PublicationInvariant (PublishedCapture.new capture).snapshot (.new capture) := by
  constructor
  · constructor
    · rfl
    · intro _ _
      rfl
    · intro _ _
      exact Or.inr ⟨rfl, rfl⟩
  · intro before publication after same
    cases before <;> cases same
  · exact live.symm

theorem create_live {limits : Option ShellOutputLimits} {capture : OutputCapture}
    (created : create limits = .ok capture) : capture.disposed = false := by
  rw [create] at created
  split at created
  · cases created
  split at created
  · cases created
  · exact Except.ok.inj created ▸ rfl

/-- At most one publication is added, made from the snapshot there is afterwards. -/
def Publishes (log : List (ShellOutputUpdate × SpilledOutputView)) (next : PublishedCapture) :
    Prop :=
  next.log = log ∨ ∃ update, next.log = log ++ [(update, next.snapshot)]

section

variable {measure : ShellOutputUpdate → Nat} (s : PublishedCapture)

theorem publishes_publish
    (result : AdaptivePublisher SpilledOutputView × Option ShellOutputUpdate) :
    Publishes s.log (s.publish result) := by
  rw [PublishedCapture.publish]
  split
  · exact Or.inl rfl
  · exact Or.inr ⟨_, rfl⟩

theorem publishes_appendText (text : Units) (clock : ClockReadings) :
    Publishes s.log (s.appendText measure text clock) := by
  unfold PublishedCapture.appendText
  split
  · exact Or.inl rfl
  · exact publishes_publish _ _

theorem publishes_push (chunk : Chunk) (clock : ClockReadings) :
    Publishes s.log (s.push measure chunk clock) := by
  unfold PublishedCapture.push
  split
  · exact Or.inl rfl
  · cases chunk with
    | text chunk => exact publishes_appendText _ _ clock
    | bytes chunk => exact publishes_appendText _ _ clock

theorem publishes_finish (clock : ClockReadings) : Publishes s.log (s.finish measure clock) := by
  unfold PublishedCapture.finish
  split
  · exact Or.inl rfl
  · exact publishes_appendText _ _ clock

theorem publishes_setSpillPath (path : String) (clock : ClockReadings) :
    Publishes s.log (s.setSpillPath measure path clock) := by
  unfold PublishedCapture.setSpillPath
  split
  · exact Or.inl rfl
  · exact publishes_publish _ _

theorem publishes_flush (now : Int) : Publishes s.log (s.flush measure now) := by
  unfold PublishedCapture.flush
  split
  · exact Or.inl rfl
  · exact publishes_publish _ _

theorem publishes_step {ev : CaptureEvent} {next : PublishedCapture}
    (taken : s.step measure ev = some next) : Publishes s.log next := by
  have called : ∀ {after : PublishedCapture}, Publishes s.log after →
      (if s.callable then some after else none) = some next → Publishes s.log next := by
    intro after publishes ok
    split at ok
    · exact some.inj ok ▸ publishes
    · cases ok
  cases ev with
  | push chunk clock => exact called (publishes_push s chunk clock) taken
  | finish clock => exact called (publishes_finish s clock) taken
  | setSpillPath path clock => exact called (publishes_setSpillPath s path clock) taken
  | flush now => exact called (publishes_flush s now) taken
  | dispose => exact called (show Publishes s.log s.dispose from Or.inl rfl) taken
  | resume clock =>
    rw [PublishedCapture.step, PublishedCapture.resume] at taken
    split at taken
    · exact some.inj taken ▸ publishes_appendText _ _ clock
    · exact some.inj taken ▸ publishes_flush _ _
    · cases taken
  | fire now =>
    rw [PublishedCapture.step, PublishedCapture.fire] at taken
    split at taken
    · obtain ⟨result, -, rfl⟩ := map_eq_some_iff.mp taken
      exact publishes_publish s result
    · cases taken
  | returns =>
    rw [PublishedCapture.step] at taken
    split at taken
    · exact some.inj taken ▸ Or.inl rfl
    · cases taken
  | throws =>
    rw [PublishedCapture.step] at taken
    split at taken
    · exact some.inj taken ▸ Or.inl rfl
    · cases taken

end

section

variable {measure : ShellOutputUpdate → Nat} {limits : Option ShellOutputLimits}

/-- For one capture that was made: what holds in each state it is brought to. -/
theorem publicationInvariant_reached {s : PublishedCapture}
    (reached : (capturePublication measure limits).Reached (fun _ _ => True) s) :
    ∃ capture, create limits = .ok capture ∧
      PublicationInvariant (PublishedCapture.new capture).snapshot s := by
  induction reached with
  | start initial =>
    obtain ⟨capture, created, rfl⟩ := initial
    exact ⟨capture, created, publicationInvariant_new capture (create_live created)⟩
  | step _ _ taken ih =>
    obtain ⟨capture, created, inv⟩ := ih
    exact ⟨capture, created, inv.step taken⟩

/-- Updates are made from the snapshot there is when they are published, and lead to it; with
no timer pending the reader has the snapshot of now, once there was something to publish. -/
theorem updates_reconstruct {s : PublishedCapture}
    (reached : (capturePublication measure limits).Reached (fun _ _ => True) s) :
    (∀ ev next, s.step measure ev = some next → Publishes s.log next) ∧
      (∀ before publication after, s.log = before ++ publication :: after →
        foldUpdates (before ++ [publication]) = some publication.2) ∧
      (s.publisher.timer = false → s.capture.disposed = false →
        foldUpdates s.log = some s.snapshot ∨
          s.log = [] ∧ ∃ capture, OutputCapture.create limits = .ok capture ∧
            s.snapshot = (PublishedCapture.new capture).snapshot) := by
  obtain ⟨capture, created, inv⟩ := publicationInvariant_reached reached
  refine ⟨fun ev next taken => publishes_step s taken, inv.exact, ?_⟩
  intro unarmed live
  have open_ : s.publisher.disposed = false := inv.disposed.trans live
  have clean := inv.serves.clean open_ unarmed
  rcases inv.serves.latest open_ clean with latest | ⟨nothing, same⟩
  · left
    rw [inv.serves.follows, latest]
  · right
    refine ⟨?_, capture, created, same⟩
    rcases eq_nil_or_concat s.log with empty | ⟨rest, last, log⟩
    · exact empty
    · have follows := inv.serves.follows
      rw [nothing, log, concat_eq_append, foldUpdates_append] at follows
      cases follows

end

/-- Two pushes, the second held back until the timer goes off. -/
def samplePublication : List CaptureEvent :=
  [.push (.bytes [97]) ⟨0, 0⟩, .returns, .push (.bytes [98]) ⟨1, 1⟩, .fire 200, .returns]

theorem updates_reconstruct_sample :
    ∃ s, (capturePublication (fun _ => 0) none).Reached (fun _ _ => True) s ∧
      s.log.length = 2 ∧ foldUpdates s.log = some s.snapshot := by
  obtain ⟨capture, created⟩ : ∃ capture, create none = .ok capture := ⟨_, rfl⟩
  have ran : ((capturePublication (fun _ => 0) none).exec (fun _ _ => True) (.new capture)
      samplePublication).map (fun s =>
        (s.publisher.timer, s.capture.disposed, s.log.length)) = some (false, false, 2) := by
    cases created
    decide +kernel
  obtain ⟨s, last, seen⟩ := Option.map_eq_some_iff.mp ran
  obtain ⟨unarmed, rest⟩ := Prod.mk.inj seen
  obtain ⟨live, two⟩ := Prod.mk.inj rest
  have started : (capturePublication (fun _ => 0) none).Reached (fun _ _ => True) (.new capture) :=
    .start ⟨capture, created, rfl⟩
  have reached := started.exec last
  refine ⟨s, reached, two, ?_⟩
  rcases (updates_reconstruct reached).2.2 unarmed live with latest | ⟨nothing, -⟩
  · exact latest
  · rw [nothing] at two
    cases two

/-- A capture to which nothing was pushed has a snapshot and no update. -/
theorem nothing_published :
    ∃ s, (capturePublication (fun _ => 0) none).Reached (fun _ _ => True) s ∧
      s.publisher.timer = false ∧ s.capture.disposed = false ∧
      foldUpdates s.log ≠ some s.snapshot := by
  obtain ⟨capture, created⟩ : ∃ capture, create none = .ok capture := ⟨_, rfl⟩
  refine ⟨.new capture, .start ⟨capture, created, rfl⟩, rfl, create_live created, ?_⟩
  intro same
  cases same

end Trpi.Harness
