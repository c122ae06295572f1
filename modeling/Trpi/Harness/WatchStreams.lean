import Trpi.Harness.WatchDelivery

/-!
# Watch streams

Runs of the bus whose resnapshots succeed. The stream of the bus is what was emitted, in the
order it was emitted, with the reports of failed listeners where they failed. A handle passes
on what of it stands behind the boundary of its current snapshot, and nothing once it is
unsubscribed. It is not claimed that a listener returns.
-/

namespace Trpi.Harness

open List Option

variable {α : Type}

/-- The report of a failed listener, made by the bus. -/
def Entry.isReport : Entry α → Bool
  | .call _ _ reportErrors => !reportErrors
  | _ => false

/-- All the bus has delivered and will deliver, as far as it is known. -/
def HarnessEventBus.stream (bus : HarnessEventBus α) : List (Entry α) :=
  bus.done ++ bus.pending

def Successful (_ : HarnessEventBus α) : BusEvent α → Prop
  | .fail _ => False
  | _ => True

instance (bus : HarnessEventBus α) (event : BusEvent α) : Decidable (Successful bus event) :=
  match event with
  | .fail _ => isFalse id
  | .on _ _ | .off _ _ | .emitBatch _ | .watch _ _ | .start _ | .resnapshot _ | .mark _
  | .capture _ | .finish _ | .unsubscribe _ | .process _ | .deliver _ | .settle _ _ | .close =>
    isTrue trivial

section

variable {bus next : HarnessEventBus α} {ev : BusEvent α}

theorem BusInvariant.step (inv : BusInvariant bus) (ok : Successful bus ev)
    (taken : bus.step ev = some next) : BusInvariant next := by
  cases ev with
  | on type id =>
    rw [HarnessEventBus.step] at taken
    split at taken
    · cases taken
    · cases taken
      exact ⟨inv.follows, inv.known, inv.registered, inv.order⟩
  | off type id =>
    cases taken
    exact ⟨inv.follows, inv.known, inv.registered, inv.order⟩
  | emitBatch events =>
    cases taken
    exact inv.emitBatch events
  | watch filter hasCapture => exact inv.watch taken
  | start id => exact inv.onWatcher taken fun _ _ follows ok => follows.start ok
  | resnapshot id => exact inv.onWatcher taken fun _ _ follows ok => follows.resnapshot ok
  | mark id => exact inv.mark taken
  | capture id => exact inv.onWatcher taken fun _ _ follows ok => follows.capture ok
  | finish id => exact inv.onWatcher taken fun _ _ follows ok => follows.finish ok
  | fail id => exact ok.elim
  | unsubscribe id => exact inv.unsubscribe taken
  | process failure => exact inv.process taken
  | deliver id => exact inv.onWatcher taken fun _ _ follows ok => follows.deliver ok
  | settle id failure => exact inv.settle taken
  | close =>
    cases taken
    exact inv.close

theorem busInvariant_inductive : (eventBus α).Inductive Successful BusInvariant := by
  constructor
  · intro bus initial
    obtain rfl : bus = .new := initial
    exact busInvariant_new
  · intro bus ev next inv ok taken
    exact inv.step ok taken

/-- A handle stays what it is, and passes on at most one event, of its current snapshot and
while it is started. -/
structure BufferedEventWatcher.Advances (before after : BufferedEventWatcher α) : Prop where
  delivered : after.delivered = before.delivered ∨
    before.state = .started ∧ ∃ event, after.delivered = before.delivered ++ [(event, before.epoch)]
  gone : before.state = .unsubscribed → after.state = .unsubscribed

namespace BufferedEventWatcher

theorem Advances.still {before after : BufferedEventWatcher α}
    (delivered : after.delivered = before.delivered) (s : after.state = before.state) :
    before.Advances after := by
  constructor
  · exact Or.inl delivered
  · intro gone
    rw [s, gone]

theorem advances_push (w : BufferedEventWatcher α) (ev : HarnessEvent α) :
    w.Advances (w.push ev) := by
  obtain ⟨-, -, s, delivered⟩ := push_frame w ev
  exact .still delivered s

theorem advances_resume (w : BufferedEventWatcher α) (held : List (HarnessEvent α)) :
    w.Advances (w.resume held) := by
  obtain ⟨-, -, s, delivered⟩ :=
    foldl_push_frame held { w with resnapshotState := none }
  exact .still delivered s

theorem advances_markResnapshotBoundary (w : BufferedEventWatcher α) :
    w.Advances w.markResnapshotBoundary := by
  unfold markResnapshotBoundary
  repeat' split
  all_goals exact .still rfl rfl

section

variable {w acted : BufferedEventWatcher α}

theorem advances_start (taken : w.start = some acted) : w.Advances acted := by
  unfold start at taken
  split at taken
  · rename_i buffering
    rw [foldl_enqueue _ rfl] at taken
    cases taken
    constructor
    · exact Or.inl rfl
    · intro gone
      rw [buffering] at gone
      cases gone
  · cases taken

theorem advances_resnapshot (taken : w.resnapshot = some acted) : w.Advances acted := by
  unfold resnapshot at taken
  repeat' split at taken
  all_goals cases taken
  exact .still rfl rfl

theorem advances_mark (taken : w.mark = some acted) : w.Advances acted := by
  unfold mark at taken
  repeat' split at taken
  all_goals cases taken
  exact .still rfl rfl

theorem advances_capture (taken : w.capture = some acted) : w.Advances acted := by
  unfold capture at taken
  repeat' split at taken
  all_goals cases taken
  exact .still rfl rfl

theorem advances_finish (taken : w.finish = some acted) : w.Advances acted := by
  unfold finish at taken
  repeat' split at taken
  all_goals cases taken
  exact advances_resume _ _

theorem advances_fail (taken : w.fail = some acted) : w.Advances acted := by
  unfold fail at taken
  repeat' split at taken
  all_goals cases taken
  exact advances_resume _ _

theorem advances_unsubscribe : w.Advances w.unsubscribe := by
  constructor
  · exact Or.inl rfl
  · intro _
    rfl

theorem advances_deliver (taken : w.deliver = some acted) : w.Advances acted := by
  unfold deliver at taken
  split at taken
  · rename_i ev epoch rest idle tail
    split at taken
    · rename_i current
      obtain ⟨started, rfl⟩ : w.state = .started ∧ epoch = w.epoch := by
        simpa using current
      cases taken
      constructor
      · exact Or.inr ⟨started, ev, rfl⟩
      · exact id
    · cases taken
      exact .still rfl rfl
  · cases taken

end

end BufferedEventWatcher

theorem advances_refl (w : BufferedEventWatcher α) : w.Advances w :=
  .still rfl rfl

variable {other id : Nat} {before : BufferedEventWatcher α} {failure : Option HandlerFailure}

/-- One handle is replaced. -/
theorem advances_set {w acted : BufferedEventWatcher α} (found : bus.watchers[other]? = some w)
    (advances : w.Advances acted) (here : bus.watchers[id]? = some before) :
    ∃ after, (bus.watchers.set other acted)[id]? = some after ∧ before.Advances after := by
  by_cases same : other = id
  · subst same
    obtain rfl : w = before := some.inj (found.symm.trans here)
    exact ⟨acted, List.getElem?_set_self (List.getElem?_eq_some_iff.mp found).1, advances⟩
  · exact ⟨before, by rw [getElem?_set_ne same, here], advances_refl before⟩

theorem advances_modify {act : BufferedEventWatcher α → BufferedEventWatcher α}
    (advances : ∀ w : BufferedEventWatcher α, w.Advances (act w))
    (here : bus.watchers[id]? = some before) :
    ∃ after, (bus.watchers.modify other act)[id]? = some after ∧ before.Advances after := by
  rw [getElem?_modify, here]
  by_cases same : other = id
  · exact ⟨act before, by simp [same], advances before⟩
  · exact ⟨before, by simp [same], advances_refl before⟩

theorem advances_onWatcher {act : BufferedEventWatcher α → Option (BufferedEventWatcher α)}
    (taken : bus.onWatcher other act = some next)
    (advances : ∀ w acted, act w = some acted → w.Advances acted)
    (here : bus.watchers[id]? = some before) :
    ∃ after, next.watchers[id]? = some after ∧ before.Advances after := by
  obtain ⟨w, acted, found, ok, rfl⟩ := onWatcher_eq_some taken
  exact advances_set found (advances w acted ok) here

theorem emitBatch_watchers (bus : HarnessEventBus α) (events : List (HarnessEvent α)) :
    (bus.emitBatch events).watchers = bus.watchers := by
  unfold HarnessEventBus.emitBatch
  split
  · rfl
  · rfl

theorem advances_process (taken : bus.process failure = some next)
    (here : bus.watchers[id]? = some before) :
    ∃ after, next.watchers[id]? = some after ∧ before.Advances after := by
  unfold HarnessEventBus.process at taken
  split at taken
  · cases taken
  rename_i e rest pending
  cases taken
  have same : ∃ after, bus.watchers[id]? = some after ∧ before.Advances after :=
    ⟨before, here, advances_refl before⟩
  cases e with
  | call ev recipient reportErrors =>
    cases recipient with
    | watcher other =>
      apply advances_modify _ here
      intro watcher
      split
      · exact watcher.advances_push ev
      · exact advances_refl watcher
    | listener other =>
      cases failure with
      | none => exact same
      | some error =>
        rw [HarnessEventBus.run]
        split
        · exact same
        · exact same
  | barrier other =>
    exact advances_modify (fun watcher => watcher.advances_markResnapshotBoundary) here
  | clear => exact same

theorem advances_settle (taken : bus.settle other failure = some next)
    (here : bus.watchers[id]? = some before) :
    ∃ after, next.watchers[id]? = some after ∧ before.Advances after := by
  unfold HarnessEventBus.settle at taken
  split at taken
  · cases taken
  rename_i w found
  have settled : w.Advances { w with delivering := none } := .still rfl rfl
  split at taken
  · cases taken
  split at taken
  · exact some.inj taken ▸ advances_set found settled here
  split at taken
  · exact some.inj taken ▸ advances_set found settled here
  · cases taken
    rw [emitBatch_watchers]
    exact advances_set found settled here

theorem step_advances (taken : bus.step ev = some next) (here : bus.watchers[id]? = some before) :
    ∃ after, next.watchers[id]? = some after ∧ before.Advances after := by
  have same : ∃ after, bus.watchers[id]? = some after ∧ before.Advances after :=
    ⟨before, here, advances_refl before⟩
  cases ev with
  | on type other =>
    rw [HarnessEventBus.step] at taken
    split at taken
    · cases taken
    · exact some.inj taken ▸ same
  | off type other => exact some.inj taken ▸ same
  | emitBatch events =>
    cases taken
    rw [emitBatch_watchers]
    exact same
  | watch filter hasCapture =>
    rw [HarnessEventBus.step, HarnessEventBus.watch] at taken
    split at taken
    · cases taken
    · cases taken
      have inside : id < bus.watchers.length := (List.getElem?_eq_some_iff.mp here).1
      exact ⟨before, by rw [getElem?_append_left inside, here], advances_refl before⟩
  | start other =>
    exact advances_onWatcher taken (fun _ _ ok => BufferedEventWatcher.advances_start ok) here
  | resnapshot other =>
    exact advances_onWatcher taken (fun _ _ ok => BufferedEventWatcher.advances_resnapshot ok) here
  | mark other =>
    rw [HarnessEventBus.step, HarnessEventBus.mark] at taken
    split at taken
    · cases taken
    · rename_i marked ok
      cases taken
      have advanced : ∃ after, marked.watchers[id]? = some after ∧ before.Advances after :=
        advances_onWatcher ok (fun _ _ ok => BufferedEventWatcher.advances_mark ok) here
      exact advanced
  | capture other =>
    exact advances_onWatcher taken (fun _ _ ok => BufferedEventWatcher.advances_capture ok) here
  | finish other =>
    exact advances_onWatcher taken (fun _ _ ok => BufferedEventWatcher.advances_finish ok) here
  | fail other =>
    exact advances_onWatcher taken (fun _ _ ok => BufferedEventWatcher.advances_fail ok) here
  | unsubscribe other =>
    rw [HarnessEventBus.step, HarnessEventBus.unsubscribe] at taken
    split at taken
    · cases taken
    · rename_i unsubscribed ok
      cases taken
      apply advances_onWatcher ok _ here
      intro w acted act
      exact some.inj act ▸ BufferedEventWatcher.advances_unsubscribe
  | process failure => exact advances_process taken here
  | deliver other =>
    exact advances_onWatcher taken (fun _ _ ok => BufferedEventWatcher.advances_deliver ok) here
  | settle other failure => exact advances_settle taken here
  | close => exact some.inj taken ▸ same

/-- Whatever happens later, an unsubscribed handle passes nothing on. -/
theorem exec_unsubscribed {events : List (BusEvent α)} {last : HarnessEventBus α}
    (ran : (eventBus α).exec (fun _ _ => True) bus events = some last)
    (here : bus.watchers[id]? = some before) (gone : before.state = .unsubscribed) :
    ∃ after, last.watchers[id]? = some after ∧ after.delivered = before.delivered := by
  induction events generalizing bus before with
  | nil =>
    cases ran
    exact ⟨before, here, rfl⟩
  | cons ev events ih =>
    rw [Library.Machine.exec, if_pos trivial] at ran
    split at ran
    · rename_i next taken
      obtain ⟨between, there, advances⟩ := step_advances taken here
      obtain ⟨after, found, same⟩ := ih ran there (advances.gone gone)
      refine ⟨after, found, same.trans ?_⟩
      rcases advances.delivered with quiet | ⟨started, -⟩
      · exact quiet
      · rw [gone] at started
        cases started
    · cases ran

end

theorem behind_zero (id : Nat) (stream : List (Entry α)) : behind id 0 stream = stream := by
  cases stream with
  | nil => rfl
  | cons e rest => rfl

theorem mine_cons (filter : HarnessEvent α → Bool) (id : Nat) (e : Entry α)
    {first second : List (Entry α)} (same : mine filter id first = mine filter id second) :
    mine filter id (e :: first) = mine filter id (e :: second) := by
  rw [← singleton_append, mine_append, same, ← mine_append, singleton_append]

theorem mine_behind_emitted (filter : HarnessEvent α → Bool) (id epoch : Nat)
    {stream : List (Entry α)} (none_ : ∀ e ∈ stream, e.isReport = false) :
    mine filter id (behind id epoch stream) =
      mine filter id (behind id epoch (stream.filter Entry.isEmitted)) := by
  induction stream generalizing epoch with
  | nil => rfl
  | cons e rest ih =>
    obtain ⟨here, later⟩ := forall_mem_cons.mp none_
    have plain := ih 0 later
    cases e with
    | call ev recipient reportErrors =>
      have emitted : reportErrors = true := by simpa [Entry.isReport] using here
      rw [filter_cons_of_pos emitted]
      cases epoch with
      | zero =>
        rw [behind_zero, behind_zero] at plain
        exact mine_cons filter id _ plain
      | succ epoch => exact ih (epoch + 1) later
    | barrier other =>
      rw [filter_cons_of_pos rfl]
      cases epoch with
      | zero =>
        rw [behind_zero, behind_zero] at plain
        exact mine_cons filter id _ plain
      | succ epoch =>
        rw [behind, behind]
        split
        · exact ih epoch later
        · exact ih (epoch + 1) later
    | clear =>
      rw [filter_cons_of_neg Bool.false_ne_true]
      cases epoch with
      | zero =>
        rw [behind_zero] at plain ⊢
        exact plain
      | succ epoch => exact ih (epoch + 1) later

/-- All of the stream that is behind the boundary has been passed on when nothing waits. -/
theorem BufferedEventWatcher.Follows.caughtUp {w : BufferedEventWatcher α} {id : Nat}
    {done pending : List (Entry α)} (follows : w.Follows id done pending)
    (started : w.state = .started) (settled : w.resnapshotState = none)
    (delivered : w.deliveryTail = []) (gone : mine w.filter id pending = []) :
    ofEpoch w.epoch w.delivered = mine w.filter id (behind id w.epoch (done ++ pending)) := by
  have exact_ := follows.exact (by rw [started]; decide)
  have held : w.held = [] := by rw [BufferedEventWatcher.held, settled]
  rw [BufferedEventWatcher.current, delivered, follows.started started, held] at exact_
  rw [behind_append id (follows.reached settled).ge, mine_append, gone, append_nil, ← exact_]
  simp [ofEpoch]

def note (body : Nat) : HarnessEvent Nat := .other "note" none body

/-- The second of three notes is still in the handle's tail when a resnapshot begins. -/
def sampleEvents : List (BusEvent Nat) :=
  [.watch (fun _ => true) true, .start 0, .emitBatch [note 1, note 2], .process none,
    .process none, .deliver 0, .settle 0 none, .resnapshot 0, .mark 0, .capture 0,
    .emitBatch [note 3], .process none, .finish 0, .process none, .deliver 0, .deliver 0]

def failingEvents : List (BusEvent Nat) :=
  [.on "note" 0, .watch (fun _ => true) false, .start 0, .emitBatch [note 1, note 2],
    .process (some ⟨"refused", none⟩), .process none, .process none, .process none,
    .process none, .deliver 0, .settle 0 none, .deliver 0, .settle 0 none, .deliver 0, .settle 0 none]

def failedReport : HarnessEvent Nat := (note 1).failure ⟨"refused", none⟩

end Trpi.Harness
