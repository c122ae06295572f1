import Trpi.Harness.WatchStreams

/-!
# Resnapshots that fail

A call of `resnapshot` gives up what waits in the handle's queues and what comes before its
boundary; a failed one passes on what it held, and nothing else (events.ts). The handle's
part of a run is compared with the same handle in a run without the call: what the two have
delivered and will deliver is the same exactly when nothing waited at the call and nothing
came before the boundary.
-/

namespace Trpi.Harness

open Library BufferedEventWatcher HarnessEventBus List Option

variable {α : Type}

/-- What happens to a handle. -/
inductive WatchEvent (α : Type) where
  | push (event : HarnessEvent α)
  | start
  | resnapshot
  | mark
  | boundary
  | capture
  | finish
  | fail
  | unsubscribe
  | deliver
  | settle

namespace WatchEvent

/-- What others do with the handle, resnapshots aside. -/
def isCall : WatchEvent α → Bool
  | .push _ | .start | .unsubscribe => true
  | _ => false

/-- What the handle's own tail does. -/
def isDelivery : WatchEvent α → Bool
  | .deliver | .settle => true
  | _ => false

def pushes : List (WatchEvent α) → List (HarnessEvent α)
  | [] => []
  | .push event :: rest => event :: pushes rest
  | _ :: rest => pushes rest

/-- What comes before the boundary of a resnapshot, or before it fails. -/
def early : List (WatchEvent α) → List (HarnessEvent α)
  | [] => []
  | .boundary :: _ => []
  | .fail :: _ => []
  | .push event :: rest => event :: early rest
  | _ :: rest => early rest

end WatchEvent

namespace BufferedEventWatcher

/-- What is to be delivered when nothing else happens. -/
def undelivered (w : BufferedEventWatcher α) : List (HarnessEvent α) :=
  ofEpoch w.epoch w.deliveryTail ++ ofEpoch w.epoch w.buffer ++ w.held

/-- What the listener has got and will get. -/
def stream (w : BufferedEventWatcher α) : List (HarnessEvent α) :=
  w.delivered.map Prod.fst ++ w.undelivered

def settle (w : BufferedEventWatcher α) : Option (BufferedEventWatcher α) :=
  if w.delivering.isSome then some { w with delivering := none } else none

def act (w : BufferedEventWatcher α) : WatchEvent α → Option (BufferedEventWatcher α)
  | .push event => some (w.push event)
  | .start => w.start
  | .resnapshot => w.resnapshot
  | .mark => w.mark
  | .boundary => some w.markResnapshotBoundary
  | .capture => w.capture
  | .finish => w.finish
  | .fail => w.fail
  | .unsubscribe => some w.unsubscribe
  | .deliver => w.deliver
  | .settle => w.settle

def acts (w : BufferedEventWatcher α) : List (WatchEvent α) → Option (BufferedEventWatcher α)
  | [] => some w
  | event :: rest => (w.act event).bind (·.acts rest)

end BufferedEventWatcher

namespace HarnessEventBus

/-- What a step of the bus is to a handle. -/
def hears (bus : HarnessEventBus α) (id : Nat) : BusEvent α → Option (WatchEvent α)
  | .start other => if other = id then some .start else none
  | .resnapshot other => if other = id then some .resnapshot else none
  | .mark other => if other = id then some .mark else none
  | .capture other => if other = id then some .capture else none
  | .finish other => if other = id then some .finish else none
  | .fail other => if other = id then some .fail else none
  | .unsubscribe other => if other = id then some .unsubscribe else none
  | .deliver other => if other = id then some .deliver else none
  | .settle other _ => if other = id then some .settle else none
  | .process _ =>
    match bus.pending with
    | .call event (.watcher other) _ :: _ =>
      if other = id ∧ bus.watchers[id]?.any (·.filter event) then some (.push event) else none
    | .barrier other :: _ => if other = id then some .boundary else none
    | _ => none
  | _ => none

/-- What a run of the bus is to a handle. -/
def heard (id : Nat) : HarnessEventBus α → List (BusEvent α) → List (WatchEvent α)
  | _, [] => []
  | bus, event :: rest =>
    (bus.hears id event).toList ++
      match bus.step event with
      | none => []
      | some next => next.heard id rest

end HarnessEventBus

section

variable {bus next : HarnessEventBus α} {id : Nat} {w : BufferedEventWatcher α}

variable {acted : BufferedEventWatcher α} {other : Nat} {failure : Option HandlerFailure}

theorem BufferedEventWatcher.acts_one {ev : WatchEvent α}
    (taken : w.act ev = some acted) : w.acts [ev] = some acted := by
  rw [acts, taken]
  rfl

theorem hears_set {own : BufferedEventWatcher α} {ev : WatchEvent α}
    (found : bus.watchers[other]? = some own) (taken : own.act ev = some acted)
    (here : bus.watchers[id]? = some w) :
    ∃ after, (bus.watchers.set other acted)[id]? = some after ∧
      w.acts (if other = id then some ev else none : Option _).toList = some after := by
  by_cases same : other = id
  · subst same
    rw [if_pos rfl]
    obtain rfl : own = w := some.inj (found.symm.trans here)
    exact ⟨acted, List.getElem?_set_self (List.getElem?_eq_some_iff.mp found).1, acts_one taken⟩
  · rw [if_neg same]
    exact ⟨w, by rw [getElem?_set_ne same, here], rfl⟩

theorem hears_onWatcher {act : BufferedEventWatcher α → Option (BufferedEventWatcher α)}
    {ev : WatchEvent α} (taken : bus.onWatcher other act = some next)
    (same : ∀ w : BufferedEventWatcher α, w.act ev = act w) (here : bus.watchers[id]? = some w) :
    ∃ after, next.watchers[id]? = some after ∧
      w.acts (if other = id then some ev else none : Option _).toList = some after := by
  obtain ⟨own, acted, found, ok, rfl⟩ := onWatcher_eq_some taken
  exact hears_set found ((same own).trans ok) here

theorem hears_modify {act : BufferedEventWatcher α → BufferedEventWatcher α}
    {heard : Option (WatchEvent α)} (own : other = id → w.acts heard.toList = some (act w))
    (foreign : other ≠ id → heard = none) (here : bus.watchers[id]? = some w) :
    ∃ after, (bus.watchers.modify other act)[id]? = some after ∧
      w.acts heard.toList = some after := by
  rw [getElem?_modify, here]
  by_cases same : other = id
  · exact ⟨act w, by simp [same], own same⟩
  · rw [foreign same]
    exact ⟨w, by simp [same], rfl⟩

theorem hears_process (taken : bus.process failure = some next)
    (here : bus.watchers[id]? = some w) :
    ∃ after, next.watchers[id]? = some after ∧
      w.acts (bus.hears id (.process failure)).toList = some after := by
  unfold process at taken
  split at taken
  · cases taken
  rename_i e rest pending
  cases taken
  rw [hears, pending]
  cases e with
  | call ev recipient reportErrors =>
    cases recipient with
    | watcher other =>
      dsimp only
      rw [here, any_some]
      apply hears_modify _ _ here
      · intro same
        by_cases wanted : w.filter ev = true
        · rw [if_pos ⟨same, wanted⟩, if_pos wanted]
          exact acts_one rfl
        · rw [if_neg fun both => wanted both.2, if_neg wanted]
          rfl
      · intro apart
        rw [if_neg fun both => apart both.1]
    | listener other =>
      cases failure with
      | none => exact ⟨w, here, rfl⟩
      | some error =>
        rw [run]
        split
        · exact ⟨w, here, rfl⟩
        · exact ⟨w, here, rfl⟩
  | barrier other =>
    dsimp only
    apply hears_modify _ _ here
    · intro same
      rw [if_pos same]
      exact acts_one rfl
    · intro apart
      rw [if_neg apart]
  | clear => exact ⟨w, here, rfl⟩

theorem hears_settle (taken : bus.settle other failure = some next)
    (here : bus.watchers[id]? = some w) :
    ∃ after, next.watchers[id]? = some after ∧
      w.acts (bus.hears id (.settle other failure)).toList = some after := by
  unfold HarnessEventBus.settle at taken
  split at taken
  · cases taken
  rename_i own found
  split at taken
  · cases taken
  rename_i ev delivering
  have settled : own.act .settle = some { own with delivering := none } := by
    rw [BufferedEventWatcher.act, BufferedEventWatcher.settle, delivering]
    rfl
  split at taken
  · exact some.inj taken ▸ hears_set found settled here
  split at taken
  · exact some.inj taken ▸ hears_set found settled here
  · cases taken
    rw [emitBatch_watchers]
    exact hears_set found settled here

theorem step_hears {ev : BusEvent α} (taken : bus.step ev = some next)
    (here : bus.watchers[id]? = some w) :
    ∃ after, next.watchers[id]? = some after ∧ w.acts (bus.hears id ev).toList = some after := by
  cases ev with
  | on type other =>
    rw [step] at taken
    split at taken
    · cases taken
    · exact some.inj taken ▸ ⟨w, here, rfl⟩
  | off type other => exact some.inj taken ▸ ⟨w, here, rfl⟩
  | emitBatch events =>
    cases taken
    rw [emitBatch_watchers]
    exact ⟨w, here, rfl⟩
  | watch filter hasCapture =>
    rw [step, watch] at taken
    split at taken
    · cases taken
    · cases taken
      have inside : id < bus.watchers.length := (List.getElem?_eq_some_iff.mp here).1
      exact ⟨w, by rw [getElem?_append_left inside, here], rfl⟩
  | start other => exact hears_onWatcher taken (fun _ => rfl) here
  | resnapshot other => exact hears_onWatcher taken (fun _ => rfl) here
  | mark other =>
    rw [HarnessEventBus.step, HarnessEventBus.mark] at taken
    split at taken
    · cases taken
    · rename_i marked ok
      cases taken
      exact @hears_onWatcher _ _ marked _ _ _ _ .mark ok (fun _ => rfl) here
  | capture other => exact hears_onWatcher taken (fun _ => rfl) here
  | finish other => exact hears_onWatcher taken (fun _ => rfl) here
  | fail other => exact hears_onWatcher taken (fun _ => rfl) here
  | unsubscribe other =>
    rw [HarnessEventBus.step, HarnessEventBus.unsubscribe] at taken
    split at taken
    · cases taken
    · rename_i unsubscribed ok
      cases taken
      exact @hears_onWatcher _ _ unsubscribed _ _ _ _ .unsubscribe ok (fun _ => rfl) here
  | process failure => exact hears_process taken here
  | deliver other => exact hears_onWatcher taken (fun _ => rfl) here
  | settle other failure => exact hears_settle taken here
  | close => exact some.inj taken ▸ ⟨w, here, rfl⟩

theorem BufferedEventWatcher.acts_append {first second : List (WatchEvent α)}
    (taken : w.acts first = some acted) : w.acts (first ++ second) = acted.acts second := by
  induction first generalizing w with
  | nil => exact some.inj taken ▸ rfl
  | cons ev rest ih =>
    obtain ⟨after, ok, later⟩ := bind_eq_some_iff.mp taken
    rw [cons_append, acts, ok]
    exact ih later

theorem exec_heard {events : List (BusEvent α)} {last : HarnessEventBus α}
    (ran : (eventBus α).exec (fun _ _ => True) bus events = some last)
    (here : bus.watchers[id]? = some w) :
    ∃ after, last.watchers[id]? = some after ∧ w.acts (bus.heard id events) = some after := by
  induction events generalizing bus w with
  | nil =>
    cases ran
    exact ⟨w, here, rfl⟩
  | cons ev rest ih =>
    rw [Machine.exec, if_pos trivial] at ran
    split at ran
    · rename_i next taken
      have stepped : bus.step ev = some next := taken
      obtain ⟨after, there, acted⟩ := step_hears stepped here
      obtain ⟨end_, found, acts⟩ := ih ran there
      refine ⟨end_, found, ?_⟩
      rw [heard, stepped, acts_append acted]
      exact acts
    · cases ran

end

namespace BufferedEventWatcher

/-- Nothing waits of a later epoch, and where nothing should. -/
structure Sound (w : BufferedEventWatcher α) : Prop where
  tags : (∀ item ∈ w.delivered, item.2 ≤ w.epoch) ∧
    (∀ item ∈ w.deliveryTail, item.2 ≤ w.epoch) ∧ ∀ item ∈ w.buffer, item.2 ≤ w.epoch
  buffering : w.state = .buffering → w.deliveryTail = []
  started : w.state = .started → w.buffer = []

section

variable {w acted : BufferedEventWatcher α} {ev : WatchEvent α} {resnapshot : ResnapshotState α}

theorem sound_new (filter : HarnessEvent α → Bool) (hasCapture : Bool) :
    (new filter hasCapture : BufferedEventWatcher α).Sound where
  tags := by simp [new]
  buffering _ := rfl
  started _ := rfl

inductive Acted (w : BufferedEventWatcher α) : WatchEvent α → BufferedEventWatcher α → Prop where
  | push (event : HarnessEvent α) : Acted w (.push event) (w.push event)
  | start {acted : BufferedEventWatcher α} (taken : w.start = some acted) :
      Acted w .start acted
  | resnapshot (subscribed : w.state ≠ .unsubscribed)
      (idle : w.resnapshotState = none) :
      Acted w .resnapshot { w with
        epoch := w.epoch + 1
        resnapshotState :=
          some { phase := .dropping, held := [], marked := false, captured := false } }
  | note {event : WatchEvent α} (note : event = .mark ∨ event = .capture)
      (resnapshot noted : ResnapshotState α) (found : w.resnapshotState = some resnapshot)
      (phase : noted.phase = resnapshot.phase) (held : noted.held = resnapshot.held) :
      Acted w event { w with resnapshotState := some noted }
  | boundary (resnapshot : ResnapshotState α) (found : w.resnapshotState = some resnapshot) :
      Acted w .boundary { w with resnapshotState := some { resnapshot with phase := .holding } }
  | stray (awake : ¬ w.Dropping) : Acted w .boundary w
  | resume {event : WatchEvent α} (resnapshot : ResnapshotState α)
      (found : w.resnapshotState = some resnapshot)
      (over_ : event = .fail ∨ event = .finish ∧ resnapshot.phase = .holding) :
      Acted w event (w.resume resnapshot.held)
  | unsubscribe : Acted w .unsubscribe w.unsubscribe
  | deliver {acted : BufferedEventWatcher α} (taken : w.deliver = some acted) :
      Acted w .deliver acted
  | settle : Acted w .settle { w with delivering := none }

theorem act_cases (taken : w.act ev = some acted) : Acted w ev acted := by
  cases ev with
  | push ev => exact some.inj taken ▸ .push ev
  | start => exact .start taken
  | resnapshot =>
    change w.resnapshot = _ at taken
    unfold resnapshot at taken
    repeat' split at taken
    all_goals cases taken
    rename_i subscribed _ idle
    exact .resnapshot subscribed (not_isSome_iff_eq_none.mp idle)
  | mark =>
    change w.mark = _ at taken
    unfold mark at taken
    repeat' split at taken
    all_goals cases taken
    rename_i resnapshot found _
    exact .note (.inl rfl) resnapshot _ found rfl rfl
  | boundary =>
    cases taken
    unfold markResnapshotBoundary
    split
    · rename_i idle
      apply Acted.stray
      rintro ⟨resnapshot, found, -⟩
      rw [idle] at found
      cases found
    · rename_i resnapshot found
      split
      · exact .boundary resnapshot found
      · rename_i phase
        apply Acted.stray
        rintro ⟨other, here, dropping⟩
        rw [found] at here
        cases here
        rw [phase] at dropping
        cases dropping
  | capture =>
    change w.capture = _ at taken
    unfold capture at taken
    repeat' split at taken
    all_goals cases taken
    rename_i resnapshot found _
    exact .note (.inr rfl) resnapshot _ found rfl rfl
  | finish =>
    change w.finish = _ at taken
    unfold finish at taken
    repeat' split at taken
    all_goals cases taken
    rename_i resnapshot found ready
    have holding := of_decide_eq_true (Bool.and_eq_true_iff.mp ready).2
    exact .resume resnapshot found (.inr ⟨rfl, holding⟩)
  | fail =>
    change w.fail = _ at taken
    unfold fail at taken
    repeat' split at taken
    all_goals cases taken
    rename_i resnapshot found _
    exact .resume resnapshot found (.inl rfl)
  | unsubscribe => exact some.inj taken ▸ .unsubscribe
  | deliver => exact .deliver taken
  | settle =>
    change w.settle = _ at taken
    unfold settle at taken
    split at taken
    · exact some.inj taken ▸ .settle
    · cases taken

section

variable (sound : w.Sound)

include sound

theorem Sound.push (ev : HarnessEvent α) : (w.push ev).Sound := by
  obtain ⟨-, epoch, s, -⟩ := push_frame w ev
  obtain ⟨tail, buffer⟩ := push_queues w ev
  constructor
  · rw [epoch]
    exact push_tags sound.tags (Nat.le_refl _) ev
  · rw [s]
    exact fun waits => (tail waits).trans (sound.buffering waits)
  · rw [s]
    exact fun running => (buffer running).trans (sound.started running)

theorem Sound.resume (held : List (HarnessEvent α)) : (w.resume held).Sound := by
  obtain ⟨-, epoch, s, -⟩ := foldl_push_frame held { w with resnapshotState := none }
  obtain ⟨-, -, buffer, tail, tags⟩ :=
    @foldl_push _ held { w with resnapshotState := none } rfl sound.started sound.buffering
      sound.tags
  constructor
  · rw [BufferedEventWatcher.resume, epoch]
    exact tags
  · rw [BufferedEventWatcher.resume, s]
    exact tail
  · rw [BufferedEventWatcher.resume, s]
    exact buffer

theorem Sound.start (taken : w.start = some acted) : acted.Sound := by
  unfold BufferedEventWatcher.start at taken
  split at taken
  · rename_i buffering
    rw [foldl_enqueue _ rfl] at taken
    cases taken
    obtain ⟨delivered, tail, buffer⟩ := sound.tags
    constructor
    · refine ⟨delivered, ?_, by simp⟩
      intro item mem
      rcases mem_append.mp mem with old | new
      · exact tail item old
      · exact buffer item new
    · intro waits
      cases waits
    · intro _
      rfl
  · cases taken

theorem Sound.deliver (taken : w.deliver = some acted) : acted.Sound := by
  obtain ⟨delivered, tail, buffer⟩ := sound.tags
  unfold BufferedEventWatcher.deliver at taken
  split at taken
  · rename_i ev epoch rest idle waiting
    have later : ∀ item ∈ rest, item.2 ≤ w.epoch := by
      intro item mem
      apply tail item
      rw [waiting]
      exact mem_cons_of_mem _ mem
    have unbuffered : w.state = .buffering → rest = [] := by
      intro waits
      rw [sound.buffering waits] at waiting
      cases waiting
    split at taken
    · cases taken
      refine ⟨⟨?_, later, buffer⟩, unbuffered, sound.started⟩
      intro item mem
      rcases mem_append.mp mem with old | new
      · exact delivered item old
      · rw [mem_singleton.mp new]
        apply tail (ev, epoch)
        rw [waiting]
        exact mem_cons_self
    · cases taken
      exact ⟨⟨delivered, later, buffer⟩, unbuffered, sound.started⟩
  · cases taken

theorem Sound.act {ev : WatchEvent α} (taken : w.act ev = some acted) : acted.Sound := by
  obtain ⟨delivered, tail, buffer⟩ := sound.tags
  cases act_cases taken with
  | push ev => exact sound.push ev
  | start taken => exact sound.start taken
  | resnapshot =>
    exact ⟨⟨fun item mem => Nat.le_succ_of_le (delivered item mem),
      fun item mem => Nat.le_succ_of_le (tail item mem),
      fun item mem => Nat.le_succ_of_le (buffer item mem)⟩, sound.buffering, sound.started⟩
  | note => exact ⟨sound.tags, sound.buffering, sound.started⟩
  | boundary => exact ⟨sound.tags, sound.buffering, sound.started⟩
  | stray => exact sound
  | resume resnapshot => exact sound.resume resnapshot.held
  | unsubscribe =>
    refine ⟨⟨delivered, tail, by simp [unsubscribe]⟩, ?_, ?_⟩
    · intro waits
      cases waits
    · intro running
      cases running
  | deliver taken => exact sound.deliver taken
  | settle => exact ⟨sound.tags, sound.buffering, sound.started⟩

theorem Sound.acts {events : List (WatchEvent α)}
    (taken : w.acts events = some acted) : acted.Sound := by
  induction events generalizing w with
  | nil => exact some.inj taken ▸ sound
  | cons ev rest ih =>
    obtain ⟨after, ok, later⟩ := bind_eq_some_iff.mp taken
    exact ih (sound.act ok) later

end

theorem current_eq (w : BufferedEventWatcher α) :
    w.current = ofEpoch w.epoch w.delivered ++ w.undelivered := by
  rw [current, undelivered, append_assoc, append_assoc, append_assoc]

theorem stream_of_current {added : List (HarnessEvent α)} (epoch : acted.epoch = w.epoch)
    (delivered : acted.delivered = w.delivered)
    (current : acted.current = w.current ++ added) : acted.stream = w.stream ++ added := by
  rw [current_eq, current_eq, epoch, delivered, append_assoc] at current
  rw [stream, stream, delivered, append_cancel_left current, append_assoc]

theorem stream_push (sound : w.Sound) (subscribed : w.state ≠ .unsubscribed)
    (awake : ¬ w.Dropping) (ev : HarnessEvent α) : (w.push ev).stream = w.stream ++ [ev] := by
  obtain ⟨-, epoch, -, delivered⟩ := push_frame w ev
  exact stream_of_current epoch delivered (current_push subscribed awake sound.started ev)

theorem stream_resume (sound : w.Sound) (subscribed : w.state ≠ .unsubscribed)
    (found : w.resnapshotState = some resnapshot) :
    (w.resume resnapshot.held).stream = w.stream := by
  obtain ⟨-, epoch, -, delivered⟩ :=
    foldl_push_frame resnapshot.held { w with resnapshotState := none }
  obtain ⟨-, current, -⟩ :=
    @foldl_push _ resnapshot.held { w with resnapshotState := none } rfl sound.started
      sound.buffering sound.tags
  have resumed := stream_of_current epoch delivered (current subscribed)
  rw [resume, resumed]
  simp [stream, undelivered, held, found]

theorem stream_start (sound : w.Sound) (taken : w.start = some acted) :
    acted.stream = w.stream := by
  unfold start at taken
  split at taken
  · rename_i buffering
    rw [foldl_enqueue _ rfl] at taken
    cases taken
    simp [stream, undelivered, held, sound.buffering buffering, ofEpoch]
  · cases taken

theorem stream_deliver (sound : w.Sound) (subscribed : w.state ≠ .unsubscribed)
    (taken : w.deliver = some acted) : acted.stream = w.stream := by
  unfold deliver at taken
  split at taken
  · rename_i ev epoch rest idle waiting
    have started : w.state = .started := by
      cases s : w.state with
      | buffering =>
        rw [sound.buffering s] at waiting
        cases waiting
      | started => rfl
      | unsubscribed => exact absurd s subscribed
    split at taken
    · rename_i current
      obtain ⟨-, rfl⟩ : w.state = .started ∧ epoch = w.epoch := by simpa using current
      cases taken
      simp [stream, undelivered, held, waiting, ofEpoch]
    · rename_i stale
      have old : epoch ≠ w.epoch := by simpa [started] using stale
      cases taken
      simp [stream, undelivered, held, waiting, ofEpoch, old]
  · cases taken

theorem act_state (taken : w.act ev = some acted) :
    acted.state = w.state ∨ (ev = .start ∧ w.state = .buffering ∧
      acted.state = .started) ∨ (ev = .unsubscribe ∧ acted.state = .unsubscribed) := by
  cases act_cases taken with
  | push ev => exact .inl (push_frame w ev).2.2.1
  | start taken =>
    unfold start at taken
    split at taken
    · rename_i buffering
      rw [foldl_enqueue _ rfl] at taken
      cases taken
      exact .inr (.inl ⟨rfl, buffering, rfl⟩)
    · cases taken
  | resume resnapshot => exact .inl (foldl_push_frame _ _).2.2.1
  | unsubscribe => exact .inr (.inr ⟨rfl, rfl⟩)
  | deliver taken =>
    unfold deliver at taken
    repeat' split at taken
    all_goals cases taken
    all_goals exact .inl rfl
  | _ => exact .inl rfl

theorem act_subscribed (taken : w.act ev = some acted)
    (subscribed : acted.state ≠ .unsubscribed) : w.state ≠ .unsubscribed ∧ ev ≠ .unsubscribe := by
  refine ⟨?_, ?_⟩
  · intro gone
    rcases act_state taken with same | ⟨-, buffering, -⟩ | ⟨-, left⟩
    · exact subscribed (same.trans gone)
    · rw [gone] at buffering
      cases buffering
    · exact subscribed left
  · rintro rfl
    exact subscribed (some.inj taken ▸ rfl)

theorem acts_subscribed {events : List (WatchEvent α)} (taken : w.acts events = some acted) :
    acted.state ≠ .unsubscribed ↔ w.state ≠ .unsubscribed ∧ .unsubscribe ∉ events := by
  induction events generalizing w with
  | nil =>
    cases taken
    simp
  | cons ev rest ih =>
    obtain ⟨after, ok, later⟩ := bind_eq_some_iff.mp taken
    rw [ih later, mem_cons, not_or]
    constructor
    · rintro ⟨subscribed, stays⟩
      obtain ⟨before, here⟩ := act_subscribed ok subscribed
      exact ⟨before, Ne.symm here, stays⟩
    · rintro ⟨before, here, stays⟩
      refine ⟨?_, stays⟩
      rcases act_state ok with same | ⟨-, -, started⟩ | ⟨leaves, -⟩
      · rw [same]
        exact before
      · rw [started]
        decide
      · exact absurd leaves.symm here

theorem dropping_push {ev : HarnessEvent α} (dropping : (w.push ev).Dropping) :
    w.Dropping := by
  by_cases already : w.Dropping
  · exact already
  · rw [Dropping] at dropping
    obtain ⟨resnapshot, found, phase⟩ := dropping
    unfold push enqueue at found
    repeat' split at found
    all_goals first
      | exact ⟨resnapshot, found, phase⟩
      | skip
    rename_i old here holding
    cases found
    rw [holding] at phase
    cases phase

theorem dropping_congr (same : acted.resnapshotState = w.resnapshotState) :
    acted.Dropping ↔ w.Dropping := by
  rw [Dropping, Dropping, same]

theorem dropping_start (taken : w.start = some acted) : acted.Dropping ↔ w.Dropping := by
  unfold start at taken
  split at taken
  · rw [foldl_enqueue _ rfl] at taken
    cases taken
    exact dropping_congr rfl
  · cases taken

theorem dropping_deliver (taken : w.deliver = some acted) : acted.Dropping ↔ w.Dropping := by
  unfold deliver at taken
  repeat' split at taken
  all_goals cases taken
  all_goals exact dropping_congr rfl

theorem awake_resume (sound : w.Sound) (held : List (HarnessEvent α)) :
    ¬ (w.resume held).Dropping := by
  rintro ⟨other, same, -⟩
  obtain ⟨settled, -⟩ :=
    @foldl_push _ held { w with resnapshotState := none } rfl sound.started
      sound.buffering sound.tags
  rw [resume, settled] at same
  cases same

theorem awake_holding :
    ¬ ({ w with resnapshotState := some { resnapshot with phase := .holding } } :
      BufferedEventWatcher α).Dropping := by
  rintro ⟨other, same, dropping⟩
  cases same
  cases dropping

section

variable (sound : w.Sound) (taken : w.act ev = some acted)
  (subscribed : acted.state ≠ .unsubscribed)

include sound taken subscribed

theorem act_awake (awake : ¬ w.Dropping) (plain : ev ≠ .resnapshot) :
    acted.stream = w.stream ++ WatchEvent.pushes [ev] ∧ ¬ acted.Dropping := by
  obtain ⟨here, stays⟩ := act_subscribed taken subscribed
  cases act_cases taken with
  | push ev => exact ⟨stream_push sound here awake ev, fun dropping =>
      awake (dropping_push dropping)⟩
  | start taken =>
    refine ⟨(stream_start sound taken).trans (append_nil _).symm, ?_⟩
    rw [dropping_start taken]
    exact awake
  | resnapshot => exact absurd rfl plain
  | note kind resnapshot noted found phase held =>
    have silent : WatchEvent.pushes [ev] = [] := by
      rcases kind with rfl | rfl <;> rfl
    refine ⟨?_, ?_⟩
    · rw [silent, append_nil]
      simp [stream, undelivered, BufferedEventWatcher.held, found, held]
    · rintro ⟨other, same, dropping⟩
      cases same
      exact awake ⟨resnapshot, found, phase.symm.trans dropping⟩
  | boundary resnapshot found =>
    refine ⟨?_, awake_holding⟩
    simp [stream, undelivered, held, found, WatchEvent.pushes]
  | stray => exact ⟨(append_nil _).symm, awake⟩
  | resume resnapshot found over_ =>
    have silent : WatchEvent.pushes [ev] = [] := by
      rcases over_ with rfl | ⟨rfl, -⟩ <;> rfl
    refine ⟨?_, awake_resume sound resnapshot.held⟩
    rw [silent, append_nil, stream_resume sound here found]
  | unsubscribe => exact absurd rfl stays
  | deliver taken =>
    refine ⟨(stream_deliver sound here taken).trans (append_nil _).symm, ?_⟩
    rw [dropping_deliver taken]
    exact awake
  | settle => exact ⟨(append_nil _).symm, awake⟩

theorem act_dropping (dropping : w.Dropping) :
    acted.stream = w.stream ∧
      (acted.Dropping ∧ ev ≠ .boundary ∧ ev ≠ .fail ∨
        ¬ acted.Dropping ∧ (ev = .boundary ∨ ev = .fail)) := by
  obtain ⟨here, stays⟩ := act_subscribed taken subscribed
  cases act_cases taken with
  | push ev =>
    rw [push_dropping dropping]
    exact ⟨rfl, .inl ⟨dropping, by simp, by simp⟩⟩
  | start taken =>
    exact ⟨stream_start sound taken, .inl ⟨(dropping_start taken).mpr dropping, by simp, by simp⟩⟩
  | resnapshot _ idle =>
    obtain ⟨resnapshot, found, -⟩ := dropping
    rw [idle] at found
    cases found
  | note kind resnapshot noted found phase held =>
    obtain ⟨other, there, dropping⟩ := dropping
    rw [found] at there
    cases there
    refine ⟨?_, .inl ⟨⟨noted, rfl, phase.trans dropping⟩, ?_, ?_⟩⟩
    · simp [stream, undelivered, BufferedEventWatcher.held, found, held]
    · rcases kind with rfl | rfl <;> simp
    · rcases kind with rfl | rfl <;> simp
  | boundary resnapshot found =>
    refine ⟨?_, .inr ⟨awake_holding, .inl rfl⟩⟩
    simp [stream, undelivered, held, found]
  | stray awake => exact absurd dropping awake
  | resume resnapshot found over_ =>
    refine ⟨stream_resume sound here found, .inr ⟨awake_resume sound resnapshot.held, .inr ?_⟩⟩
    rcases over_ with fails | ⟨-, holding⟩
    · exact fails
    · obtain ⟨other, there, phase⟩ := dropping
      rw [found] at there
      cases there
      rw [holding] at phase
      cases phase
  | unsubscribe => exact absurd rfl stays
  | deliver taken =>
    exact ⟨stream_deliver sound here taken,
      .inl ⟨(dropping_deliver taken).mpr dropping, by simp, by simp⟩⟩
  | settle => exact ⟨rfl, .inl ⟨dropping, by simp, by simp⟩⟩

end

end

end BufferedEventWatcher

namespace WatchEvent

theorem pushes_cons (ev : WatchEvent α) (rest : List (WatchEvent α)) :
    pushes (ev :: rest) = pushes [ev] ++ pushes rest := by
  cases ev <;> rfl

theorem early_cons {ev : WatchEvent α} (unmarked : ev ≠ .boundary) (unfailed : ev ≠ .fail)
    (rest : List (WatchEvent α)) : early (ev :: rest) = pushes [ev] ++ early rest := by
  cases ev with
  | boundary => exact absurd rfl unmarked
  | fail => exact absurd rfl unfailed
  | _ => rfl

theorem early_fail (during after : List (WatchEvent α)) :
    early (during ++ .fail :: after) = early during := by
  induction during with
  | nil => rfl
  | cons ev rest ih =>
    cases ev with
    | boundary => rfl
    | fail => rfl
    | push ev => exact congrArg (ev :: ·) ih
    | _ => exact ih

theorem pushes_filter (events : List (WatchEvent α)) :
    pushes (events.filter isCall) = pushes events := by
  induction events with
  | nil => rfl
  | cons ev rest ih =>
    cases ev with
    | push ev => exact congrArg (ev :: ·) ih
    | start => exact ih
    | unsubscribe => exact ih
    | _ => exact ih

theorem pushes_undelivered (events : List (WatchEvent α)) :
    pushes (events.filter fun ev => !ev.isDelivery) = pushes events := by
  induction events with
  | nil => rfl
  | cons ev rest ih =>
    cases ev with
    | push ev => exact congrArg (ev :: ·) ih
    | deliver => exact ih
    | settle => exact ih
    | _ => exact ih

end WatchEvent

namespace BufferedEventWatcher

variable {w last : BufferedEventWatcher α} {events : List (WatchEvent α)}

section

variable (sound : w.Sound) (taken : w.acts events = some last)
  (subscribed : last.state ≠ .unsubscribed)

include sound taken subscribed

theorem acts_awake (awake : ¬ w.Dropping)
    (plain : .resnapshot ∉ events) : last.stream = w.stream ++ WatchEvent.pushes events := by
  induction events generalizing w with
  | nil =>
    cases taken
    exact (append_nil _).symm
  | cons ev rest ih =>
    obtain ⟨after, ok, later⟩ := bind_eq_some_iff.mp taken
    obtain ⟨first, others⟩ := ne_and_not_mem_of_not_mem_cons plain
    obtain ⟨same, awake'⟩ :=
      act_awake sound ok ((acts_subscribed later).mp subscribed).1 awake (Ne.symm first)
    rw [ih (sound.act ok) later awake' others, same, append_assoc, ← WatchEvent.pushes_cons]

/-- In a run that begins before the boundary all is added but what comes before it. -/
theorem acts_dropping (dropping : w.Dropping)
    (plain : .resnapshot ∉ events) :
    ∃ late, WatchEvent.pushes events = WatchEvent.early events ++ late ∧
      last.stream = w.stream ++ late := by
  induction events generalizing w with
  | nil =>
    cases taken
    exact ⟨[], rfl, (append_nil _).symm⟩
  | cons ev rest ih =>
    obtain ⟨after, ok, later⟩ := bind_eq_some_iff.mp taken
    obtain ⟨-, others⟩ := ne_and_not_mem_of_not_mem_cons plain
    obtain ⟨same, ⟨dropping', unmarked, unfailed⟩ | ⟨awake, over_⟩⟩ :=
      act_dropping sound ok ((acts_subscribed later).mp subscribed).1 dropping
    · obtain ⟨late, pushed, stream⟩ := ih (sound.act ok) later dropping' others
      refine ⟨late, ?_, ?_⟩
      · rw [WatchEvent.pushes_cons, pushed, WatchEvent.early_cons unmarked unfailed, append_assoc]
      · rw [stream, same]
    · refine ⟨WatchEvent.pushes rest, ?_, ?_⟩
      · rcases over_ with rfl | rfl <;> rfl
      · rw [acts_awake (sound.act ok) later subscribed awake others, same]

end

theorem acts_calls {other : BufferedEventWatcher α} (taken : w.acts events = some last)
    (same : other.state = w.state) :
    ∃ without, other.acts (events.filter WatchEvent.isCall) = some without := by
  induction events generalizing w other with
  | nil => exact ⟨other, rfl⟩
  | cons ev rest ih =>
    obtain ⟨after, ok, later⟩ := bind_eq_some_iff.mp taken
    by_cases call : ev.isCall = true
    · rw [filter_cons_of_pos call]
      obtain ⟨acted, ok', same'⟩ : ∃ acted, other.act ev = some acted ∧
          acted.state = after.state := by
        cases ev with
        | push ev =>
          cases ok
          refine ⟨_, rfl, ?_⟩
          rw [(push_frame other ev).2.2.1, (push_frame w ev).2.2.1, same]
        | start =>
          change w.start = _ at ok
          unfold start at ok
          split at ok
          · rename_i buffering
            rw [foldl_enqueue _ rfl] at ok
            cases ok
            change ∃ acted, other.start = some acted ∧ _
            unfold start
            rw [if_pos (same.trans buffering), foldl_enqueue _ rfl]
            exact ⟨_, rfl, rfl⟩
          · cases ok
        | unsubscribe =>
          cases ok
          exact ⟨_, rfl, rfl⟩
        | _ => cases call
      obtain ⟨without, acts_⟩ := ih later same'
      refine ⟨without, ?_⟩
      change (other.act ev).bind _ = _
      rw [ok']
      exact acts_
    · rw [filter_cons_of_neg call]
      refine ih later (same.trans ?_)
      rcases act_state ok with kept | ⟨rfl, -⟩ | ⟨rfl, -⟩
      · exact kept.symm
      · exact absurd rfl call
      · exact absurd rfl call

end BufferedEventWatcher

section

variable {bus next : HarnessEventBus α} {id : Nat} {w : BufferedEventWatcher α}

theorem exec_append {first second : List (BusEvent α)} {last : HarnessEventBus α}
    (ran : (eventBus α).exec (fun _ _ => True) bus (first ++ second) = some last) :
    ∃ middle, (eventBus α).exec (fun _ _ => True) bus first = some middle ∧
      (eventBus α).exec (fun _ _ => True) middle second = some last ∧
      bus.heard id (first ++ second) = bus.heard id first ++ middle.heard id second := by
  induction first generalizing bus with
  | nil => exact ⟨bus, rfl, ran, rfl⟩
  | cons ev rest ih =>
    rw [cons_append, Machine.exec, if_pos trivial] at ran
    split at ran
    · rename_i after taken
      have stepped : bus.step ev = some after := taken
      obtain ⟨middle, before, later, same⟩ := ih ran
      refine ⟨middle, ?_, later, ?_⟩
      · rw [Machine.exec, if_pos trivial, taken]
        exact before
      · rw [cons_append, heard, heard, stepped]
        dsimp only
        rw [same, append_assoc]
    · cases ran

theorem heard_resnapshot {events : List (BusEvent α)}
    (mem : .resnapshot ∈ bus.heard id events) : .resnapshot id ∈ events := by
  induction events generalizing bus with
  | nil => cases mem
  | cons ev rest ih =>
    rw [heard] at mem
    rcases mem_append.mp mem with here | later
    · have own : bus.hears id ev = some .resnapshot := mem_toList.mp here
      cases ev with
      | resnapshot other =>
        rw [hears] at own
        split at own
        · rename_i same
          exact same ▸ mem_cons_self
        · cases own
      | process failure =>
        rw [hears] at own
        split at own
        · split at own <;> cases own
        · split at own <;> cases own
        · cases own
      | on type other => cases own
      | off type other => cases own
      | emitBatch events => cases own
      | watch filter hasCapture => cases own
      | close => cases own
      | _ =>
        rw [hears] at own
        split at own <;> cases own
    · split at later
      · cases later
      · exact mem_cons_of_mem _ (ih later)

/-- A handle gives up what waits when it is to be captured anew. -/
theorem BufferedEventWatcher.Sound.called (sound : w.Sound)
    {called : BufferedEventWatcher α} (taken : w.act .resnapshot = some called) :
    called.stream = w.delivered.map Prod.fst ∧ called.Dropping ∧
      called.state = w.state ∧ ¬ w.Dropping := by
  obtain ⟨-, tail, buffer⟩ := sound.tags
  cases act_cases taken with
  | resnapshot subscribed idle =>
    refine ⟨?_, ⟨_, rfl, rfl⟩, rfl, ?_⟩
    · rw [stream, undelivered]
      dsimp only
      rw [ofEpoch_nil fun item mem => Nat.lt_succ_of_le (tail item mem),
        ofEpoch_nil fun item mem => Nat.lt_succ_of_le (buffer item mem)]
      exact append_nil _
    · rintro ⟨resnapshot, found, -⟩
      rw [idle] at found
      cases found
  | note kind => rcases kind with same | same <;> cases same
  | resume _ _ over_ => rcases over_ with same | ⟨same, -⟩ <;> cases same

end

/-- A handle whose `resnapshot` fails, from its registration on: whenever the handle is still
subscribed, what it has delivered and will deliver is the same as in any run of it without the
call, with the same events and the same start, exactly if nothing waited for delivery at the
call and nothing for it came before the boundary. -/
theorem failed_resnapshot_iff (bus : HarnessEventBus α) {filter : HarnessEvent α → Bool}
    {opened middle called last : HarnessEventBus α} {before during after : List (BusEvent α)}
    {w handle : BufferedEventWatcher α} (watched : bus.watch filter true = some opened)
    (earlier : (eventBus α).exec (fun _ _ => True) opened before = some middle)
    (found : middle.watchers[bus.watchers.length]? = some w)
    (call : middle.step (.resnapshot bus.watchers.length) = some called)
    (ran : (eventBus α).exec (fun _ _ => True) called
      (during ++ .fail bus.watchers.length :: after) = some last)
    (once : .resnapshot bus.watchers.length ∉ during ++ after)
    (here : last.watchers[bus.watchers.length]? = some handle)
    (subscribed : handle.state ≠ .unsubscribed) :
    let heard := called.heard bus.watchers.length (during ++ .fail bus.watchers.length :: after)
    (∃ without, w.acts (heard.filter WatchEvent.isCall) = some without) ∧
    ∀ schedule without, (schedule.filter fun ev => !ev.isDelivery) =
        heard.filter WatchEvent.isCall →
      w.acts schedule = some without →
      (handle.stream = without.stream ↔ w.undelivered = [] ∧
        WatchEvent.early (called.heard bus.watchers.length during) = []) := by
  intro heard
  have sound : w.Sound := by
    have registered : opened.watchers[bus.watchers.length]? = some (.new filter true) := by
      unfold HarnessEventBus.watch at watched
      split at watched
      · cases watched
      · cases watched
        exact List.getElem?_concat_length
    obtain ⟨arrived, there, acted⟩ := exec_heard earlier registered
    obtain rfl : w = arrived := Option.some.inj (found.symm.trans there)
    exact (BufferedEventWatcher.sound_new filter true).acts acted
  obtain ⟨renewed, inside, asked⟩ := step_hears call found
  rw [HarnessEventBus.hears, if_pos rfl] at asked
  have asked : w.act .resnapshot = some renewed := by
    obtain ⟨acted, ok, same⟩ := Option.bind_eq_some_iff.mp asked
    rw [ok]
    exact same
  obtain ⟨given, dropping, s, awake⟩ := sound.called asked
  obtain ⟨reached, there, acted⟩ := exec_heard ran inside
  obtain rfl : handle = reached := Option.some.inj (here.symm.trans there)
  obtain ⟨failing, -, fails, split_⟩ := @exec_append _ called bus.watchers.length _ _ _ ran
  have early : WatchEvent.early heard =
      WatchEvent.early (called.heard bus.watchers.length during) := by
    change WatchEvent.early (called.heard _ _) = _
    rw [split_, HarnessEventBus.heard, HarnessEventBus.hears, if_pos rfl]
    exact WatchEvent.early_fail _ _
  have plain : .resnapshot ∉ heard := by
    intro mem
    rcases List.mem_append.mp (heard_resnapshot mem) with first | later
    · exact once (List.mem_append_left _ first)
    · rcases List.mem_cons.mp later with same | later
      · cases same
      · exact once (List.mem_append_right _ later)
  obtain ⟨late, pushed, stream⟩ :=
    BufferedEventWatcher.acts_dropping (sound.act asked) acted subscribed dropping plain
  obtain ⟨present, stays⟩ := (BufferedEventWatcher.acts_subscribed acted).mp subscribed
  refine ⟨BufferedEventWatcher.acts_calls acted s.symm, ?_⟩
  intro schedule without calls ran'
  have member_ : ∀ ev ∈ schedule, ev.isDelivery = false → ev ∈ heard ∧ ev.isCall = true := by
    intro ev mem undelivered
    apply List.mem_filter.mp
    rw [← calls]
    exact List.mem_filter.mpr ⟨mem, by rw [undelivered]; rfl⟩
  have subscribed' : without.state ≠ .unsubscribed := by
    refine (BufferedEventWatcher.acts_subscribed ran').mpr ⟨s ▸ present, ?_⟩
    exact fun mem => stays (member_ _ mem rfl).1
  have plain' : .resnapshot ∉ schedule := fun mem =>
    Bool.false_ne_true (member_ _ mem rfl).2
  have stream' := BufferedEventWatcher.acts_awake sound ran' subscribed' awake plain'
  rw [← WatchEvent.pushes_undelivered, calls, WatchEvent.pushes_filter, pushed, early] at stream'
  rw [stream, stream', given, BufferedEventWatcher.stream, List.append_assoc,
    List.append_cancel_left_eq, ← List.append_assoc, List.self_eq_append_left,
    List.append_eq_nil_iff]

/-- The second of two notes waits in the handle's tail, or is not yet with the handle, when the
listener of the first asks for a new snapshot. -/
def waitingNotes : List (BusEvent Nat) :=
  [.watch (fun _ => true) true, .start 0, .emitBatch [note 1, note 2], .process none,
    .process none, .deliver 0]

def arrivingNotes : List (BusEvent Nat) :=
  [.watch (fun _ => true) true, .start 0, .emitBatch [note 1, note 2], .process none, .deliver 0]

/-- The capture is refused and the second note is never delivered; without the call it is. -/
theorem failed_resnapshot_loses :
    (((eventBus Nat).exec (fun _ _ => True) .new
        (waitingNotes ++ [.resnapshot 0, .fail 0, .settle 0 none, .deliver 0])).map fun bus =>
          (bus.pending.length, bus.watchers.map fun w =>
            (w.deliveryTail.length, w.delivered.map Prod.fst))) =
        some (0, [(0, [note 1])]) ∧
      (((eventBus Nat).exec (fun _ _ => True) .new
        (waitingNotes ++ [.settle 0 none, .deliver 0])).map fun bus =>
          (bus.pending.length, bus.watchers.map fun w =>
            (w.deliveryTail.length, w.delivered.map Prod.fst))) =
        some (0, [(0, [note 1, note 2])]) ∧
      (((eventBus Nat).exec (fun _ _ => True) .new
        (arrivingNotes ++ [.resnapshot 0, .process none, .fail 0, .settle 0 none])).map fun bus =>
          (bus.pending.length, bus.watchers.map fun w =>
            (w.deliveryTail.length, w.delivered.map Prod.fst))) =
        some (0, [(0, [note 1])]) ∧
      (((eventBus Nat).exec (fun _ _ => True) .new
        (arrivingNotes ++ [.process none, .settle 0 none, .deliver 0])).map fun bus =>
          (bus.pending.length, bus.watchers.map fun w =>
            (w.deliveryTail.length, w.delivered.map Prod.fst))) =
        some (0, [(0, [note 1, note 2])]) :=
  ⟨rfl, rfl, rfl, rfl⟩

/-- One note is delivered before the call, another held until the capture fails. -/
theorem failed_resnapshot_iff_sample :
    ∃ (opened middle called last : HarnessEventBus Nat)
      (w handle without : BufferedEventWatcher Nat),
      HarnessEventBus.new.watch (fun _ => true) true = some opened ∧
      (eventBus Nat).exec (fun _ _ => True) opened
        [.start 0, .emitBatch [note 1], .process none, .deliver 0] = some middle ∧
      middle.watchers[0]? = some w ∧ middle.step (.resnapshot 0) = some called ∧
      (eventBus Nat).exec (fun _ _ => True) called
        ([.mark 0, .emitBatch [note 2], .process none, .process none] ++ .fail 0 ::
          [.settle 0 none, .deliver 0]) = some last ∧
      last.watchers[0]? = some handle ∧
      w.acts [.push (note 2), .settle, .deliver] = some without ∧
      handle.stream = without.stream := by
  refine ⟨_, _, _, _, _, _, _, rfl, rfl, rfl, rfl, rfl, rfl, rfl, ?_⟩
  have kept := failed_resnapshot_iff .new
    (rfl : HarnessEventBus.new.watch (fun _ => true) true = some _)
    (rfl : (eventBus Nat).exec (fun _ _ => True) _
      [.start 0, .emitBatch [note 1], .process none, .deliver 0] = some _) rfl rfl
    (rfl : (eventBus Nat).exec (fun _ _ => True) _
      ([.mark 0, .emitBatch [note 2], .process none, .process none] ++ .fail 0 ::
        [.settle 0 none, .deliver 0]) = some _)
    (by simp) rfl (by decide)
  exact (kept.2 [.push (note 2), .settle, .deliver] _ rfl rfl).mpr ⟨rfl, rfl⟩

end Trpi.Harness
