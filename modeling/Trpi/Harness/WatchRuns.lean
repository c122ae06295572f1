import Mathlib.Data.List.Infix
import Trpi.Harness.Events

/-!
# What a watch handle passes on

The bus delivers one stream: what was emitted, in order, and the reports of failed listeners
where they failed. A handle's boundaries divide the part of the stream that is for it. At
any time what the handle has passed on of the current snapshot, what waits in its tail, its
buffer and what it holds are together what the bus has delivered to it behind the boundary.
-/

namespace Trpi.Harness

open List Option BufferedEventWatcher

variable {α : Type}

def mine (filter : HarnessEvent α → Bool) (id : Nat) : List (Entry α) → List (HarnessEvent α)
  | [] => []
  | .call event (.watcher other) _ :: rest =>
    if other = id ∧ filter event = true then event :: mine filter id rest else mine filter id rest
  | _ :: rest => mine filter id rest

/-- What stands behind so many boundaries of the handle. -/
def behind (id : Nat) : Nat → List (Entry α) → List (Entry α)
  | 0, stream => stream
  | _ + 1, [] => []
  | epoch + 1, .barrier other :: rest =>
    if other = id then behind id epoch rest else behind id (epoch + 1) rest
  | epoch + 1, _ :: rest => behind id (epoch + 1) rest

def barriers (id : Nat) : List (Entry α) → Nat
  | [] => 0
  | .barrier other :: rest => (if other = id then 1 else 0) + barriers id rest
  | _ :: rest => barriers id rest

def Entry.isEmitted : Entry α → Bool
  | .call _ _ reportErrors => reportErrors
  | .barrier _ => true
  | .clear => false

section

variable (filter : HarnessEvent α → Bool) (id : Nat)

theorem mine_append (first second : List (Entry α)) :
    mine filter id (first ++ second) = mine filter id first ++ mine filter id second := by
  induction first with
  | nil => rfl
  | cons e rest ih =>
    cases e with
    | call ev recipient reportErrors =>
      cases recipient with
      | listener other => exact ih
      | watcher other =>
        rw [cons_append, mine, mine, ih]
        split
        · rfl
        · rfl
    | barrier other => exact ih
    | clear => exact ih

theorem barriers_append (first second : List (Entry α)) :
    barriers id (first ++ second) = barriers id first + barriers id second := by
  induction first with
  | nil => exact (Nat.zero_add _).symm
  | cons e rest ih =>
    cases e with
    | call ev recipient reportErrors => exact ih
    | barrier other =>
      rw [cons_append, barriers, barriers, ih, Nat.add_assoc]
    | clear => exact ih

variable {epoch : Nat} {stream : List (Entry α)}

theorem behind_of_lt (ahead : barriers id stream < epoch) : behind id epoch stream = [] := by
  induction stream generalizing epoch with
  | nil =>
    cases epoch with
    | zero => exact absurd ahead (Nat.not_lt_zero _)
    | succ epoch => rfl
  | cons e rest ih =>
    cases epoch with
    | zero => exact absurd ahead (Nat.not_lt_zero _)
    | succ epoch =>
      cases e with
      | call ev recipient reportErrors => exact ih ahead
      | barrier other =>
        rw [barriers] at ahead
        rw [behind]
        split
        · rename_i same
          rw [if_pos same] at ahead
          exact ih (by omega)
        · rename_i apart
          rw [if_neg apart] at ahead
          exact ih (by omega)
      | clear => exact ih ahead

theorem behind_append {first : List (Entry α)} (reached : epoch ≤ barriers id first)
    (second : List (Entry α)) :
    behind id epoch (first ++ second) = behind id epoch first ++ second := by
  induction first generalizing epoch with
  | nil =>
    obtain rfl := Nat.le_zero.mp reached
    rw [behind, behind]
  | cons e rest ih =>
    cases epoch with
    | zero => rfl
    | succ epoch =>
      cases e with
      | call ev recipient reportErrors => exact ih reached
      | barrier other =>
        rw [barriers] at reached
        rw [cons_append, behind, behind]
        split
        · rename_i same
          rw [if_pos same] at reached
          exact ih (by omega)
        · rename_i apart
          rw [if_neg apart] at reached
          exact ih (by omega)
      | clear => exact ih reached

/-- The boundary itself. -/
theorem behind_barrier (reached : barriers id stream + 1 = epoch) :
    behind id epoch (stream ++ [.barrier id]) = [] := by
  induction stream generalizing epoch with
  | nil =>
    subst reached
    simp [behind, barriers]
  | cons e rest ih =>
    cases epoch with
    | zero => omega
    | succ epoch =>
      cases e with
      | call ev recipient reportErrors => exact ih reached
      | barrier other =>
        rw [barriers] at reached
        rw [cons_append, behind]
        split
        · rename_i same
          rw [if_pos same] at reached
          exact ih (by omega)
        · rename_i apart
          rw [if_neg apart] at reached
          exact ih (by omega)
      | clear => exact ih reached

theorem mine_behind_mono (epoch : Nat) (first second : List (Entry α)) :
    mine filter id (behind id epoch first) <+: mine filter id (behind id epoch (first ++ second)) := by
  by_cases reached : epoch ≤ barriers id first
  · rw [behind_append id reached, mine_append]
    exact prefix_append _ _
  · rw [behind_of_lt id (Nat.lt_of_not_le reached)]
    exact nil_prefix

end

def ofEpoch (epoch : Nat) (items : List (HarnessEvent α × Nat)) : List (HarnessEvent α) :=
  (items.filter fun item => item.2 = epoch).map Prod.fst

theorem ofEpoch_append (epoch : Nat) (first second : List (HarnessEvent α × Nat)) :
    ofEpoch epoch (first ++ second) = ofEpoch epoch first ++ ofEpoch epoch second := by
  simp [ofEpoch]

theorem ofEpoch_nil {epoch : Nat} {items : List (HarnessEvent α × Nat)}
    (older : ∀ item ∈ items, item.2 < epoch) : ofEpoch epoch items = [] := by
  rw [ofEpoch, map_eq_nil_iff, filter_eq_nil_iff]
  intro item mem
  have before := older item mem
  simp
  omega

namespace BufferedEventWatcher

def held (w : BufferedEventWatcher α) : List (HarnessEvent α) :=
  match w.resnapshotState with
  | none => []
  | some resnapshot => resnapshot.held

/-- What has come of the current snapshot, in the order it came. -/
def current (w : BufferedEventWatcher α) : List (HarnessEvent α) :=
  ofEpoch w.epoch w.delivered ++ ofEpoch w.epoch w.deliveryTail ++
    ofEpoch w.epoch w.buffer ++ w.held

/-- Where the boundary of the current snapshot is. -/
def Positioned (w : BufferedEventWatcher α) (passed ahead : Nat) : Prop :=
  match w.resnapshotState with
  | none => passed = w.epoch ∧ ahead = 0
  | some resnapshot =>
    match resnapshot.phase with
    | .dropping => passed + 1 = w.epoch ∧ ahead = (if resnapshot.marked then 1 else 0) ∧
        resnapshot.held = []
    | .holding => passed = w.epoch ∧ ahead = 0 ∧ resnapshot.marked = true

/-- A handle, against the entries the bus has delivered and those it has not. -/
structure Follows (w : BufferedEventWatcher α) (id : Nat) (done pending : List (Entry α)) :
    Prop where
  positioned : w.Positioned (barriers id done) (barriers id pending)
  exact : w.state ≠ .unsubscribed → w.current = mine w.filter id (behind id w.epoch done)
  passed : ∀ epoch ≤ w.epoch, ofEpoch epoch w.delivered <+: mine w.filter id (behind id epoch done)
  tags : (∀ item ∈ w.delivered, item.2 ≤ w.epoch) ∧
    (∀ item ∈ w.deliveryTail, item.2 ≤ w.epoch) ∧ ∀ item ∈ w.buffer, item.2 ≤ w.epoch
  buffering : w.state = .buffering → w.deliveryTail = []
  started : w.state = .started → w.buffer = []

section

variable {w : BufferedEventWatcher α} {id : Nat} {done pending : List (Entry α)}

theorem Follows.reached (follows : w.Follows id done pending)
    (settled : w.resnapshotState = none) : barriers id done = w.epoch := by
  have positioned := follows.positioned
  rw [Positioned, settled] at positioned
  exact positioned.1

variable {rest : List (Entry α)} {next : BufferedEventWatcher α} {e : Entry α}

/-- Entries that are not for the handle. -/
theorem Follows.skip (follows : w.Follows id done (e :: rest)) (quiet : mine w.filter id [e] = [])
    (plain : barriers id [e] = 0) : w.Follows id (done ++ [e]) rest := by
  have ahead : barriers id (e :: rest) = barriers id rest := by
    rw [← singleton_append, barriers_append, plain, Nat.zero_add]
  have passed : barriers id (done ++ [e]) = barriers id done := by
    rw [barriers_append, plain, Nat.add_zero]
  have same : ∀ epoch, mine w.filter id (behind id epoch (done ++ [e])) =
      mine w.filter id (behind id epoch done) := by
    intro epoch
    by_cases reached : epoch ≤ barriers id done
    · rw [behind_append id reached, mine_append, quiet, append_nil]
    · rw [behind_of_lt id (Nat.lt_of_not_le reached), behind_of_lt id]
      rw [passed]
      exact Nat.lt_of_not_le reached
  refine { follows with positioned := ?_, exact := ?_, passed := ?_ }
  · have positioned := follows.positioned
    rw [ahead] at positioned
    rw [passed]
    exact positioned
  · intro subscribed
    rw [same]
    exact follows.exact subscribed
  · intro epoch older
    rw [same]
    exact follows.passed epoch older

/-- What is emitted later. -/
theorem Follows.more (follows : w.Follows id done pending) {others : List (Entry α)}
    (plain : barriers id others = barriers id pending) : w.Follows id done others := by
  refine { follows with positioned := ?_ }
  · rw [plain]
    exact follows.positioned

theorem push_frame (w : BufferedEventWatcher α) (ev : HarnessEvent α) :
    (w.push ev).filter = w.filter ∧ (w.push ev).epoch = w.epoch ∧
      (w.push ev).state = w.state ∧ (w.push ev).delivered = w.delivered := by
  unfold push enqueue
  repeat' split
  all_goals exact ⟨rfl, rfl, rfl, rfl⟩

theorem ofEpoch_self (epoch : Nat) (ev : HarnessEvent α) : ofEpoch epoch [(ev, epoch)] = [ev] := by
  simp [ofEpoch]

/-- Nothing of the new snapshot comes before its boundary. -/
def Dropping (w : BufferedEventWatcher α) : Prop :=
  ∃ resnapshot, w.resnapshotState = some resnapshot ∧ resnapshot.phase = .dropping

theorem push_dropping (dropping : w.Dropping) (ev : HarnessEvent α) : w.push ev = w := by
  obtain ⟨resnapshot, found, phase⟩ := dropping
  rw [push, found]
  dsimp only
  rw [phase]
  split
  · rfl
  · rfl

theorem current_push (subscribed : w.state ≠ .unsubscribed) (awake : ¬ w.Dropping)
    (started : w.state = .started → w.buffer = []) (ev : HarnessEvent α) :
    (w.push ev).current = w.current ++ [ev] := by
  rw [push, if_neg subscribed]
  cases found : w.resnapshotState with
  | none =>
    have none_ : w.held = [] := by rw [held, found]
    dsimp only
    split
    · rw [current, current, none_, ofEpoch_append, ofEpoch_self]
      simp [held]
    · rename_i unbuffered
      have running : w.state = .started := by
        cases s : w.state with
        | buffering => exact absurd s unbuffered
        | started => rfl
        | unsubscribed => exact absurd s subscribed
      rw [enqueue, if_pos running, current, current, none_, ofEpoch_append, ofEpoch_self]
      simp [held, found, started running, ofEpoch]
  | some resnapshot =>
    cases phase : resnapshot.phase with
    | dropping => exact absurd ⟨resnapshot, found, phase⟩ awake
    | holding =>
      dsimp only
      rw [phase]
      simp only [current, held, found]
      rw [← append_assoc]

theorem push_tags {epoch : Nat}
    (tags : (∀ item ∈ w.delivered, item.2 ≤ epoch) ∧
      (∀ item ∈ w.deliveryTail, item.2 ≤ epoch) ∧ ∀ item ∈ w.buffer, item.2 ≤ epoch)
    (known : w.epoch ≤ epoch) (ev : HarnessEvent α) :
    (∀ item ∈ (w.push ev).delivered, item.2 ≤ epoch) ∧
      (∀ item ∈ (w.push ev).deliveryTail, item.2 ≤ epoch) ∧
      ∀ item ∈ (w.push ev).buffer, item.2 ≤ epoch := by
  obtain ⟨delivered, tail, buffer⟩ := tags
  have grown : ∀ items : List (HarnessEvent α × Nat), (∀ item ∈ items, item.2 ≤ epoch) →
      ∀ item ∈ items ++ [(ev, w.epoch)], item.2 ≤ epoch := by
    intro items older item mem
    rcases mem_append.mp mem with old | new
    · exact older item old
    · rw [mem_singleton.mp new]
      exact known
  unfold push enqueue
  repeat' split
  all_goals first
    | exact ⟨delivered, tail, buffer⟩
    | exact ⟨delivered, tail, grown _ buffer⟩
    | exact ⟨delivered, grown _ tail, buffer⟩

theorem push_queues (w : BufferedEventWatcher α) (ev : HarnessEvent α) :
    (w.state = .buffering → (w.push ev).deliveryTail = w.deliveryTail) ∧
      (w.state = .started → (w.push ev).buffer = w.buffer) := by
  refine ⟨fun buffering => ?_, fun started => ?_⟩
  · rw [push, if_neg (by rw [buffering]; decide)]
    cases w.resnapshotState with
    | none =>
      dsimp only
      rw [if_pos buffering]
    | some resnapshot =>
      dsimp only
      split
      · rfl
      · rfl
  · rw [push, if_neg (by rw [started]; decide)]
    cases w.resnapshotState with
    | none =>
      dsimp only
      rw [if_neg (by rw [started]; decide), enqueue, if_pos started]
    | some resnapshot =>
      dsimp only
      split
      · rfl
      · rfl

theorem push_positioned (passed ahead : Nat) (ev : HarnessEvent α) :
    (w.push ev).Positioned passed ahead ↔ w.Positioned passed ahead := by
  unfold push
  split
  · exact Iff.rfl
  cases found : w.resnapshotState with
  | none =>
    dsimp only
    split
    · simp [Positioned, found]
    · rw [enqueue]
      split
      · simp [Positioned, found]
      · exact Iff.rfl
  | some resnapshot =>
    cases phase : resnapshot.phase with
    | dropping =>
      dsimp only
      rw [phase]
    | holding =>
      dsimp only
      rw [phase]
      simp [Positioned, found, phase]

theorem Follows.awake (follows : w.Follows id done pending) (awake : ¬ w.Dropping) :
    barriers id done = w.epoch ∧ barriers id pending = 0 := by
  have positioned := follows.positioned
  unfold Positioned at positioned
  cases found : w.resnapshotState with
  | none =>
    rw [found] at positioned
    exact positioned
  | some resnapshot =>
    rw [found] at positioned
    cases phase : resnapshot.phase with
    | dropping => exact absurd ⟨resnapshot, found, phase⟩ awake
    | holding =>
      dsimp only at positioned
      rw [phase] at positioned
      exact ⟨positioned.1, positioned.2.1⟩

theorem Follows.dropping (follows : w.Follows id done pending)
    (dropping : w.Dropping) : barriers id done + 1 = w.epoch ∧ w.held = [] := by
  obtain ⟨resnapshot, found, phase⟩ := dropping
  have positioned := follows.positioned
  rw [Positioned, found] at positioned
  dsimp only at positioned
  rw [phase] at positioned
  refine ⟨positioned.1, ?_⟩
  rw [held, found]
  exact positioned.2.2

theorem Follows.take {ev : HarnessEvent α} (follows : w.Follows id done (e :: rest))
    (own : mine w.filter id [e] = [ev]) (plain : barriers id [e] = 0) :
    (w.push ev).Follows id (done ++ [e]) rest := by
  obtain ⟨filter, epoch, s, delivered⟩ := push_frame w ev
  have ahead : barriers id (e :: rest) = barriers id rest := by
    rw [← singleton_append, barriers_append, plain, Nat.zero_add]
  have passed : barriers id (done ++ [e]) = barriers id done := by
    rw [barriers_append, plain, Nat.add_zero]
  obtain ⟨tail, buffer⟩ := push_queues w ev
  constructor
  · rw [push_positioned, passed, ← ahead]
    exact follows.positioned
  · rw [s, filter, epoch]
    intro subscribed
    have before := follows.exact subscribed
    by_cases dropping : w.Dropping
    · have short := (follows.dropping dropping).1
      rw [push_dropping dropping, before, behind_of_lt id (by omega), behind_of_lt id (by omega)]
    · have reached := (follows.awake dropping).1
      rw [current_push subscribed dropping follows.started, before, behind_append id (by omega),
        mine_append, own]
  · rw [filter, epoch, delivered]
    intro older bound
    exact (follows.passed older bound).trans (mine_behind_mono _ _ _ _ _)
  · rw [epoch]
    exact push_tags follows.tags (Nat.le_refl _) ev
  · rw [s]
    intro buffering
    rw [tail buffering]
    exact follows.buffering buffering
  · rw [s]
    intro started
    rw [buffer started]
    exact follows.started started

theorem Follows.boundary (follows : w.Follows id done (.barrier id :: rest)) :
    w.markResnapshotBoundary.Follows id (done ++ [.barrier id]) rest := by
  have one : barriers id (.barrier id :: rest) = 1 + barriers id rest := by
    rw [barriers, if_pos rfl]
  have more : barriers id (done ++ [.barrier id]) = barriers id done + 1 := by
    rw [barriers_append, barriers, if_pos rfl, barriers]
  have dropping : w.Dropping := by
    by_contra awake
    have none_ := (follows.awake awake).2
    omega
  have short := (follows.dropping dropping).1
  obtain ⟨resnapshot, found, phase⟩ := dropping
  have positioned := follows.positioned
  rw [Positioned, found] at positioned
  dsimp only at positioned
  rw [phase, one] at positioned
  obtain ⟨-, ahead, held⟩ := positioned
  have marked : resnapshot.marked = true := by
    by_contra unmarked
    rw [if_neg unmarked] at ahead
    omega
  rw [if_pos marked] at ahead
  have same : w.markResnapshotBoundary =
      { w with resnapshotState := some { resnapshot with phase := .holding } } := by
    rw [markResnapshotBoundary, found]
    dsimp only
    rw [phase]
  rw [same]
  refine { follows with positioned := ?_, exact := ?_, passed := ?_ }
  · simp only [Positioned]
    exact ⟨by omega, by omega, marked⟩
  · intro subscribed
    have before := follows.exact subscribed
    rw [behind_of_lt id (by omega)] at before
    dsimp only
    rw [behind_barrier id short]
    rw [← before]
    simp only [current, BufferedEventWatcher.held, found]
  · intro epoch older
    exact (follows.passed epoch older).trans (mine_behind_mono _ _ _ _ _)

theorem foldl_enqueue (items : List (HarnessEvent α × Nat)) {handle : BufferedEventWatcher α}
    (running : handle.state = .started) :
    items.foldl (fun handle item => handle.enqueue item.1 item.2) handle =
      { handle with deliveryTail := handle.deliveryTail ++ items } := by
  induction items generalizing handle with
  | nil => simp
  | cons item rest ih =>
    have next : handle.enqueue item.1 item.2 =
        { handle with deliveryTail := handle.deliveryTail ++ [item] } := by
      rw [enqueue, if_pos running]
    have later := @ih { handle with deliveryTail := handle.deliveryTail ++ [item] } running
    rw [foldl_cons, next, later]
    simp

section

variable (follows : w.Follows id done pending)

include follows

theorem Follows.start {started : BufferedEventWatcher α} (taken : w.start = some started) :
    started.Follows id done pending := by
  rw [BufferedEventWatcher.start] at taken
  split at taken
  · rename_i buffering
    rw [foldl_enqueue _ rfl] at taken
    cases taken
    have empty := follows.buffering buffering
    have subscribed : w.state ≠ .unsubscribed := by
      rw [buffering]
      decide
    obtain ⟨delivered, -, buffer⟩ := follows.tags
    constructor
    · exact follows.positioned
    · intro _
      dsimp only
      rw [← follows.exact subscribed]
      simp [current, held, empty, ofEpoch]
    · exact follows.passed
    · dsimp only
      rw [empty, nil_append]
      exact ⟨delivered, buffer, by simp⟩
    · intro buffering
      cases buffering
    · intro _
      rfl
  · cases taken

theorem Follows.resnapshot (taken : w.resnapshot = some next) : next.Follows id done pending := by
  rw [BufferedEventWatcher.resnapshot] at taken
  split at taken
  · cases taken
  split at taken
  · cases taken
  split at taken
  · cases taken
  rename_i settled
  have none_ : w.resnapshotState = none := by simpa using settled
  have positioned := follows.positioned
  rw [Positioned, none_] at positioned
  obtain ⟨reached, ahead⟩ := positioned
  cases taken
  obtain ⟨delivered, tail, buffer⟩ := follows.tags
  have older : ∀ items : List (HarnessEvent α × Nat),
      (∀ item ∈ items, item.2 ≤ w.epoch) → ofEpoch (w.epoch + 1) items = [] :=
    fun items tags => ofEpoch_nil fun item mem => Nat.lt_succ_of_le (tags item mem)
  constructor
  · simp only [Positioned]
    exact ⟨by omega, by simpa using ahead, trivial⟩
  · intro _
    dsimp only
    rw [behind_of_lt id (by omega)]
    simp [current, held, older _ delivered, older _ tail, older _ buffer, mine]
  · intro epoch bound
    rcases Nat.lt_or_eq_of_le bound with early | rfl
    · exact follows.passed epoch (Nat.le_of_lt_succ early)
    · dsimp only
      rw [older _ delivered]
      exact nil_prefix
  · exact ⟨fun item mem => Nat.le_succ_of_le (delivered item mem),
      fun item mem => Nat.le_succ_of_le (tail item mem),
      fun item mem => Nat.le_succ_of_le (buffer item mem)⟩
  · exact follows.buffering
  · exact follows.started

theorem Follows.mark {marked : BufferedEventWatcher α} {others : List (Entry α)} (taken : w.mark = some marked)
    (added : barriers id others = barriers id pending + 1) : marked.Follows id done others := by
  rw [BufferedEventWatcher.mark] at taken
  split at taken
  · cases taken
  rename_i resnapshot found
  split at taken
  · cases taken
  rename_i first
  have unmarked : resnapshot.marked = false := by
    simp only [Bool.or_eq_true, not_or, Bool.not_eq_true] at first
    exact first.2
  have dropping : w.Dropping := by
    by_contra awake
    have positioned := follows.positioned
    rw [Positioned, found] at positioned
    cases phase : resnapshot.phase with
    | dropping => exact awake ⟨resnapshot, found, phase⟩
    | holding =>
      dsimp only at positioned
      rw [phase] at positioned
      rw [unmarked] at positioned
      exact absurd positioned.2.2 Bool.false_ne_true
  obtain ⟨same, foundSame, phase⟩ := dropping
  rw [found] at foundSame
  cases foundSame
  have positioned := follows.positioned
  rw [Positioned, found] at positioned
  dsimp only at positioned
  rw [phase, unmarked] at positioned
  obtain ⟨reached, ahead, held⟩ := positioned
  cases taken
  refine { follows with positioned := ?_, exact := ?_ }
  · simp only [Positioned, phase]
    refine ⟨reached, ?_, held⟩
    simp at ahead
    simp [added, ahead]
  · intro subscribed
    have before := follows.exact subscribed
    simpa only [current, BufferedEventWatcher.held, found] using before

theorem Follows.capture (taken : w.capture = some next) : next.Follows id done pending := by
  rw [BufferedEventWatcher.capture] at taken
  split at taken
  · cases taken
  rename_i resnapshot found
  split at taken
  · cases taken
  cases taken
  refine { follows with positioned := ?_, exact := ?_ }
  · have positioned := follows.positioned
    rw [Positioned, found] at positioned
    exact positioned
  · intro subscribed
    have before := follows.exact subscribed
    simpa only [current, held, found] using before

end

theorem foldl_push_frame (held : List (HarnessEvent α)) (handle : BufferedEventWatcher α) :
    (held.foldl push handle).filter = handle.filter ∧
      (held.foldl push handle).epoch = handle.epoch ∧
      (held.foldl push handle).state = handle.state ∧
      (held.foldl push handle).delivered = handle.delivered := by
  induction held generalizing handle with
  | nil => exact ⟨rfl, rfl, rfl, rfl⟩
  | cons ev rest ih =>
    obtain ⟨filter, epoch, s, delivered⟩ := push_frame handle ev
    obtain ⟨filters, epochs, states, delivereds⟩ := ih (handle.push ev)
    exact ⟨filters.trans filter, epochs.trans epoch, states.trans s, delivereds.trans delivered⟩

theorem push_settled (settled : w.resnapshotState = none) (ev : HarnessEvent α) :
    (w.push ev).resnapshotState = none := by
  unfold push enqueue
  rw [settled]
  dsimp only
  repeat' split
  all_goals first
    | exact settled
    | rfl

theorem foldl_push (held : List (HarnessEvent α)) {handle : BufferedEventWatcher α}
    (settled : handle.resnapshotState = none)
    (started : handle.state = .started → handle.buffer = [])
    (buffering : handle.state = .buffering → handle.deliveryTail = [])
    (tags : (∀ item ∈ handle.delivered, item.2 ≤ handle.epoch) ∧
      (∀ item ∈ handle.deliveryTail, item.2 ≤ handle.epoch) ∧
      ∀ item ∈ handle.buffer, item.2 ≤ handle.epoch) :
    (held.foldl push handle).resnapshotState = none ∧
      (handle.state ≠ .unsubscribed →
        (held.foldl push handle).current = handle.current ++ held) ∧
      (handle.state = .started → (held.foldl push handle).buffer = []) ∧
      (handle.state = .buffering → (held.foldl push handle).deliveryTail = []) ∧
      (∀ item ∈ (held.foldl push handle).delivered, item.2 ≤ handle.epoch) ∧
      (∀ item ∈ (held.foldl push handle).deliveryTail, item.2 ≤ handle.epoch) ∧
      ∀ item ∈ (held.foldl push handle).buffer, item.2 ≤ handle.epoch := by
  induction held generalizing handle with
  | nil => exact ⟨settled, fun _ => (append_nil _).symm, started, buffering, tags⟩
  | cons ev rest ih =>
    obtain ⟨-, epoch, s, -⟩ := push_frame handle ev
    obtain ⟨tail, buffer⟩ := push_queues handle ev
    have awake : ¬ handle.Dropping := by
      rintro ⟨resnapshot, found, -⟩
      rw [settled] at found
      cases found
    have next := @ih (handle.push ev) (push_settled settled ev)
      (by rw [s]; exact fun running => (buffer running).trans (started running))
      (by rw [s]; exact fun waits => (tail waits).trans (buffering waits))
      (by rw [epoch]; exact push_tags tags (Nat.le_refl _) ev)
    rw [s, epoch] at next
    obtain ⟨none_, current, others⟩ := next
    refine ⟨none_, ?_, others⟩
    intro subscribed
    rw [foldl_cons, current subscribed, current_push subscribed awake started,
      append_assoc, singleton_append]

section

variable (follows : w.Follows id done pending)

include follows

theorem Follows.finish {finished : BufferedEventWatcher α} (taken : w.finish = some finished) :
    finished.Follows id done pending := by
  rw [BufferedEventWatcher.finish] at taken
  split at taken
  · cases taken
  rename_i resnapshot found
  split at taken
  · rename_i ready
    have holding := of_decide_eq_true (Bool.and_eq_true_iff.mp ready).2
    have positioned := follows.positioned
    rw [Positioned, found] at positioned
    dsimp only at positioned
    rw [holding] at positioned
    obtain ⟨filter, epoch, s, delivered⟩ :=
      foldl_push_frame resnapshot.held { w with resnapshotState := none }
    obtain ⟨settled, current, started, buffering, tags⟩ :=
      @foldl_push _ resnapshot.held { w with resnapshotState := none } rfl follows.started
        follows.buffering follows.tags
    cases taken
    unfold resume
    constructor
    · rw [Positioned, settled, epoch]
      exact ⟨positioned.1, positioned.2.1⟩
    · rw [s, filter, epoch]
      intro subscribed
      rw [current subscribed, ← follows.exact subscribed]
      simp [BufferedEventWatcher.current, held, found]
    · rw [filter, epoch, delivered]
      exact follows.passed
    · rw [epoch]
      exact tags
    · rw [s]
      exact buffering
    · rw [s]
      exact started
  · cases taken

theorem Follows.unsubscribe : w.unsubscribe.Follows id done pending := by
  obtain ⟨delivered, tail, -⟩ := follows.tags
  constructor
  · exact follows.positioned
  · intro subscribed
    exact absurd rfl subscribed
  · exact follows.passed
  · exact ⟨delivered, tail, by simp [BufferedEventWatcher.unsubscribe]⟩
  · intro buffering
    cases buffering
  · intro started
    cases started

theorem Follows.deliver (taken : w.deliver = some next) : next.Follows id done pending := by
  unfold BufferedEventWatcher.deliver at taken
  split at taken
  · rename_i ev epoch rest idle tail
    obtain ⟨delivered, waiting, buffer⟩ := follows.tags
    rw [tail] at waiting
    obtain ⟨bound, later⟩ := forall_mem_cons.mp waiting
    have unstarted : w.state = .buffering → rest = [] := by
      intro buffering
      rw [follows.buffering buffering] at tail
      cases tail
    split at taken
    · rename_i ready
      obtain ⟨running, current⟩ := Bool.and_eq_true_iff.mp ready
      obtain rfl := of_decide_eq_true current
      have subscribed : w.state ≠ .unsubscribed := by
        rw [of_decide_eq_true running]
        decide
      have exact_ := follows.exact subscribed
      have moved : ofEpoch w.epoch w.deliveryTail = ev :: ofEpoch w.epoch rest := by
        rw [tail, ← singleton_append, ofEpoch_append, ofEpoch_self]
        rfl
      have grown : ofEpoch w.epoch (w.delivered ++ [(ev, w.epoch)]) =
          ofEpoch w.epoch w.delivered ++ [ev] := by
        rw [ofEpoch_append, ofEpoch_self]
      cases taken
      constructor
      · exact follows.positioned
      · intro _
        change ofEpoch w.epoch (w.delivered ++ [(ev, w.epoch)]) ++
          ofEpoch w.epoch rest ++ ofEpoch w.epoch w.buffer ++ w.held = _
        rw [← exact_, grown, BufferedEventWatcher.current, moved]
        simp only [append_assoc, cons_append, nil_append]
      · intro older within
        dsimp only
        rcases Nat.lt_or_eq_of_le within with early | rfl
        · have apart : ofEpoch older [(ev, w.epoch)] = [] := by
            simp [ofEpoch, Nat.ne_of_gt early]
          rw [ofEpoch_append, apart, append_nil]
          exact follows.passed older within
        · rw [grown, ← exact_, BufferedEventWatcher.current, moved]
          refine ⟨ofEpoch w.epoch rest ++ ofEpoch w.epoch w.buffer ++ w.held, ?_⟩
          simp only [append_assoc, cons_append, nil_append]
      · refine ⟨?_, later, buffer⟩
        intro item mem
        rcases mem_append.mp mem with old | new
        · exact delivered item old
        · rw [mem_singleton.mp new]
      · exact unstarted
      · exact follows.started
    · rename_i stale
      have other : w.state ≠ .unsubscribed →
          ofEpoch w.epoch w.deliveryTail = ofEpoch w.epoch rest := by
        intro subscribed
        have apart : epoch ≠ w.epoch := by
          intro same
          apply stale
          have running : w.state = .started := by
            cases s : w.state with
            | buffering =>
              rw [follows.buffering s] at tail
              cases tail
            | started => rfl
            | unsubscribed => exact absurd s subscribed
          rw [running, same]
          simp
        rw [tail]
        simp [ofEpoch, apart]
      cases taken
      refine { follows with exact := ?_, tags := ?_, buffering := ?_ }
      · intro subscribed
        change ofEpoch w.epoch w.delivered ++ ofEpoch w.epoch rest ++
          ofEpoch w.epoch w.buffer ++ w.held = _
        rw [← other subscribed]
        exact follows.exact subscribed
      · exact ⟨delivered, later, buffer⟩
      · exact unstarted
  · cases taken

theorem Follows.settle :
    ({ w with delivering := none } : BufferedEventWatcher α).Follows id done pending :=
  ⟨follows.positioned, follows.exact, follows.passed, follows.tags, follows.buffering,
    follows.started⟩

end

theorem follows_new (filter : HarnessEvent α → Bool) (hasCapture : Bool)
    (unknown : mine filter id done = []) (done_ : barriers id done = 0)
    (pending_ : barriers id pending = 0) : (new filter hasCapture).Follows id done pending := by
  constructor
  · exact ⟨done_, pending_⟩
  · intro _
    change [] = mine filter id (behind id 0 done)
    rw [behind, unknown]
  · intro epoch _
    exact nil_prefix
  · simp [new]
  · intro _
    rfl
  · intro _
    rfl

end

end BufferedEventWatcher

end Trpi.Harness
