import Trpi.Harness.WatchRuns

/-!
# Every run of the event bus

Each event of the bus keeps what ties every handle to the stream, and the stream to what
was emitted. Runs are those whose resnapshots succeed.
-/

namespace Trpi.Harness

open List Option HarnessEventBus

variable {α : Type} {entries : List (Entry α)}

def Entry.handle : Entry α → Option Nat
  | .call _ (.watcher id) _ => some id
  | .barrier id => some id
  | _ => none

structure BusInvariant (bus : HarnessEventBus α) : Prop where
  follows : ∀ (id : Nat) (watcher : BufferedEventWatcher α), bus.watchers[id]? = some watcher →
    watcher.Follows id bus.done bus.pending
  known : ∀ e ∈ bus.done ++ bus.pending, ∀ id, e.handle = some id → id < bus.watchers.length
  registered : ∀ id ∈ bus.watchListeners, id < bus.watchers.length
  order : (bus.done ++ bus.pending).filter Entry.isEmitted = bus.emitted

theorem busInvariant_new : BusInvariant (new : HarnessEventBus α) := by
  constructor
  · intro id w found
    cases found
  · intro e mem
    cases mem
  · intro id mem
    cases mem
  · rfl

theorem barriers_eq_zero {id : Nat}
    (none_ : ∀ e ∈ entries, e ≠ .barrier id) : barriers id entries = 0 := by
  induction entries with
  | nil => rfl
  | cons e rest ih =>
    obtain ⟨here, later⟩ := forall_mem_cons.mp none_
    cases e with
    | call ev recipient reportErrors => exact ih later
    | barrier other =>
      have apart : other ≠ id := fun same => here (congrArg Entry.barrier same)
      rw [barriers, if_neg apart, ih later]
    | clear => exact ih later

theorem mine_eq_nil {filter : HarnessEvent α → Bool} {id : Nat}
    (none_ : ∀ e ∈ entries, e.handle ≠ some id) : mine filter id entries = [] := by
  induction entries with
  | nil => rfl
  | cons e rest ih =>
    obtain ⟨here, later⟩ := forall_mem_cons.mp none_
    cases e with
    | call ev recipient reportErrors =>
      cases recipient with
      | listener other => exact ih later
      | watcher other =>
        have apart : ¬ (other = id ∧ filter ev = true) :=
          fun both => here (congrArg some both.1)
        rw [mine, if_neg apart, ih later]
    | barrier other => exact ih later
    | clear => exact ih later

section

variable {bus : HarnessEventBus α}

variable {ev : HarnessEvent α} {e : Entry α} {next : HarnessEventBus α} {reportErrors : Bool}

theorem mem_bind (mem : e ∈ bus.bind reportErrors ev) :
    ∃ recipient ∈ bus.snapshotRecipients ev, e = .call ev recipient reportErrors := by
  obtain ⟨recipient, inside, same⟩ := mem_map.mp mem
  exact ⟨recipient, inside, same.symm⟩

theorem watcher_of_recipients {id : Nat} (mem : .watcher id ∈ bus.snapshotRecipients ev) :
    id ∈ bus.watchListeners := by
  rcases mem_append.mp mem with listener | w
  · obtain ⟨e, -, other⟩ := mem_map.mp listener
    cases other
  · obtain ⟨other, inside, same⟩ := mem_map.mp w
    cases same
    exact inside

theorem bind_barriers (reportErrors : Bool) (ev : HarnessEvent α) (id : Nat) :
    barriers id (bus.bind reportErrors ev) = 0 := by
  apply barriers_eq_zero
  intro e mem
  obtain ⟨recipient, -, rfl⟩ := mem_bind mem
  simp

theorem bind_known (inv : BusInvariant bus) (mem : e ∈ bus.bind reportErrors ev) {id : Nat}
    (handle : e.handle = some id) : id < bus.watchers.length := by
  obtain ⟨recipient, inside, rfl⟩ := mem_bind mem
  cases recipient with
  | listener other => cases handle
  | watcher other =>
    cases handle
    exact inv.registered id (watcher_of_recipients inside)

theorem bind_emitted (ev : HarnessEvent α) (reportErrors : Bool) :
    (bus.bind reportErrors ev).filter Entry.isEmitted =
      if reportErrors then bus.bind reportErrors ev else [] := by
  cases reportErrors with
  | true =>
    apply filter_eq_self.mpr
    intro e mem
    obtain ⟨recipient, -, rfl⟩ := mem_bind mem
    rfl
  | false =>
    apply filter_eq_nil_iff.mpr
    intro e mem
    obtain ⟨recipient, -, rfl⟩ := mem_bind mem
    exact Bool.false_ne_true

/-- One handle is replaced by one that follows the same stream. -/
theorem BusInvariant.act (inv : BusInvariant bus) {id : Nat} {w acted : BufferedEventWatcher α}
    (found : bus.watchers[id]? = some w) (follows : acted.Follows id bus.done bus.pending) :
    BusInvariant { bus with watchers := bus.watchers.set id acted } := by
  have inside : id < bus.watchers.length := (List.getElem?_eq_some_iff.mp found).1
  constructor
  · intro other after here
    by_cases same : id = other
    · subst same
      rw [getElem?_set_self inside] at here
      exact some.inj here ▸ follows
    · rw [getElem?_set_ne same] at here
      exact inv.follows other after here
  · intro e mem other handle
    rw [length_set]
    exact inv.known e mem other handle
  · intro other mem
    rw [length_set]
    exact inv.registered other mem
  · exact inv.order

theorem onWatcher_eq_some {id : Nat}
    {act : BufferedEventWatcher α → Option (BufferedEventWatcher α)}
    (taken : bus.onWatcher id act = some next) :
    ∃ w acted, bus.watchers[id]? = some w ∧ act w = some acted ∧
      next = { bus with watchers := bus.watchers.set id acted } := by
  unfold onWatcher at taken
  split at taken
  · cases taken
  rename_i w found
  split at taken
  · cases taken
  rename_i acted ok
  exact ⟨w, acted, found, ok, (some.inj taken).symm⟩

section

variable (inv : BusInvariant bus)

include inv

theorem BusInvariant.onWatcher {id : Nat}
    {act : BufferedEventWatcher α → Option (BufferedEventWatcher α)}
    (taken : bus.onWatcher id act = some next)
    (keeps : ∀ w acted, w.Follows id bus.done bus.pending → act w = some acted →
      acted.Follows id bus.done bus.pending) : BusInvariant next := by
  obtain ⟨w, acted, found, ok, rfl⟩ := onWatcher_eq_some taken
  exact inv.act found (keeps w acted (inv.follows id w found) ok)

/-- Calls are added to the tail. -/
theorem BusInvariant.emitBatch (events : List (HarnessEvent α)) :
    BusInvariant (bus.emitBatch events) := by
  unfold HarnessEventBus.emitBatch
  split
  · exact inv
  have none_ : ∀ id, barriers id (events.flatMap (bus.bind true)) = 0 := by
    intro id
    apply barriers_eq_zero
    intro e mem
    obtain ⟨ev, -, inside⟩ := mem_flatMap.mp mem
    obtain ⟨recipient, -, rfl⟩ := mem_bind inside
    simp
  have all : (events.flatMap (bus.bind true)).filter Entry.isEmitted =
      events.flatMap (bus.bind true) := by
    apply filter_eq_self.mpr
    intro e mem
    obtain ⟨ev, -, inside⟩ := mem_flatMap.mp mem
    obtain ⟨recipient, -, rfl⟩ := mem_bind inside
    rfl
  constructor
  · intro id w found
    apply (inv.follows id w found).more
    rw [barriers_append, none_, Nat.add_zero]
  · intro e mem id handle
    rw [← append_assoc] at mem
    rcases mem_append.mp mem with old | new
    · exact inv.known e old id handle
    · obtain ⟨ev, -, inside⟩ := mem_flatMap.mp new
      exact bind_known inv inside handle
  · exact inv.registered
  · rw [← append_assoc, filter_append, inv.order, all]

theorem BusInvariant.mark {id : Nat} (taken : bus.mark id = some next) : BusInvariant next := by
  unfold HarnessEventBus.mark at taken
  split at taken
  · cases taken
  rename_i marked ok
  obtain ⟨w, acted, found, act, rfl⟩ := onWatcher_eq_some ok
  cases taken
  have inside : id < bus.watchers.length := (List.getElem?_eq_some_iff.mp found).1
  have one : ∀ other, barriers other (bus.pending ++ [Entry.barrier id]) =
      barriers other bus.pending + if id = other then 1 else 0 := by
    intro other
    rw [barriers_append, barriers, barriers, Nat.add_zero]
  constructor
  · intro other after here
    change (bus.watchers.set id acted)[other]? = some after at here
    by_cases same : id = other
    · subst same
      rw [getElem?_set_self inside] at here
      cases here
      apply (inv.follows id w found).mark act
      exact (one id).trans (by rw [if_pos rfl])
    · rw [getElem?_set_ne same] at here
      apply (inv.follows other after here).more
      exact (one other).trans (by rw [if_neg same, Nat.add_zero])
  · intro e mem other handle
    change other < (bus.watchers.set id acted).length
    rw [length_set]
    change e ∈ bus.done ++ (bus.pending ++ [Entry.barrier id]) at mem
    rw [← append_assoc] at mem
    rcases mem_append.mp mem with old | new
    · exact inv.known e old other handle
    · rw [mem_singleton.mp new] at handle
      cases handle
      exact inside
  · intro other mem
    change other < (bus.watchers.set id acted).length
    rw [length_set]
    exact inv.registered other mem
  · change (bus.done ++ (bus.pending ++ [Entry.barrier id])).filter Entry.isEmitted =
      bus.emitted ++ [.barrier id]
    rw [← append_assoc, filter_append, inv.order]
    rfl

theorem BusInvariant.watch {filter : HarnessEvent α → Bool}
    {hasCapture : Bool} (taken : bus.watch filter hasCapture = some next) : BusInvariant next := by
  unfold HarnessEventBus.watch at taken
  split at taken
  · cases taken
  cases taken
  have unknown : ∀ e ∈ bus.done ++ bus.pending, e.handle ≠ some bus.watchers.length :=
    fun e mem handle => Nat.lt_irrefl _ (inv.known e mem _ handle)
  have unmarked : ∀ entries : List (Entry α),
      (∀ e ∈ entries, e ∈ bus.done ++ bus.pending) → barriers bus.watchers.length entries = 0 := by
    intro entries part
    apply barriers_eq_zero
    intro e mem same
    exact unknown e (part e mem) (by rw [same]; rfl)
  constructor
  · intro id w found
    change (bus.watchers ++ [BufferedEventWatcher.new filter hasCapture])[id]? = some w at found
    rw [getElem?_append] at found
    split at found
    · exact inv.follows id w found
    · have bound := (List.getElem?_eq_some_iff.mp found).1
      rw [length_singleton] at bound
      rw [show id - bus.watchers.length = 0 by omega] at found
      cases found
      obtain rfl : id = bus.watchers.length := by omega
      apply BufferedEventWatcher.follows_new
      · exact mine_eq_nil fun e mem => unknown e (mem_append_left _ mem)
      · exact unmarked _ fun e mem => mem_append_left _ mem
      · exact unmarked _ fun e mem => mem_append_right _ mem
  · intro e mem id handle
    rw [length_append, length_singleton]
    exact Nat.lt_succ_of_lt (inv.known e mem id handle)
  · intro id mem
    rw [length_append, length_singleton]
    rcases mem_append.mp mem with old | new
    · exact Nat.lt_succ_of_lt (inv.registered id old)
    · rw [mem_singleton.mp new]
      exact Nat.lt_succ_self _
  · exact inv.order

theorem BusInvariant.unsubscribe {id : Nat}
    (taken : bus.unsubscribe id = some next) : BusInvariant next := by
  unfold HarnessEventBus.unsubscribe at taken
  split at taken
  · cases taken
  rename_i unsubscribed ok
  obtain ⟨w, acted, found, act, rfl⟩ := onWatcher_eq_some ok
  cases act
  cases taken
  have acted := inv.act found (inv.follows id w found).unsubscribe
  refine { acted with registered := ?_ }
  · intro other mem
    exact acted.registered other (mem_of_mem_erase mem)

theorem BusInvariant.settle {id : Nat}
    {failure : Option HandlerFailure} (taken : bus.settle id failure = some next) :
    BusInvariant next := by
  unfold HarnessEventBus.settle at taken
  split at taken
  · cases taken
  rename_i w found
  split at taken
  · cases taken
  have acted := inv.act found (inv.follows id w found).settle
  split at taken
  · exact some.inj taken ▸ acted
  split at taken
  · exact some.inj taken ▸ acted
  · exact some.inj taken ▸ acted.emitBatch _

theorem BusInvariant.close : BusInvariant bus.close := by
  constructor
  · intro id w found
    apply (inv.follows id w found).more
    change barriers id (bus.pending ++ [Entry.clear]) = _
    rw [barriers_append]
    rfl
  · intro e mem id handle
    change e ∈ bus.done ++ (bus.pending ++ [Entry.clear]) at mem
    rw [← append_assoc] at mem
    rcases mem_append.mp mem with old | new
    · exact inv.known e old id handle
    · rw [mem_singleton.mp new] at handle
      cases handle
  · exact inv.registered
  · change (bus.done ++ (bus.pending ++ [Entry.clear])).filter Entry.isEmitted = bus.emitted
    rw [← append_assoc, filter_append, inv.order]
    exact append_nil _

theorem BusInvariant.pass {rest added : List (Entry α)}
    (pending : bus.pending = e :: rest) {watchers : List (BufferedEventWatcher α)}
    (length : watchers.length = bus.watchers.length)
    (follows : ∀ (id : Nat) (w : BufferedEventWatcher α), watchers[id]? = some w →
      w.Follows id (bus.done ++ [e]) rest) (quiet : ∀ id, barriers id added = 0)
    (known : ∀ e ∈ added, ∀ id, e.handle = some id → id < bus.watchers.length)
    (reported : added.filter Entry.isEmitted = []) :
    BusInvariant { bus with
      watchers := watchers
      done := bus.done ++ [e]
      pending := added ++ rest } := by
  constructor
  · intro id w found
    apply (follows id w found).more
    rw [barriers_append, quiet, Nat.zero_add]
  · intro other mem id handle
    change id < watchers.length
    rw [length]
    simp only [mem_append, mem_singleton] at mem
    rcases mem with (old | rfl) | (new | later)
    · exact inv.known other (mem_append_left _ old) id handle
    · apply inv.known other _ id handle
      rw [pending]
      exact mem_append_right _ mem_cons_self
    · exact known other new id handle
    · apply inv.known other _ id handle
      rw [pending]
      exact mem_append_right _ (mem_cons_of_mem _ later)
  · intro id mem
    change id < watchers.length
    rw [length]
    exact inv.registered id mem
  · have order := inv.order
    rw [pending, ← singleton_append, ← append_assoc, filter_append] at order
    change (bus.done ++ [e] ++ (added ++ rest)).filter Entry.isEmitted = bus.emitted
    have later : (added ++ rest).filter Entry.isEmitted = rest.filter Entry.isEmitted := by
      rw [filter_append, reported, nil_append]
    rw [filter_append, later]
    exact order

end

theorem follows_modify {rest : List (Entry α)} {id : Nat}
    {act : BufferedEventWatcher α → BufferedEventWatcher α}
    (follows : ∀ (other : Nat) (w : BufferedEventWatcher α),
      bus.watchers[other]? = some w → w.Follows other bus.done (e :: rest))
    (own : ∀ w : BufferedEventWatcher α, w.Follows id bus.done (e :: rest) →
      (act w).Follows id (bus.done ++ [e]) rest)
    (plain : ∀ other, id ≠ other → barriers other [e] = 0)
    (quiet : ∀ filter other, id ≠ other → mine filter other [e] = []) (other : Nat)
    (w : BufferedEventWatcher α)
    (found : (bus.watchers.modify id act)[other]? = some w) :
    w.Follows other (bus.done ++ [e]) rest := by
  rw [getElem?_modify] at found
  obtain ⟨before, here, rfl⟩ := map_eq_some_iff.mp found
  have old := follows other before here
  by_cases same : id = other
  · subst same
    rw [if_pos rfl]
    exact own before old
  · rw [if_neg same]
    exact old.skip (quiet before.filter other same) (plain other same)

theorem BusInvariant.process (inv : BusInvariant bus) {failure : Option HandlerFailure}
    (taken : bus.process failure = some next) : BusInvariant next := by
  unfold HarnessEventBus.process at taken
  split at taken
  · cases taken
  rename_i e rest pending
  cases taken
  have follows : ∀ (id : Nat) (watcher : BufferedEventWatcher α), bus.watchers[id]? = some watcher →
      watcher.Follows id bus.done (e :: rest) := by
    intro id watcher found
    rw [← pending]
    exact inv.follows id watcher found
  have nothing : ∀ other ∈ ([] : List (Entry α)), ∀ id, other.handle = some id →
      id < bus.watchers.length := by
    intro other mem
    cases mem
  cases e with
  | call ev recipient reportErrors =>
    cases recipient with
    | watcher id =>
      apply inv.pass pending (length_modify _ _ _) _ (fun _ => rfl) nothing rfl
      apply follows_modify follows
      · intro watcher old
        split
        · rename_i wanted
          exact old.take (by rw [mine, if_pos ⟨rfl, wanted⟩, mine]) rfl
        · rename_i unwanted
          exact old.skip (by rw [mine, if_neg fun both => unwanted both.2, mine]) rfl
      · intro other _
        rfl
      · intro filter other apart
        rw [mine, if_neg fun both => apart both.1, mine]
    | listener id =>
      have skipped : ∀ (other : Nat) (watcher : BufferedEventWatcher α),
          bus.watchers[other]? = some watcher →
          watcher.Follows other (bus.done ++ [.call ev (.listener id) reportErrors]) rest :=
        fun other watcher found => (follows other watcher found).skip rfl rfl
      have unreported := inv.pass pending rfl skipped (fun _ => rfl) nothing rfl
      cases failure with
      | none => exact unreported
      | some error =>
        rw [run]
        dsimp only
        split
        · exact unreported
        · -- the report goes in front of what is still to be delivered
          apply inv.pass pending rfl skipped
          · intro other
            exact bind_barriers false _ other
          · intro e mem other handle
            exact bind_known inv mem handle
          · exact bind_emitted _ false
  | barrier id =>
    apply inv.pass pending (length_modify _ _ _) _ (fun _ => rfl) nothing rfl
    apply follows_modify follows
    · intro watcher old
      exact old.boundary
    · intro other apart
      rw [barriers, if_neg apart, barriers]
    · intro filter other _
      rfl
  | clear =>
    have passed := inv.pass pending rfl
      (fun id watcher found => (follows id watcher found).skip rfl rfl) (fun _ => rfl) nothing rfl
    refine { passed with registered := ?_ }
    · intro id mem
      cases mem

end

end Trpi.Harness
