import Mathlib.Data.List.Nodup
import Trpi.Chord.Services.InstanceTasks

/-!
# Runs of an instance directory

The tasks that are not cancelled are those in the observers' maps, and these are for entries
of the directory. What a ready directory has yet to start is ahead of some loop that is under
way, so at the end of all calls nothing is missing.
-/

namespace Trpi.Chord.Services

open Library List

open Option hiding any_eq_true

variable {α : Type}

/-- What a loop has yet to start. -/
def DirectoryFrame.Covers (id : Nat) (item : Nat × DirectoryEntry α) : DirectoryFrame α → Prop
  | .startAll e next => e = item.2 ∧ next ≤ id
  | .ready next => next ≤ item.1
  | .observe observer next => observer = id ∧ next ≤ item.1
  | .handler => False

namespace TaskDirectory

/-- The entries of the map, each key once and in the order of their places. -/
structure Mapped (d : TaskDirectory α) : Prop where
  places : ∀ item ∈ d.entries, item.1 < d.places
  sorted : d.entries.Pairwise fun first second => first.1 < second.1
  keys : (d.entries.map fun item => item.2.key).Nodup

/-- Tasks and observers know each other. -/
structure Tracked (d : TaskDirectory α) : Prop where
  single : ∀ (id : Nat) (observer : Observer α), d.observers[id]? = some observer →
    (observer.tasks.map (·.1)).Nodup
  closed : ∀ (id : Nat) (observer : Observer α), d.observers[id]? = some observer →
    observer.closed = true → observer.tasks = []
  held : ∀ (number : Nat) (task : ObserverTask α), d.tasks[number]? = some task →
    task.cancelled = false → ∃ observer : Observer α,
      d.observers[task.observer]? = some observer ∧ (task.entry, number) ∈ observer.tasks
  known : ∀ (id : Nat) (observer : Observer α), d.observers[id]? = some observer →
    ∀ (entry : DirectoryEntry α) (number : Nat), (entry, number) ∈ observer.tasks →
      d.tasks[number]? = some { observer := id, entry, cancelled := false }
  live : ∀ (id : Nat) (observer : Observer α), d.observers[id]? = some observer →
    ∀ item ∈ observer.tasks, item.1 ∈ d.entries.map (·.2)

/-- Nothing is missing but what is still ahead of a loop. -/
def Complete (d : TaskDirectory α) : Prop :=
  d.ready = true → ∀ (id : Nat) (observer : Observer α),
    d.observers[id]? = some observer → observer.closed = false → ∀ item ∈ d.entries,
      item.2 ∈ observer.tasks.map (·.1) ∨ ∃ frame ∈ d.frames, frame.Covers id item

structure Invariant (d : TaskDirectory α) : Prop where
  mapped : d.Mapped
  tracked : d.Tracked
  complete : d.Complete

theorem invariant_create (ready : Bool) : (create ready : TaskDirectory α).Invariant := by
  refine ⟨⟨?_, .nil, nodup_nil⟩, ⟨?_, ?_, ?_, ?_, ?_⟩, ?_⟩
  · intro item mem
    cases mem
  · intro id observer found
    cases found
  · intro id observer found
    cases found
  · intro number task found
    cases found
  · intro id observer found
    cases found
  · intro id observer found
    cases found
  · intro _ id observer found
    cases found

section

variable {d : TaskDirectory α} {e : DirectoryEntry α} {key : String}

theorem get_mem (found : d.get key = some e) : e ∈ d.entries.map (·.2) ∧ e.key = key := by
  obtain ⟨item, here, rfl⟩ := map_eq_some_iff.mp found
  have named := find?_some here
  exact ⟨mem_map_of_mem (mem_of_find?_eq_some here), of_decide_eq_true named⟩

theorem get_none (absent : d.get key = none) : ∀ item ∈ d.entries, item.2.key ≠ key := by
  intro item mem same
  rw [get, map_eq_none_iff, find?_eq_none] at absent
  exact absent item mem (decide_eq_true same)

theorem Mapped.same (mapped : d.Mapped) {first second : Nat × DirectoryEntry α}
    (here : first ∈ d.entries) (there : second ∈ d.entries)
    (key : first.2.key = second.2.key) : first = second :=
  inj_on_of_nodup_map mapped.keys here there key

theorem Mapped.set (mapped : d.Mapped) (absent : d.get e.key = none) : (d.set e).Mapped := by
  refine ⟨?_, ?_, ?_⟩
  · intro item mem
    rcases mem_append.mp mem with old | new
    · exact Nat.lt_succ_of_lt (mapped.places item old)
    · rw [mem_singleton.mp new]
      exact Nat.lt_succ_self _
  · refine pairwise_append.mpr ⟨mapped.sorted, pairwise_singleton _ _, ?_⟩
    intro item old last new
    rw [mem_singleton.mp new]
    exact mapped.places item old
  · change ((d.entries ++ [_]).map _).Nodup
    rw [map_append, nodup_append]
    refine ⟨mapped.keys, nodup_singleton _, ?_⟩
    intro key old last new
    obtain ⟨item, mem, rfl⟩ := mem_map.mp old
    rw [mem_singleton.mp new]
    exact get_none absent item mem

theorem Mapped.sublist {next : TaskDirectory α} (mapped : d.Mapped)
    (fewer : next.entries.Sublist d.entries) (places : next.places = d.places) :
    next.Mapped :=
  ⟨fun item mem => places ▸ mapped.places item (fewer.subset mem),
    mapped.sorted.sublist fewer, mapped.keys.sublist (fewer.map _)⟩

end

section

variable {d next : TaskDirectory α} {observers : List (Observer α)} {ids : List Nat} {id : Nat}

theorem cancel_tasks (d : TaskDirectory α) (ids : List Nat) (number : Nat) :
    (d.cancel ids).tasks[number]? = d.tasks[number]?.map fun task =>
      if number ∈ ids then { task with cancelled := true } else task :=
  getElem?_mapIdx

/-- Observers forget tasks, just those that are cancelled. -/
structure Drops (d : TaskDirectory α) (observers : List (Observer α)) (ids : List Nat) : Prop where
  fewer : ∀ (id : Nat) (after : Observer α), observers[id]? = some after → ∃ before : Observer α,
    d.observers[id]? = some before ∧ after.tasks.Sublist before.tasks ∧
      (after.closed = true → after.tasks = []) ∧ (after.closed = false → before.closed = false)
  dropped : ∀ (id : Nat) (after : Observer α), observers[id]? = some after →
    ∀ (e : DirectoryEntry α) (number : Nat), (e, number) ∈ after.tasks → number ∉ ids
  kept : ∀ (id : Nat) (before : Observer α), d.observers[id]? = some before →
    ∀ (e : DirectoryEntry α) (number : Nat), (e, number) ∈ before.tasks → number ∉ ids →
      ∃ after : Observer α, observers[id]? = some after ∧ (e, number) ∈ after.tasks

theorem Tracked.drop (tracked : d.Tracked)
    (drops : Drops d observers ids)
    (same : next.observers = observers) (cancelled : next.tasks = (d.cancel ids).tasks)
    (live : ∀ (id : Nat) (after : Observer α), observers[id]? = some after → ∀ item ∈ after.tasks,
      item.1 ∈ next.entries.map (·.2)) : next.Tracked := by
  subst same
  constructor
  · intro id after found
    obtain ⟨before, here, fewer, -⟩ := drops.fewer id after found
    exact (tracked.single id before here).sublist (fewer.map _)
  · intro id after found closed
    obtain ⟨before, here, -, empty, -⟩ := drops.fewer id after found
    exact empty closed
  · intro number task found active
    rw [cancelled, cancel_tasks] at found
    obtain ⟨old, here, rfl⟩ := map_eq_some_iff.mp found
    by_cases ends : number ∈ ids
    · rw [if_pos ends] at active
      cases active
    · rw [if_neg ends] at active ⊢
      obtain ⟨before, there, mem⟩ := tracked.held number old here active
      exact drops.kept _ before there _ number mem ends
  · intro id after found e number mem
    obtain ⟨before, here, fewer, -⟩ := drops.fewer id after found
    rw [cancelled, cancel_tasks, tracked.known id before here e number (fewer.subset mem), map_some,
      if_neg (drops.dropped id after found e number mem)]
  · exact live

theorem Complete.drop (complete : d.Complete)
    (drops : Drops d observers ids) (same : next.observers = observers)
    (ready : next.ready = true → d.ready = true) (frames : next.frames = d.frames)
    (entries : ∀ item ∈ next.entries, item ∈ d.entries)
    (foreign : ∀ (id : Nat) (before : Observer α), d.observers[id]? = some before →
      before.closed = false →
      ∀ after : Observer α, observers[id]? = some after → after.closed = false →
      ∀ item ∈ next.entries, ∀ number, (item.2, number) ∈ before.tasks → number ∉ ids) :
    next.Complete := by
  subst same
  intro started id after found opened item mem
  obtain ⟨before, here, -, -, open_⟩ := drops.fewer id after found
  rcases complete (ready started) id before here (open_ opened) item (entries item mem) with
    has | ahead
  · obtain ⟨task, inside, same⟩ := mem_map.mp has
    obtain ⟨e, number⟩ := task
    obtain rfl : e = item.2 := same
    have survives :=
      foreign id before here (open_ opened) after found opened item mem number inside
    obtain ⟨other, there, kept⟩ := drops.kept id before here item.2 number inside survives
    rw [found] at there
    cases there
    exact .inl (mem_map_of_mem kept)
  · rw [frames]
    exact .inr ahead

theorem Tracked.unique (tracked : d.Tracked) {first second : Nat}
    {one other : Observer α} {e e' : DirectoryEntry α} {number : Nat}
    (here : d.observers[first]? = some one) (mem : (e, number) ∈ one.tasks)
    (there : d.observers[second]? = some other) (mem' : (e', number) ∈ other.tasks) :
    first = second ∧ e = e' := by
  have known := tracked.known first one here e number mem
  rw [tracked.known second other there e' number mem'] at known
  injection known with same
  injection same with observer e
  exact ⟨observer.symm, e.symm⟩

theorem Tracked.close (tracked : d.Tracked) {observer : Observer α}
    (found : d.observers[id]? = some observer) :
    Drops d (d.observers.set id { tasks := [], closed := true }) (observer.tasks.map (·.2)) := by
  have inside : id < d.observers.length := (List.getElem?_eq_some_iff.mp found).1
  constructor
  · intro other after here
    by_cases same : id = other
    · subst same
      rw [getElem?_set_self inside] at here
      cases here
      exact ⟨observer, found, nil_sublist _, fun _ => rfl, fun opened => by cases opened⟩
    · rw [getElem?_set_ne same] at here
      exact ⟨after, here, List.Sublist.refl _, tracked.closed other after here,
        fun opened => opened⟩
  · intro other after here e number mem ends
    by_cases same : id = other
    · subst same
      rw [getElem?_set_self inside] at here
      cases here
      cases mem
    · rw [getElem?_set_ne same] at here
      obtain ⟨task, own, rfl⟩ := mem_map.mp ends
      exact same (tracked.unique found own here mem).1
  · intro other before here e number mem survives
    by_cases same : id = other
    · subst same
      rw [found] at here
      cases here
      exact absurd (mem_map_of_mem mem) survives
    · exact ⟨before, by rw [getElem?_set_ne same, here], mem⟩

theorem Invariant.close (inv : d.Invariant) (id : Nat) : (d.close id).Invariant := by
  unfold TaskDirectory.close
  split
  · exact inv
  rename_i observer found
  split
  · exact inv
  have drops := inv.tracked.close found
  refine ⟨inv.mapped.sublist (List.Sublist.refl _) rfl, ?_, ?_⟩
  · refine inv.tracked.drop drops rfl rfl ?_
    intro other after here item mem
    obtain ⟨before, there, fewer, -⟩ := drops.fewer other after here
    exact inv.tracked.live other before there item (fewer.subset mem)
  · refine inv.complete.drop drops rfl (fun ready => ready) rfl (fun _ mem => mem) ?_
    intro other before here opened after there still item mem number task ends
    obtain ⟨own, inside, rfl⟩ := mem_map.mp ends
    obtain ⟨rfl, -⟩ := inv.tracked.unique found inside here task
    rw [List.getElem?_set_self (List.getElem?_eq_some_iff.mp found).1] at there
    cases there
    cases still

section

variable [DecidableEq α] {e : DirectoryEntry α} {observer : Observer α}

theorem mem_numbersFor {number : Nat}
    (mem : number ∈ observer.numbersFor e) : (e, number) ∈ observer.tasks := by
  unfold Observer.numbersFor at mem
  split at mem
  · cases mem
  · obtain ⟨task, inside, rfl⟩ := mem_map.mp mem
    obtain ⟨here, same⟩ := mem_filter.mp inside
    obtain rfl := of_decide_eq_true same
    exact here

theorem mem_without {task : DirectoryEntry α × Nat}
    (closed : observer.closed = true → observer.tasks = []) :
    task ∈ (observer.without e).tasks ↔ task ∈ observer.tasks ∧ task.1 ≠ e := by
  unfold Observer.without
  split
  · rename_i gone
    rw [closed gone]
    simp
  · simp [mem_filter]

theorem without_closed (observer : Observer α) : (observer.without e).closed = observer.closed := by
  unfold Observer.without
  split
  · rfl
  · rfl

theorem without_sublist (observer : Observer α) :
    (observer.without e).tasks.Sublist observer.tasks := by
  unfold Observer.without
  split
  · exact List.Sublist.refl _
  · exact filter_sublist

theorem Tracked.forget (tracked : d.Tracked) (e : DirectoryEntry α) :
    Drops d (d.observers.map (·.without e)) (d.observers.flatMap (·.numbersFor e)) := by
  -- a task that ends is one for the entry
  have ended : ∀ number, number ∈ d.observers.flatMap (·.numbersFor e) →
      ∃ (id : Nat) (observer : Observer α), d.observers[id]? = some observer ∧
        (e, number) ∈ observer.tasks := by
    intro number ends
    obtain ⟨observer, mem, own⟩ := mem_flatMap.mp ends
    obtain ⟨id, found⟩ := getElem?_of_mem mem
    exact ⟨id, observer, found, mem_numbersFor own⟩
  constructor
  · intro id after found
    rw [getElem?_map] at found
    obtain ⟨before, here, rfl⟩ := map_eq_some_iff.mp found
    refine ⟨before, here, without_sublist before, ?_, ?_⟩
    · rw [without_closed]
      intro closed
      exact sublist_nil.mp (tracked.closed id before here closed ▸ without_sublist before)
    · rw [without_closed]
      exact fun opened => opened
  · intro id after found other number mem ends
    rw [getElem?_map] at found
    obtain ⟨before, here, rfl⟩ := map_eq_some_iff.mp found
    obtain ⟨inside, apart⟩ := (mem_without (tracked.closed id before here)).mp mem
    obtain ⟨holder, observer, there, own⟩ := ended number ends
    exact apart (tracked.unique there own here inside).2.symm
  · intro id before here other number mem survives
    refine ⟨before.without e, ?_, (mem_without (tracked.closed id before here)).mpr ⟨mem, ?_⟩⟩
    · rw [getElem?_map, here]
      rfl
    · rintro rfl
      apply survives
      refine mem_flatMap.mpr ⟨before, mem_of_getElem? here, ?_⟩
      unfold Observer.numbersFor
      split
      · rename_i closed
        rw [tracked.closed id before here closed] at mem
        cases mem
      · exact mem_map_of_mem (mem_filter.mpr ⟨mem, decide_eq_true rfl⟩)

theorem Invariant.remove (inv : d.Invariant) (e : DirectoryEntry α) : (d.remove e).Invariant := by
  unfold TaskDirectory.remove
  split
  · rename_i found
    have drops := inv.tracked.forget e
    have remains : ∀ item ∈ d.entries, item.2 ≠ e → item ∈ (d.delete e.key).entries := by
      intro item mem apart
      refine mem_filter.mpr ⟨mem, decide_eq_true ?_⟩
      intro key
      obtain ⟨own, here, rfl⟩ := mem_map.mp (get_mem found).1
      exact apart (congrArg Prod.snd (inv.mapped.same mem here key))
    refine ⟨inv.mapped.sublist filter_sublist rfl, ?_, ?_⟩
    · refine inv.tracked.drop drops rfl rfl ?_
      intro id after here item mem
      rw [getElem?_map] at here
      obtain ⟨before, there, rfl⟩ := map_eq_some_iff.mp here
      obtain ⟨inside, apart⟩ :=
        (mem_without (inv.tracked.closed id before there)).mp mem
      obtain ⟨other, kept, same⟩ :=
        mem_map.mp (inv.tracked.live id before there item inside)
      rw [← same] at apart ⊢
      exact mem_map_of_mem (remains other kept apart)
    · refine inv.complete.drop drops rfl (fun ready => ready) rfl
        (fun item mem => (mem_filter.mp mem).1) ?_
      intro id before here opened after there still item mem number task ends
      obtain ⟨observer, inside, own⟩ := mem_flatMap.mp ends
      obtain ⟨holder, place⟩ := getElem?_of_mem inside
      obtain ⟨-, rfl⟩ := inv.tracked.unique here task place (mem_numbersFor own)
      exact of_decide_eq_true (mem_filter.mp mem).2 rfl
  · exact inv

theorem get_remove {key : String} {previous : DirectoryEntry α}
    (found : d.get key = some previous) : (d.remove previous).get key = none := by
  obtain ⟨-, rfl⟩ := get_mem found
  unfold TaskDirectory.remove
  rw [if_pos found, get, map_eq_none_iff, find?_eq_none]
  intro item mem same
  exact of_decide_eq_true (mem_filter.mp mem).2 (of_decide_eq_true same)

end

theorem startAll_frame (d : TaskDirectory α) (e : DirectoryEntry α) :
    (d.startAll e).entries = d.entries ∧
      (d.startAll e).places = d.places ∧
      (d.startAll e).observers = d.observers ∧
      (d.startAll e).tasks = d.tasks ∧ (d.startAll e).ready = d.ready := by
  unfold startAll
  split <;> exact ⟨rfl, rfl, rfl, rfl, rfl⟩

theorem Tracked.more (tracked : d.Tracked)
    (observers : next.observers = d.observers) (tasks : next.tasks = d.tasks)
    (entries : ∀ item ∈ d.entries, item ∈ next.entries) : next.Tracked := by
  constructor
  · rw [observers]
    exact tracked.single
  · rw [observers]
    exact tracked.closed
  · rw [tasks, observers]
    exact tracked.held
  · rw [observers, tasks]
    exact tracked.known
  · rw [observers]
    intro id observer found item mem
    obtain ⟨other, inside, same⟩ := mem_map.mp (tracked.live id observer found item mem)
    exact mem_map.mpr ⟨other, entries other inside, same⟩

theorem Invariant.insert (inv : d.Invariant) {e : DirectoryEntry α}
    (absent : d.get e.key = none) : ((d.set e).startAll e).Invariant := by
  obtain ⟨entries, places, observers, tasks, ready⟩ := startAll_frame (d.set e) e
  refine ⟨?_, ?_, ?_⟩
  · exact (inv.mapped.set absent).sublist (entries ▸ List.Sublist.refl _) places
  · apply inv.tracked.more observers tasks
    rw [entries]
    exact fun item mem => mem_append_left _ mem
  · rw [Complete, ready, observers, entries]
    intro started id observer found opened item mem
    have pushed : ((d.set e).startAll e).frames = .startAll e 0 :: d.frames := by
      rw [startAll, if_pos started]
      rfl
    rw [pushed]
    rcases mem_append.mp mem with old | new
    · rcases inv.complete started id observer found opened item old with
        has | ⟨frame, inside, covers⟩
      · exact .inl has
      · exact .inr ⟨frame, mem_cons_of_mem _ inside, covers⟩
    · obtain rfl := mem_singleton.mp new
      exact .inr ⟨_, mem_cons_self, rfl, Nat.zero_le _⟩

theorem Invariant.ready (inv : d.Invariant) :
    ({ d with ready := true }.push (.ready 0)).Invariant := by
  refine ⟨inv.mapped.sublist (List.Sublist.refl _) rfl,
    inv.tracked.more rfl rfl fun _ mem => mem, ?_⟩
  intro _ id observer found opened item mem
  exact .inr ⟨_, mem_cons_self, Nat.zero_le _⟩

theorem getElem?_concat {new after : Observer α} (found : (observers ++ [new])[id]? = some after) :
    observers[id]? = some after ∨ (id = observers.length ∧ after = new) := by
  rw [getElem?_append] at found
  split at found
  · exact .inl found
  · have inside := (List.getElem?_eq_some_iff.mp found).1
    rw [length_singleton] at inside
    rw [show id - observers.length = 0 by omega] at found
    exact .inr ⟨by omega, (some.inj found).symm⟩

theorem Tracked.observe (tracked : d.Tracked)
    (observers : next.observers = d.observers ++ [{ tasks := [], closed := false }])
    (tasks : next.tasks = d.tasks) (entries : next.entries = d.entries) :
    next.Tracked := by
  constructor
  · rw [observers]
    intro id observer found
    rcases getElem?_concat found with old | ⟨-, rfl⟩
    · exact tracked.single id observer old
    · exact nodup_nil
  · rw [observers]
    intro id observer found closed
    rcases getElem?_concat found with old | ⟨-, rfl⟩
    · exact tracked.closed id observer old closed
    · rfl
  · rw [tasks, observers]
    intro number task found active
    obtain ⟨observer, here, mem⟩ := tracked.held number task found active
    refine ⟨observer, ?_, mem⟩
    rw [List.getElem?_append_left (List.getElem?_eq_some_iff.mp here).1, here]
  · rw [observers, tasks]
    intro id observer found e number mem
    rcases getElem?_concat found with old | ⟨-, rfl⟩
    · exact tracked.known id observer old e number mem
    · cases mem
  · rw [observers, entries]
    intro id observer found item mem
    rcases getElem?_concat found with old | ⟨-, rfl⟩
    · exact tracked.live id observer old item mem
    · cases mem

theorem Invariant.observe (inv : d.Invariant)
    (observers : next.observers = d.observers ++ [{ tasks := [], closed := false }])
    (tasks : next.tasks = d.tasks) (entries : next.entries = d.entries)
    (places : next.places = d.places) (ready : next.ready = d.ready)
    (frames : ∀ frame ∈ d.frames, frame ∈ next.frames)
    (loop : d.ready = true → .observe d.observers.length 0 ∈ next.frames) :
    next.Invariant := by
  refine ⟨inv.mapped.sublist (entries ▸ List.Sublist.refl _) places,
    inv.tracked.observe observers tasks entries, ?_⟩
  rw [Complete, ready, observers, entries]
  intro started id observer found opened item mem
  rcases getElem?_concat found with old | ⟨rfl, rfl⟩
  · rcases inv.complete started id observer old opened item mem with
      has | ⟨frame, inside, covers⟩
    · exact .inl has
    · exact .inr ⟨frame, frames frame inside, covers⟩
  · exact .inr ⟨_, loop started, rfl, Nat.zero_le _⟩

theorem nextObserver_some {next : Nat} (found : d.nextObserver next = some id) :
    ∀ (other : Nat) (observer : Observer α), d.observers[other]? = some observer →
      observer.closed = false → next ≤ other → id ≤ other := by
  obtain ⟨-, -, earlier⟩ := find?_range_eq_some.mp found
  intro other observer here opened ahead
  by_contra before
  have skipped := earlier other (Nat.lt_of_not_le before)
  rw [here] at skipped
  simp [ahead, opened] at skipped

theorem nextObserver_none {next : Nat} (ended : d.nextObserver next = none) :
    ∀ (other : Nat) (observer : Observer α), d.observers[other]? = some observer →
      observer.closed = false → ¬ next ≤ other := by
  intro other observer here opened ahead
  have skipped := List.find?_range_eq_none.mp ended other (List.getElem?_eq_some_iff.mp here).1
  rw [here] at skipped
  simp [ahead, opened] at skipped

theorem Mapped.nextEntry_some (mapped : d.Mapped) {next : Nat}
    {found : Nat × DirectoryEntry α} (here : d.nextEntry next = some found) :
    found ∈ d.entries ∧ ∀ item ∈ d.entries, next ≤ item.1 → item = found ∨ found.1 < item.1 := by
  refine ⟨mem_of_find?_eq_some here, ?_⟩
  obtain ⟨-, before, after, split_, earlier⟩ := find?_eq_some_iff_append.mp here
  intro item mem ahead
  have sorted := mapped.sorted
  rw [split_] at mem sorted
  rcases mem_append.mp mem with first | later
  · have skipped := earlier item first
    simp [ahead] at skipped
  · rcases mem_cons.mp later with same | later
    · exact .inl same
    · exact .inr ((pairwise_cons.mp (pairwise_append.mp sorted).2.1).1 item later)

theorem nextEntry_none {next : Nat} (ended : d.nextEntry next = none) :
    ∀ item ∈ d.entries, ¬ next ≤ item.1 := by
  intro item mem ahead
  have skipped := find?_eq_none.mp ended item mem
  exact skipped (decide_eq_true ahead)

theorem Complete.loop (complete : d.Complete) {old : DirectoryFrame α}
    {rest frames : List (DirectoryFrame α)} (before : d.frames = old :: rest)
    (outer : ∀ frame ∈ rest, frame ∈ frames)
    (covers : ∀ (other : Nat) (observer : Observer α), d.observers[other]? = some observer →
      observer.closed = false → ∀ item ∈ d.entries, old.Covers other item →
        ∃ frame ∈ frames, frame.Covers other item) :
    ({ d with frames := frames } : TaskDirectory α).Complete := by
  intro started other observer found opened item mem
  rcases complete started other observer found opened item mem with has | ⟨loop, inside, ahead⟩
  · exact .inl has
  · rw [before] at inside
    rcases mem_cons.mp inside with rfl | further
    · exact .inr (covers other observer found opened item mem ahead)
    · exact .inr ⟨loop, outer loop further, ahead⟩

section

variable [DecidableEq α] {e : DirectoryEntry α} {id : Nat}

/-- What `#start` leaves, and what it adds. -/
structure Starts (d next : TaskDirectory α) (id : Nat) (e : DirectoryEntry α) : Prop where
  entries : next.entries = d.entries
  places : next.places = d.places
  ready : next.ready = d.ready
  frames : ∀ frame ∈ d.frames, frame ∈ next.frames
  observers : ∀ (other : Nat) (after : Observer α), next.observers[other]? = some after →
    ∃ before : Observer α, d.observers[other]? = some before ∧
      after.closed = before.closed ∧ (∀ task ∈ before.tasks, task ∈ after.tasks) ∧
      (other = id → before.closed = false → e ∈ after.tasks.map (·.1))

theorem starts (d : TaskDirectory α) (id : Nat) (e : DirectoryEntry α) :
    Starts d (d.start id e) id e := by
  unfold TaskDirectory.start
  split
  · rename_i absent
    refine ⟨rfl, rfl, rfl, fun _ mem => mem, ?_⟩
    intro other after found
    refine ⟨after, found, rfl, fun _ mem => mem, ?_⟩
    rintro rfl
    rw [absent] at found
    cases found
  rename_i observer here
  split
  · rename_i idle
    refine ⟨rfl, rfl, rfl, fun _ mem => mem, ?_⟩
    intro other after found
    refine ⟨after, found, rfl, fun _ mem => mem, ?_⟩
    rintro rfl opened
    rw [here] at found
    cases found
    rw [opened, Bool.false_or, any_eq_true] at idle
    obtain ⟨task, mem, same⟩ := idle
    exact mem_map.mpr ⟨task, mem, of_decide_eq_true same⟩
  · refine ⟨rfl, rfl, rfl, fun _ mem => mem_cons_of_mem _ mem, ?_⟩
    intro other after found
    have inside := (List.getElem?_eq_some_iff.mp here).1
    by_cases same : id = other
    · subst same
      change (d.observers.set id _)[id]? = _ at found
      rw [getElem?_set_self inside] at found
      cases found
      refine ⟨observer, here, rfl, fun task mem => mem_append_left _ mem, ?_⟩
      intro _ _
      exact mem_map.mpr ⟨_, mem_append_right _ mem_cons_self, rfl⟩
    · change (d.observers.set id _)[other]? = _ at found
      rw [getElem?_set_ne same] at found
      exact ⟨after, found, rfl, fun _ mem => mem, fun same' => absurd same'.symm same⟩

theorem Tracked.start (tracked : d.Tracked) (id : Nat)
    (live : e ∈ d.entries.map (·.2)) : (d.start id e).Tracked := by
  unfold TaskDirectory.start
  split
  · exact tracked
  rename_i observer here
  split
  · exact tracked
  rename_i idle
  have inside := (List.getElem?_eq_some_iff.mp here).1
  have opened : observer.closed = false := by
    rw [← Bool.not_eq_true]
    exact fun closed => idle (by rw [closed, Bool.true_or])
  have fresh : ∀ task ∈ observer.tasks, task.1 ≠ e := by
    intro task mem same
    apply idle
    rw [Bool.or_eq_true]
    exact .inr (List.any_eq_true.mpr ⟨task, mem, decide_eq_true same⟩)
  -- an observer of the new directory is an old one, or the one with the new task
  have cases_ : ∀ (other : Nat) (after : Observer α),
      (d.observers.set id
        { observer with tasks := observer.tasks ++ [(e, d.tasks.length)] })[other]? =
          some after →
      (other ≠ id ∧ d.observers[other]? = some after) ∨
        (other = id ∧ after =
          { observer with tasks := observer.tasks ++ [(e, d.tasks.length)] }) := by
    intro other after found
    by_cases same : id = other
    · subst same
      rw [List.getElem?_set_self inside] at found
      exact .inr ⟨rfl, (some.inj found).symm⟩
    · rw [List.getElem?_set_ne same] at found
      exact .inl ⟨Ne.symm same, found⟩
  have older : ∀ (other : Nat) (after : Observer α), d.observers[other]? = some after →
      ∀ (entry' : DirectoryEntry α) (number : Nat), (entry', number) ∈ after.tasks →
      (d.tasks ++ [{ observer := id, entry := e, cancelled := false }])[number]? =
        some { observer := other, entry := entry', cancelled := false } := by
    intro other after found entry' number mem
    have known := tracked.known other after found entry' number mem
    rw [List.getElem?_append_left (List.getElem?_eq_some_iff.mp known).1, known]
  constructor
  · intro other after found
    rcases cases_ other after found with ⟨-, old⟩ | ⟨rfl, rfl⟩
    · exact tracked.single other after old
    · rw [List.map_append, List.nodup_append]
      refine ⟨tracked.single other observer here, List.nodup_singleton _, ?_⟩
      intro own old last new
      obtain ⟨task, mem, rfl⟩ := List.mem_map.mp old
      rw [List.mem_singleton.mp new]
      exact fresh task mem
  · intro other after found closed
    rcases cases_ other after found with ⟨-, old⟩ | ⟨rfl, rfl⟩
    · exact tracked.closed other after old closed
    · rw [opened] at closed
      cases closed
  · intro number task found active
    rw [List.getElem?_append] at found
    split at found
    · obtain ⟨holder, there, mem⟩ := tracked.held number task found active
      by_cases same : id = task.observer
      · rw [← same] at there ⊢
        rw [here] at there
        cases there
        exact ⟨_, List.getElem?_set_self inside, List.mem_append_left _ mem⟩
      · exact ⟨holder, by rw [List.getElem?_set_ne same, there], mem⟩
    · rename_i beyond
      have last := (List.getElem?_eq_some_iff.mp found).1
      rw [List.length_singleton] at last
      obtain rfl : number = d.tasks.length := by omega
      rw [Nat.sub_self] at found
      cases found
      exact ⟨_, List.getElem?_set_self inside, List.mem_append_right _ List.mem_cons_self⟩
  · intro other after found entry' number mem
    rcases cases_ other after found with ⟨-, old⟩ | ⟨rfl, rfl⟩
    · exact older other after old entry' number mem
    · rcases List.mem_append.mp mem with first | new
      · exact older other observer here entry' number first
      · obtain ⟨rfl, rfl⟩ := Prod.mk.inj (List.mem_singleton.mp new)
        exact List.getElem?_concat_length
  · intro other after found item mem
    rcases cases_ other after found with ⟨-, old⟩ | ⟨rfl, rfl⟩
    · exact tracked.live other after old item mem
    · rcases List.mem_append.mp mem with first | new
      · exact tracked.live other observer here item first
      · rw [List.mem_singleton.mp new]
        exact live

/-- The innermost loop has gone on to `frame`, which covers what it covered but for the task
that is started. -/
theorem Complete.start (complete : d.Complete) {old frame : DirectoryFrame α}
    {rest : List (DirectoryFrame α)} (frames : d.frames = old :: rest)
    (covers : ∀ (other : Nat) (observer : Observer α), d.observers[other]? = some observer →
      observer.closed = false → ∀ item ∈ d.entries, old.Covers other item →
        frame.Covers other item ∨ (other = id ∧ item.2 = e)) :
    (TaskDirectory.start { d with frames := frame :: rest } id e).Complete := by
  have spec := starts { d with frames := frame :: rest } id e
  rw [Complete, spec.ready, spec.entries]
  intro started other after found opened item mem
  obtain ⟨before, here, closed, grown, own⟩ := spec.observers other after found
  rw [closed] at opened
  rcases complete started other before here opened item mem with has | ⟨loop, inside, ahead⟩
  · obtain ⟨task, held, same⟩ := mem_map.mp has
    exact .inl (mem_map.mpr ⟨task, grown task held, same⟩)
  · rw [frames] at inside
    rcases mem_cons.mp inside with rfl | outer
    · rcases covers other before here opened item mem ahead with still | ⟨rfl, rfl⟩
      · exact .inr ⟨frame, spec.frames frame mem_cons_self, still⟩
      · exact .inl (own rfl opened)
    · exact .inr ⟨loop, spec.frames loop (mem_cons_of_mem _ outer), ahead⟩

theorem Invariant.advance (inv : d.Invariant)
    (live : (d.startsNext.all fun e => d.get e.key = some e) = true)
    (taken : d.advance = some next) : next.Invariant := by
  have mapped : ∀ {other : TaskDirectory α}, other.entries = d.entries →
      other.places = d.places → other.Mapped := fun entries places =>
    inv.mapped.sublist (entries ▸ List.Sublist.refl _) places
  unfold TaskDirectory.advance at taken
  split at taken
  · rename_i e place rest frames
    split at taken
    · rename_i ended
      cases taken
      refine ⟨mapped rfl rfl, inv.tracked.more rfl rfl fun _ mem => mem,
        inv.complete.loop frames (fun _ mem => mem) ?_⟩
      rintro other observer found opened item mem ⟨-, ahead⟩
      exact absurd ahead (nextObserver_none ended other observer found opened)
    · rename_i id found
      cases taken
      have spec := starts { d with frames := .startAll e (id + 1) :: rest } id e
      have inside : e ∈ d.entries.map (·.2) := by
        rw [startsNext, frames] at live
        dsimp only at live
        rw [found, map_some, all_some] at live
        exact (get_mem (of_decide_eq_true live)).1
      refine ⟨mapped spec.entries spec.places, ?_, inv.complete.start frames ?_⟩
      · have moved : ({ d with frames := .startAll e (id + 1) :: rest } :
            TaskDirectory α).Tracked := inv.tracked.more rfl rfl fun _ mem => mem
        exact moved.start id inside
      · rintro other observer here opened item mem ⟨same, ahead⟩
        rcases Nat.lt_or_eq_of_le (nextObserver_some found other observer here opened ahead) with
          later | rfl
        · exact .inl ⟨same, later⟩
        · exact .inr ⟨rfl, same.symm⟩
  · rename_i place rest frames
    split at taken
    · rename_i ended
      cases taken
      refine ⟨mapped rfl rfl, inv.tracked.more rfl rfl fun _ mem => mem,
        inv.complete.loop frames (fun _ mem => mem) ?_⟩
      intro other observer found opened item mem ahead
      exact absurd ahead (nextEntry_none ended item mem)
    · rename_i at_ e found
      cases taken
      refine ⟨mapped rfl rfl, inv.tracked.more rfl rfl fun _ mem => mem,
        inv.complete.loop frames
          (fun _ mem => mem_cons_of_mem _ (mem_cons_of_mem _ mem)) ?_⟩
      intro other observer here opened item mem ahead
      rcases (inv.mapped.nextEntry_some found).2 item mem ahead with rfl | later
      · exact ⟨_, mem_cons_self, rfl, Nat.zero_le _⟩
      · exact ⟨_, mem_cons_of_mem _ mem_cons_self, later⟩
  · rename_i id place rest frames
    split at taken
    · rename_i ended
      cases taken
      refine ⟨mapped rfl rfl, inv.tracked.more rfl rfl fun _ mem => mem,
        inv.complete.loop frames (fun _ mem => mem) ?_⟩
      rintro other observer found opened item mem ⟨-, ahead⟩
      exact absurd ahead (nextEntry_none ended item mem)
    · rename_i at_ e found
      cases taken
      have spec := starts { d with frames := .observe id (at_ + 1) :: rest } id e
      obtain ⟨inside, others⟩ := inv.mapped.nextEntry_some found
      refine ⟨mapped spec.entries spec.places, ?_, inv.complete.start frames ?_⟩
      · have moved : ({ d with frames := .observe id (at_ + 1) :: rest } :
            TaskDirectory α).Tracked := inv.tracked.more rfl rfl fun _ mem => mem
        exact moved.start id (mem_map_of_mem inside)
      · rintro other observer here opened item mem ⟨rfl, ahead⟩
        rcases others item mem ahead with rfl | later
        · exact .inr ⟨rfl, rfl⟩
        · exact .inl ⟨rfl, later⟩
  · cases taken

end

end

end TaskDirectory

end Trpi.Chord.Services
