import Trpi.Chord.Services.InstanceTaskRuns

/-!
# Consistency of an instance directory

Every step keeps the invariant, as long as a loop over the observers of an entry goes on only
while the entry is in the map; where it does not, a handler has removed the entry and the
observers behind it are started on it all the same.
-/

namespace Trpi.Chord.Services

open Library List Option Except

variable {α : Type}

namespace TaskDirectory

variable {d next : TaskDirectory α}

theorem close_frame (d : TaskDirectory α) (id : Nat) :
    (d.close id).observers.length = d.observers.length ∧
      (∀ (other : Nat) (after : Observer α), (d.close id).observers[other]? = some after →
        after.closed = false → d.observers[other]? = some after ∧ other ≠ id) := by
  unfold TaskDirectory.close
  split
  · rename_i absent
    refine ⟨rfl, fun other after found _ => ⟨found, ?_⟩⟩
    rintro rfl
    rw [absent] at found
    cases found
  rename_i observer here
  split
  · rename_i closed
    refine ⟨rfl, fun other after found opened => ⟨found, ?_⟩⟩
    rintro rfl
    rw [here] at found
    cases found
    rw [opened] at closed
    cases closed
  · refine ⟨length_set, fun other after found opened => ?_⟩
    change (d.observers.set id _)[other]? = _ at found
    by_cases same : id = other
    · subst same
      rw [List.getElem?_set_self (List.getElem?_eq_some_iff.mp here).1] at found
      cases found
      cases opened
    · rw [getElem?_set_ne same] at found
      exact ⟨found, Ne.symm same⟩

theorem Invariant.foldl_close (ids : List Nat) (inv : d.Invariant) :
    (ids.foldl TaskDirectory.close d).Invariant ∧
      (ids.foldl TaskDirectory.close d).observers.length = d.observers.length ∧
      ∀ (other : Nat) (after : Observer α),
        (ids.foldl TaskDirectory.close d).observers[other]? = some after →
          after.closed = false → other ∉ ids ∧ d.observers[other]? = some after := by
  induction ids generalizing d with
  | nil => exact ⟨inv, rfl, fun other after found _ => ⟨not_mem_nil, found⟩⟩
  | cons id rest ih =>
    obtain ⟨kept, length, opened⟩ := ih (inv.close id)
    obtain ⟨same, before⟩ := close_frame d id
    refine ⟨kept, length.trans same, ?_⟩
    intro other after found still
    obtain ⟨outside, here⟩ := opened other after found still
    obtain ⟨old, apart⟩ := before other after here still
    exact ⟨not_mem_cons_of_ne_of_not_mem apart outside, old⟩

theorem Invariant.dispose (inv : d.Invariant) :
    ({ (range d.observers.length).foldl TaskDirectory.close { d with disposed := true } with
      entries := [] } : TaskDirectory α).Invariant := by
  have disposed : ({ d with disposed := true } : TaskDirectory α).Invariant :=
    ⟨inv.mapped.sublist (List.Sublist.refl _) rfl,
      inv.tracked.more rfl rfl fun _ mem => mem, inv.complete⟩
  obtain ⟨kept, length, opened⟩ := disposed.foldl_close (range d.observers.length)
  refine ⟨kept.mapped.sublist (nil_sublist _) rfl, ⟨kept.tracked.single, kept.tracked.closed,
    kept.tracked.held, kept.tracked.known, ?_⟩, ?_⟩
  · intro id observer found item mem
    have closed : observer.closed = true := by
      rw [← Bool.not_eq_false]
      intro still
      obtain ⟨outside, -⟩ := opened id observer found still
      have inside := (List.getElem?_eq_some_iff.mp found).1
      exact outside (mem_range.mpr (length ▸ inside))
    rw [kept.tracked.closed id observer found closed] at mem
    cases mem
  · intro _ id observer _ _ item mem
    cases mem

section

variable [DecidableEq α]

theorem Invariant.foldl_remove (entries : List (DirectoryEntry α))
    (inv : d.Invariant) : (entries.foldl TaskDirectory.remove d).Invariant := by
  induction entries generalizing d with
  | nil => exact inv
  | cons e rest ih => exact ih (inv.remove e)

theorem Invariant.call (inv : d.Invariant) {call : DirectoryCall α}
    (taken : d.call call = .ok next) : next.Invariant := by
  cases call with
  | insert e =>
    rw [TaskDirectory.call] at taken
    split at taken
    · cases taken
    split at taken
    · cases taken
    rename_i absent
    cases taken
    exact inv.insert (not_isSome_iff_eq_none.mp absent)
  | replace e =>
    rw [TaskDirectory.call] at taken
    split at taken
    · cases taken
    split at taken
    · rename_i absent
      cases taken
      exact inv.insert absent
    rename_i previous found
    split at taken
    · cases taken
    cases taken
    exact (inv.remove previous).insert (get_remove found)
  | remove e => exact ok.inj taken ▸ inv.remove e
  | ready =>
    rw [TaskDirectory.call] at taken
    split at taken
    · cases taken
    split at taken
    · exact ok.inj taken ▸ inv
    · exact ok.inj taken ▸ inv.ready
  | reset =>
    rw [TaskDirectory.call] at taken
    split at taken
    · exact ok.inj taken ▸ inv
    cases taken
    have unready : ({ d with ready := false } : TaskDirectory α).Invariant := by
      refine ⟨inv.mapped.sublist (List.Sublist.refl _) rfl,
        inv.tracked.more rfl rfl fun _ mem => mem, ?_⟩
      intro started
      cases started
    exact unready.foldl_remove _
  | observe =>
    rw [TaskDirectory.call] at taken
    split at taken
    · cases taken
    cases taken
    split
    · exact inv.observe rfl rfl rfl rfl rfl (fun _ mem => mem_cons_of_mem _ mem)
        fun _ => mem_cons_self
    · rename_i unready
      exact inv.observe rfl rfl rfl rfl rfl (fun _ mem => mem)
        fun ready => absurd ready unready
  | stop id => exact ok.inj taken ▸ inv.close id
  | dispose =>
    rw [TaskDirectory.call] at taken
    split at taken
    · exact ok.inj taken ▸ inv
    · exact ok.inj taken ▸ inv.dispose

theorem Invariant.step (inv : d.Invariant) {ev : DirectoryEvent α}
    (live : d.Live ev) (taken : d.step ev = some next) : next.Invariant := by
  cases ev with
  | call call =>
    rw [TaskDirectory.step] at taken
    split at taken
    · split at taken
      · rename_i after ok
        exact some.inj taken ▸ inv.call ok
      · exact some.inj taken ▸ inv
    · cases taken
  | advance => exact inv.advance (live rfl) taken
  | returns =>
    rw [TaskDirectory.step] at taken
    split at taken
    · rename_i rest frames
      cases taken
      refine ⟨inv.mapped.sublist (List.Sublist.refl _) rfl,
        inv.tracked.more rfl rfl fun _ mem => mem,
        inv.complete.loop frames (fun _ mem => mem) ?_⟩
      intro other observer found opened item mem ahead
      cases ahead
    · cases taken

end

end TaskDirectory

theorem directoryInvariant_inductive [DecidableEq α] :
    Machine.Inductive (instanceDirectory α) TaskDirectory.Live TaskDirectory.Invariant where
  start d initial := by
    obtain ⟨ready, rfl⟩ := initial
    exact TaskDirectory.invariant_create ready
  step d ev next inv live taken := inv.step live taken

/-- In every run in which an entry is in the map whenever a loop goes on to a further observer
of it: when no call is under way, an observer of a ready directory has one task that is not
cancelled for every entry, and tasks that are not cancelled are tasks of observers of the
directory for its entries. -/
theorem directory_consistent [DecidableEq α] {d : TaskDirectory α}
    (reached : (instanceDirectory α).Reached TaskDirectory.Live d)
    (quiescent : d.frames = []) :
    (d.ready = true → ∀ (id : Nat) (observer : Observer α),
      d.observers[id]? = some observer → observer.closed = false →
      ∀ entry ∈ d.entries.map (·.2), ∃ number : Nat,
        d.tasks[number]? = some { observer := id, entry, cancelled := false } ∧
        ∀ other : Nat,
          d.tasks[other]? = some { observer := id, entry, cancelled := false } →
          other = number) ∧
    ∀ task ∈ d.tasks, task.cancelled = false →
      task.entry ∈ d.entries.map (·.2) ∧ ∃ observer : Observer α,
        d.observers[task.observer]? = some observer ∧ observer.closed = false := by
  have inv := directoryInvariant_inductive.reached reached
  have tracked := inv.tracked
  refine ⟨?_, ?_⟩
  · intro ready id observer found opened entry mem
    obtain ⟨item, inside, rfl⟩ := List.mem_map.mp mem
    rcases inv.complete ready id observer found opened item inside with
      has | ⟨frame, ahead, -⟩
    · obtain ⟨⟨own, number⟩, task, same⟩ := List.mem_map.mp has
      obtain rfl : own = item.2 := same
      refine ⟨number, tracked.known id observer found _ number task, ?_⟩
      intro other here
      obtain ⟨holder, there, second⟩ := tracked.held other _ here rfl
      rw [found] at there
      cases there
      have one := List.inj_on_of_nodup_map (tracked.single id observer found) second task rfl
      exact (Prod.mk.inj one).2
    · rw [quiescent] at ahead
      cases ahead
  · intro task mem active
    obtain ⟨number, found⟩ := List.getElem?_of_mem mem
    obtain ⟨observer, here, own⟩ := tracked.held number task found active
    refine ⟨tracked.live _ observer here _ own, observer, here, ?_⟩
    rw [← Bool.not_eq_true]
    intro closed
    rw [tracked.closed _ observer here closed] at own
    cases own

def sampleEntry (key : String) (generation : Nat) : DirectoryEntry Nat :=
  { key, generation, content := generation }

/-- The first observer's handler removes the entry it is called for. -/
def removingEvents : List (DirectoryEvent Nat) :=
  [.call .observe, .advance, .call .observe, .advance, .call (.insert (sampleEntry "a" 1)),
    .advance, .call (.remove (sampleEntry "a" 1)), .returns, .advance, .returns, .advance]

/-- The second observer is started on the removed entry, and nothing cancels its task. -/
theorem removed_entry_started :
    ((instanceDirectory Nat).exec (fun _ _ => True) (.create true) removingEvents).map
        (fun d => (d.ready, d.frames, d.entries, d.tasks)) =
      some (true, [], [], [{ observer := 0, entry := sampleEntry "a" 1, cancelled := true },
        { observer := 1, entry := sampleEntry "a" 1, cancelled := false }]) :=
  rfl

/-- The handler of the first observer inserts a second entry and stops the third observer. -/
def insertingEvents : List (DirectoryEvent Nat) :=
  [.call .observe, .advance, .call .observe, .advance, .call .observe, .advance,
    .call (.insert (sampleEntry "a" 1)), .advance, .call (.insert (sampleEntry "b" 2)), .advance,
    .returns, .advance, .returns, .advance, .returns, .advance, .returns, .advance, .returns,
    .advance, .call (.stop 2), .returns, .advance]

theorem directory_consistent_sample :
    ∃ d, (instanceDirectory Nat).Reached TaskDirectory.Live d ∧
      d.tasks.length = 6 ∧ ∀ task ∈ d.tasks, task.cancelled = false →
        task.entry ∈ d.entries.map (·.2) ∧ ∃ observer : Observer Nat,
          d.observers[task.observer]? = some observer ∧ observer.closed = false := by
  have succeeds : ((instanceDirectory Nat).exec TaskDirectory.Live (.create true)
      insertingEvents).any (fun d =>
        decide (d.frames = [] ∧ d.tasks.length = 6)) = true := by
    decide +kernel
  obtain ⟨d, ran, rest⟩ := Option.any_eq_true _ _ |>.mp succeeds
  obtain ⟨quiescent, tasks⟩ := of_decide_eq_true rest
  have reached : (instanceDirectory Nat).Reached TaskDirectory.Live d :=
    Machine.Reached.exec (.start ⟨true, rfl⟩) ran
  exact ⟨d, reached, tasks, (directory_consistent reached quiescent).2⟩

end Trpi.Chord.Services
