import Trpi.Chord.Services.KeyedBinding

/-!
# Live subscriptions of a keyed binding

Each revision of a binding is to have one start. `observe` keeps to that through
`starting`, which a reset clears before it waits; `rebind` starts after the wait
without looking. So the two may start twice for one revision, and then both
subscriptions stay live and the second snapshot meets the first one's instances.
Where `observe` does not look while such a rebind waits, every reached state has
at most the recorded subscription.
-/

namespace Trpi.Chord.Services.KeyedBinding

open InstanceDirectory List
open Library (Machine)

/-- The only live subscription is the recorded one, of a bound and open binding
with an observer, and no snapshot met its own generations. -/
structure OneLive (binding : KeyedBinding) : Prop where
  recorded : ∀ (i : Nat) (start : Start), binding.starts[i]? = some start → start.phase = .live →
    binding.subscription = some i
  only_if : ∀ (i : Nat) (start : Start), binding.starts[i]? = some start → start.phase = .live →
    binding.bound = true ∧ binding.closed = false ∧ binding.instances.observers ≠ []
  no_repeat : ∀ (i : Nat) (start : Start), binding.starts[i]? = some start →
    start.failure ≠ some (.directory .repeatedGeneration)

/-- Nothing is running and no promise is outstanding. -/
structure Quiescent (binding : KeyedBinding) : Prop where
  observing : binding.observing = []
  waiting : binding.waiting = []
  settled : ∀ start ∈ binding.starts, start.phase ≠ .subscribing ∧ start.phase ≠ .closing

/-- A `rebind(true)` that was not superseded still waits for its reset. -/
def RebindWaits (binding : KeyedBinding) : Prop :=
  ∃ waiting ∈ binding.waiting, waiting.call = .rebind true ∧ waiting.revision = binding.revision

instance (binding : KeyedBinding) : Decidable binding.RebindWaits := by
  unfold RebindWaits
  infer_instance

/-- No `observe` looks whether to start while such a rebind waits. -/
def Calm (binding : KeyedBinding) (event : Event) : Prop :=
  event = .observeReturns → ¬ binding.RebindWaits

instance (binding : KeyedBinding) (event : Event) : Decidable (binding.Calm event) := by
  unfold Calm
  infer_instance

/-- Starts, waiting calls and the directory, whoever observes. -/
structure Sound (binding : KeyedBinding) : Prop where
  revision_le : ∀ (i : Nat) (start : Start), binding.starts[i]? = some start → start.revision ≤ binding.revision
  revision_inj : ∀ (i j : Nat) (first second : Start), binding.starts[i]? = some first →
    binding.starts[j]? = some second → first.revision = second.revision → i = j
  waiting_le : ∀ waiting ∈ binding.waiting, waiting.revision ≤ binding.revision
  waiting_nodup : (binding.waiting.map Waiting.revision).Nodup
  none_started : binding.starting = none → ∀ (i : Nat) (start : Start), binding.starts[i]? = some start →
    start.revision ≠ binding.revision
  rebind_waits : binding.RebindWaits → binding.starting = none
  close_waits : ∀ waiting ∈ binding.waiting, waiting.call = .close → binding.closed = true
  live : ∀ (i : Nat) (start : Start), binding.starts[i]? = some start → start.phase = .live →
    binding.subscription = some i
  recorded : ∀ i, binding.subscription = some i → ∃ start, binding.starts[i]? = some start ∧
    start.phase = .live ∧ start.revision = binding.revision
  in_use : binding.subscription ≠ none → binding.bound = true ∧ binding.closed = false
  entries : binding.instances.entries ≠ [] → binding.subscription ≠ none
  disposed : binding.instances.disposed = true → binding.closed = true
  activated : ∀ (i : Nat) (start : Start), binding.starts[i]? = some start → start.activated = true →
    start.revision = binding.revision → start.phase = .live
  no_repeat : ∀ (i : Nat) (start : Start), binding.starts[i]? = some start →
    start.failure ≠ some (.directory .repeatedGeneration)

structure Observed (binding : KeyedBinding) : Prop where
  observers : binding.closed = false → binding.starts ≠ [] → binding.instances.observers ≠ []
  observing : binding.closed = false → ∀ observer ∈ binding.observing,
    observer ∈ binding.instances.observers

theorem create_sound (serviceId : String) (bound : Bool) : Sound (create serviceId bound) := by
  constructor <;> simp [create, InstanceDirectory.create]

theorem create_observed (serviceId : String) (bound : Bool) :
    Observed (create serviceId bound) := by
  constructor <;> simp [create]

theorem getElem?_modifyStart (binding : KeyedBinding) (i j : Nat) (f : Start → Start) :
    (binding.modifyStart i f).starts[j]? = if i = j then (binding.starts[j]?).map f
      else binding.starts[j]? := by
  rw [modifyStart, getElem?_modify]
  by_cases same : i = j <;> simp [same]

variable {binding : KeyedBinding} {i position : Nat} {instances next : InstanceDirectory Unit}
  {waiting : Waiting} {snapshot : InstanceSnapshot} {f : Start → Start} {call : Call}

theorem modifyStart_cases {j : Nat} {start : Start}
    (found : (binding.modifyStart i f).starts[j]? = some start) :
    ∃ before, binding.starts[j]? = some before ∧
      ((i = j ∧ start = f before) ∨ (i ≠ j ∧ start = before)) := by
  rw [getElem?_modifyStart] at found
  split at found
  · rename_i same
    rw [Option.map_eq_some_iff] at found
    obtain ⟨before, at_j, rfl⟩ := found
    exact ⟨before, at_j, .inl ⟨same, rfl⟩⟩
  · rename_i other
    exact ⟨start, found, .inr ⟨other, rfl⟩⟩

theorem Sound.start (sound : Sound binding) (none_ : binding.starting = none)
    (calm : ¬ binding.RebindWaits) : Sound binding.start := by
  have fresh := sound.none_started none_
  have cases_ : ∀ {i : Nat} {start : Start}, binding.start.starts[i]? = some start →
      binding.starts[i]? = some start ∨ (i = binding.starts.length ∧
        start = { revision := binding.revision, phase := .subscribing, activated := false,
                  failure := none }) := by
    intro i start found
    simp only [KeyedBinding.start, getElem?_append] at found
    split at found
    · exact .inl found
    · rename_i beyond
      rw [getElem?_singleton] at found
      split at found
      · cases found
        exact .inr ⟨by omega, rfl⟩
      · cases found
  have kept : ∀ {i : Nat} {start : Start}, binding.starts[i]? = some start →
      binding.start.starts[i]? = some start := by
    intro i start found
    have inside := (List.getElem?_eq_some_iff.mp found).1
    simp only [KeyedBinding.start, getElem?_append_left inside, found]
  refine { sound with
    revision_le := ?_, revision_inj := ?_, none_started := ?_, rebind_waits := ?_, live := ?_
    recorded := ?_, activated := ?_, no_repeat := ?_ }
  · intro i start found
    obtain old | ⟨-, rfl⟩ := cases_ found
    · exact sound.revision_le i start old
    · exact Nat.le_refl _
  · intro i j first second at_i at_j same
    obtain old | ⟨rfl, rfl⟩ := cases_ at_i <;> obtain old' | ⟨rfl, rfl⟩ := cases_ at_j
    · exact sound.revision_inj i j first second old old' same
    · exact absurd same (fresh i first old)
    · exact absurd same.symm (fresh j second old')
    · rfl
  · intro started
    cases started
  · intro waits
    exact absurd waits calm
  · intro i start found alive
    obtain old | ⟨-, rfl⟩ := cases_ found
    · exact sound.live i start old alive
    · cases alive
  · intro i stored
    obtain ⟨start, found, alive⟩ := sound.recorded i stored
    exact ⟨start, kept found, alive⟩
  · intro i start found active current
    obtain old | ⟨-, rfl⟩ := cases_ found
    · exact sound.activated i start old active current
    · cases active
  · intro i start found
    obtain old | ⟨-, rfl⟩ := cases_ found
    · exact sound.no_repeat i start old
    · intro failed
      cases failed

theorem reset_cases {waitForStarting : Bool} {start : Start}
    (found : (binding.reset call waitForStarting).starts[i]? = some start) :
    ∃ before, binding.starts[i]? = some before ∧
      ((binding.subscription = some i ∧ start = { before with phase := .closing }) ∨
       (binding.subscription ≠ some i ∧ start = before)) := by
  cases recorded : binding.subscription with
  | none =>
    simp only [reset, recorded, closeSubscription] at found
    exact ⟨start, found, .inr ⟨(by intro same; cases same), rfl⟩⟩
  | some subscription =>
    simp only [reset, recorded, closeSubscription] at found
    obtain ⟨before, old, ⟨rfl, changed⟩ | ⟨other, kept⟩⟩ := modifyStart_cases found
    · exact ⟨before, old, .inl ⟨rfl, changed⟩⟩
    · exact ⟨before, old, .inr ⟨fun same => other (Option.some.inj same), kept⟩⟩

/-- The reset of a new revision leaves nothing live and an empty directory. -/
theorem Sound.reset (sound : Sound binding) (bound closed : Bool)
    (open_ : closed = false → binding.closed = false) (closes : call = .close → closed = true)
    (waitForStarting : Bool) :
    Sound ({ binding with bound := bound, closed := closed,
                          revision := binding.revision + 1 }.reset call waitForStarting) := by
  have not_live : ∀ {i : Nat} {start : Start}, binding.starts[i]? = some start →
      binding.subscription ≠ some i → start.phase ≠ .live :=
    fun found other alive => other (sound.live _ _ found alive)
  have emptied : binding.instances.reset.entries = [] := by
    unfold InstanceDirectory.reset
    split
    · rename_i disposed
      by_contra some_entry
      have used := sound.in_use (sound.entries some_entry)
      rw [sound.disposed disposed] at used
      cases used.2
    · rfl
  have disposal : binding.instances.reset.disposed = binding.instances.disposed := by
    unfold InstanceDirectory.reset
    split <;> rfl
  constructor
  · intro i start found
    obtain ⟨before, old, ⟨-, rfl⟩ | ⟨-, rfl⟩⟩ := reset_cases found
    · exact Nat.le_succ_of_le (sound.revision_le i before old)
    · exact Nat.le_succ_of_le (sound.revision_le i start old)
  · intro i j first second at_i at_j same
    obtain ⟨before, old, ⟨-, rfl⟩ | ⟨-, rfl⟩⟩ := reset_cases at_i <;>
      obtain ⟨before', old', ⟨-, rfl⟩ | ⟨-, rfl⟩⟩ := reset_cases at_j <;>
      exact sound.revision_inj i j _ _ old old' same
  · intro waiting mem
    obtain old | new := mem_append.mp mem
    · exact Nat.le_succ_of_le (sound.waiting_le waiting old)
    · rw [mem_singleton.mp new]
      exact Nat.le_refl _
  · simp only [KeyedBinding.reset, map_append, map_cons, map_nil]
    rw [nodup_append]
    refine ⟨sound.waiting_nodup, pairwise_singleton _ _, ?_⟩
    intro revision old other new
    obtain ⟨waiting, mem, rfl⟩ := mem_map.mp old
    rw [mem_singleton.mp new]
    exact Nat.ne_of_lt (Nat.lt_succ_of_le (sound.waiting_le waiting mem))
  · intro _ i start found
    obtain ⟨before, old, ⟨-, rfl⟩ | ⟨-, rfl⟩⟩ := reset_cases found
    · exact Nat.ne_of_lt (Nat.lt_succ_of_le (sound.revision_le i before old))
    · exact Nat.ne_of_lt (Nat.lt_succ_of_le (sound.revision_le i start old))
  · intro _
    rfl
  · intro waiting mem called
    obtain old | new := mem_append.mp mem
    · by_contra still_open
      have opened := open_ (Bool.eq_false_iff.mpr still_open)
      rw [sound.close_waits waiting old called] at opened
      cases opened
    · rw [mem_singleton.mp new] at called
      exact closes called
  · intro i start found alive
    obtain ⟨before, old, ⟨-, rfl⟩ | ⟨other, rfl⟩⟩ := reset_cases found
    · cases alive
    · exact absurd alive (not_live old other)
  · intro i stored
    cases stored
  · intro stored
    exact absurd rfl stored
  · intro some_entry
    exact absurd emptied some_entry
  · intro disposed
    have was : binding.instances.disposed = true := disposal.symm.trans disposed
    by_contra still_open
    have opened := open_ (Bool.eq_false_iff.mpr still_open)
    rw [sound.disposed was] at opened
    cases opened
  · intro i start found _ current
    obtain ⟨before, old, ⟨-, rfl⟩ | ⟨-, rfl⟩⟩ := reset_cases found
    · exact absurd current (Nat.ne_of_lt (Nat.lt_succ_of_le (sound.revision_le i before old)))
    · exact absurd current (Nat.ne_of_lt (Nat.lt_succ_of_le (sound.revision_le i start old)))
  · intro i start found
    obtain ⟨before, old, ⟨-, rfl⟩ | ⟨-, rfl⟩⟩ := reset_cases found
    · exact sound.no_repeat i before old
    · exact sound.no_repeat i start old

theorem Sound.rebind (sound : Sound binding) (bound : Bool) : Sound (binding.rebind bound) := by
  unfold KeyedBinding.rebind
  split
  · exact sound
  · exact sound.reset bound binding.closed id (fun called => by cases called) false

theorem Sound.close (sound : Sound binding) : Sound binding.close := by
  unfold KeyedBinding.close
  split
  · exact sound
  · exact sound.reset binding.bound true (fun same => by cases same) (fun _ => rfl) true

theorem Sound.setPhase (sound : Sound binding) {start : Start}
    (found : binding.starts[i]? = some start) (before : start.phase ≠ .live)
    {phase : SubscriptionPhase} (after : phase ≠ .live) : Sound (binding.setPhase i phase) := by
  have cases_ : ∀ {j : Nat} {other : Start}, (binding.setPhase i phase).starts[j]? = some other →
      ∃ old, binding.starts[j]? = some old ∧
        ((i = j ∧ other = { old with phase := phase }) ∨ (i ≠ j ∧ other = old)) :=
    fun found => modifyStart_cases found
  refine { sound with
    revision_le := ?_, revision_inj := ?_, none_started := ?_, live := ?_, recorded := ?_
    activated := ?_, no_repeat := ?_ }
  · intro j other at_j
    obtain ⟨old, was, ⟨-, rfl⟩ | ⟨-, rfl⟩⟩ := cases_ at_j
    · exact sound.revision_le j old was
    · exact sound.revision_le j other was
  · intro j k first second at_j at_k same
    obtain ⟨old, was, ⟨-, rfl⟩ | ⟨-, rfl⟩⟩ := cases_ at_j <;>
      obtain ⟨old', was', ⟨-, rfl⟩ | ⟨-, rfl⟩⟩ := cases_ at_k <;>
      exact sound.revision_inj j k _ _ was was' same
  · intro none_ j other at_j
    obtain ⟨old, was, ⟨-, rfl⟩ | ⟨-, rfl⟩⟩ := cases_ at_j
    · exact sound.none_started none_ j old was
    · exact sound.none_started none_ j other was
  · intro j other at_j alive
    obtain ⟨old, was, ⟨-, rfl⟩ | ⟨-, rfl⟩⟩ := cases_ at_j
    · exact absurd alive after
    · exact sound.live j other was alive
  · intro j stored
    obtain ⟨old, was, alive, current⟩ := sound.recorded j stored
    have different : i ≠ j := by
      rintro rfl
      rw [found] at was
      cases was
      exact before alive
    refine ⟨old, ?_, alive, current⟩
    rw [KeyedBinding.setPhase, getElem?_modifyStart, if_neg different, was]
  · intro j other at_j active current
    obtain ⟨old, was, ⟨rfl, rfl⟩ | ⟨-, rfl⟩⟩ := cases_ at_j
    · rw [found] at was
      cases was
      exact absurd (sound.activated _ _ found active current) before
    · exact sound.activated j other was active current
  · intro j other at_j
    obtain ⟨old, was, ⟨-, rfl⟩ | ⟨-, rfl⟩⟩ := cases_ at_j
    · exact sound.no_repeat j old was
    · exact sound.no_repeat j other was

theorem spawn_ok (ok : spawn instances snapshot = .ok next) :
    ∃ address, snapshot.address = some address ∧
      instances.replace { key := address.key, generation := address.generation, content := () } =
        .ok next := by
  unfold spawn at ok
  split at ok
  · cases ok
  · rename_i address has
    split at ok
    · cases ok
    · refine ⟨address, has, ?_⟩
      cases replaced : instances.replace
          { key := address.key, generation := address.generation, content := () } with
      | error reason =>
        rw [replaced] at ok
        cases ok
      | ok d =>
        rw [replaced] at ok
        cases ok
        rfl

theorem spawn_keeps (ok : spawn instances snapshot = .ok next) :
    next.observers = instances.observers ∧ next.disposed = instances.disposed := by
  obtain ⟨address, -, replaced⟩ := spawn_ok ok
  exact replace_ok replaced

theorem install_keeps (instances : InstanceDirectory Unit) (snapshots : List InstanceSnapshot) :
    (install instances snapshots).1.observers = instances.observers ∧
      (install instances snapshots).1.disposed = instances.disposed := by
  induction snapshots generalizing instances with
  | nil => exact ⟨rfl, rfl⟩
  | cons snapshot rest ih =>
    cases spawned : spawn instances snapshot with
    | error reason =>
      simp only [install, spawned]
      exact ⟨trivial, trivial⟩
    | ok next =>
      obtain ⟨observers, disposed⟩ := spawn_keeps spawned
      simp only [install, spawned]
      rw [← observers, ← disposed]
      exact ih next

theorem spawn_fresh {address : ServiceInstanceAddress} (has : snapshot.address = some address)
    (new : ∀ e ∈ instances.entries, e.key ≠ address.key) :
    (∃ reason, reason ≠ .directory .repeatedGeneration ∧
      spawn instances snapshot = .error reason) ∨
    spawn instances snapshot = .ok { instances with
      entries := instances.entries ++
        [{ key := address.key, generation := address.generation, content := () }] } := by
  have replaced : instances.replace
      { key := address.key, generation := address.generation, content := () } = _ :=
    replace_fresh new
  simp only [spawn, has]
  cases snapshot.installs with
  | false => exact .inl ⟨.notInstalled, by decide, rfl⟩
  | true =>
    rw [replaced]
    cases instances.disposed with
    | true => exact .inl ⟨.directory .disposed, by decide, rfl⟩
    | false => exact .inr rfl

theorem install_fresh {snapshots : List InstanceSnapshot}
    (nodup : ((snapshots.filterMap InstanceSnapshot.address).map
      ServiceInstanceAddress.key).Nodup)
    (fresh : ∀ e ∈ instances.entries,
      ∀ address ∈ snapshots.filterMap InstanceSnapshot.address, e.key ≠ address.key) :
    (install instances snapshots).2 ≠ some (.directory .repeatedGeneration) := by
  induction snapshots generalizing instances with
  | nil =>
    intro failed
    cases failed
  | cons snapshot rest ih =>
    cases has : snapshot.address with
    | none =>
      simp only [install, spawn, has]
      intro failed
      cases failed
    | some address =>
      rw [filterMap_cons, has] at nodup fresh
      simp only [map_cons, nodup_cons] at nodup
      have new : ∀ other ∈ instances.entries, other.key ≠ address.key :=
        fun other mem => fresh other mem address mem_cons_self
      obtain ⟨reason, other, failed⟩ | added := spawn_fresh has new
      · simp only [install, failed]
        exact fun same => other (Option.some.inj same)
      · simp only [install, added]
        apply ih nodup.2
        intro e mem later here same
        obtain old | last := mem_append.mp mem
        · exact fresh e old later (mem_cons_of_mem _ here) same
        · rw [mem_singleton.mp last] at same
          exact nodup.1 (mem_map.mpr ⟨later, here, same.symm⟩)

section

variable (sound : Sound binding)

include sound

section

variable {start : Start} (found : binding.starts[i]? = some start)
  (subscribing : start.phase = .subscribing)

include found subscribing

theorem Sound.alone
    (current : start.revision = binding.revision) : binding.subscription = none := by
  by_contra some_
  obtain ⟨j, stored⟩ := Option.ne_none_iff_exists'.mp some_
  obtain ⟨other, at_j, alive, same⟩ := sound.recorded j stored
  have equal := sound.revision_inj i j start other found at_j (current.trans same.symm)
  subst equal
  rw [found] at at_j
  cases at_j
  rw [subscribing] at alive
  cases alive

theorem Sound.record
    (current : start.revision = binding.revision) (opened : binding.closed = false)
    (bound : binding.bound = true) (disposed : instances.disposed = binding.instances.disposed)
    {failure : Option StartFailure} (allowed : failure ≠ some (.directory .repeatedGeneration)) :
    Sound (binding.record i instances failure) := by
  have cases_ : ∀ {j : Nat} {other : Start},
      (binding.record i instances failure).starts[j]? = some other →
      ∃ old, binding.starts[j]? = some old ∧
        ((i = j ∧ other = { old with phase := .live, activated := failure.isNone,
                                     failure := failure }) ∨ (i ≠ j ∧ other = old)) :=
    fun found => modifyStart_cases found
  have alone := sound.alone found subscribing current
  constructor
  · intro j other at_j
    obtain ⟨old, was, ⟨-, rfl⟩ | ⟨-, rfl⟩⟩ := cases_ at_j
    · exact sound.revision_le j old was
    · exact sound.revision_le j other was
  · intro j k first second at_j at_k same
    obtain ⟨old, was, ⟨-, rfl⟩ | ⟨-, rfl⟩⟩ := cases_ at_j <;>
      obtain ⟨old', was', ⟨-, rfl⟩ | ⟨-, rfl⟩⟩ := cases_ at_k <;>
      exact sound.revision_inj j k _ _ was was' same
  · exact sound.waiting_le
  · exact sound.waiting_nodup
  · intro none_
    exact absurd current (sound.none_started none_ i start found)
  · exact sound.rebind_waits
  · exact sound.close_waits
  · intro j other at_j alive
    obtain ⟨old, was, ⟨rfl, rfl⟩ | ⟨-, rfl⟩⟩ := cases_ at_j
    · rfl
    · have stored := sound.live j other was alive
      rw [alone] at stored
      cases stored
  · intro j stored
    cases stored
    refine ⟨{ start with phase := .live, activated := failure.isNone, failure := failure }, ?_, rfl,
      current⟩
    change (binding.modifyStart i _).starts[i]? = _
    rw [getElem?_modifyStart, if_pos rfl, found]
    rfl
  · intro _
    exact ⟨bound, opened⟩
  · intro _ none_
    cases none_
  · intro was
    exact sound.disposed (disposed.symm.trans was)
  · intro j other at_j active here
    obtain ⟨old, was, ⟨rfl, rfl⟩ | ⟨-, rfl⟩⟩ := cases_ at_j
    · rfl
    · exact sound.activated j other was active here
  · intro j other at_j
    obtain ⟨old, was, ⟨rfl, rfl⟩ | ⟨-, rfl⟩⟩ := cases_ at_j
    · exact allowed
    · exact sound.no_repeat j other was

theorem Sound.subscribed
    (snapshot : KeyedSnapshot) : Sound (binding.subscribed i start.revision snapshot) := by
  unfold KeyedBinding.subscribed
  split
  · apply sound.setPhase found
    · rw [subscribing]
      decide
    · decide
  rename_i valid
  simp only [not_or, Bool.not_eq_true, Bool.not_eq_false, ne_eq, not_not] at valid
  obtain ⟨opened, bound, current⟩ := valid
  split
  · exact sound.record found subscribing current.symm opened bound rfl (by decide)
  -- The directory is empty: its instances come with a recorded subscription.
  have alone := sound.alone found subscribing current.symm
  have empty : binding.instances.entries = [] := by
    by_contra some_entry
    exact sound.entries some_entry alone
  have fresh : (install binding.instances snapshot.instances).2 ≠
      some (.directory .repeatedGeneration) := by
    apply install_fresh snapshot.keys_nodup
    intro e mem
    rw [empty] at mem
    cases mem
  have kept := install_keeps binding.instances snapshot.instances
  split
  · rename_i instances reason installed
    rw [installed] at fresh kept
    exact sound.record found subscribing current.symm opened bound kept.2 fresh
  · rename_i instances installed
    have none_failed : (none : Option StartFailure) ≠ some (.directory .repeatedGeneration) := by
      decide
    have disposed : instances.markReady.disposed = binding.instances.disposed := by
      rw [← kept.2, installed]
      rfl
    exact sound.record found subscribing current.symm opened bound disposed none_failed

end

theorem Sound.eraseWaiting (position : Nat) :
    Sound { binding with waiting := binding.waiting.eraseIdx position } := by
  have kept : ∀ waiting ∈ binding.waiting.eraseIdx position, waiting ∈ binding.waiting :=
    fun waiting mem => (eraseIdx_sublist _ _).subset mem
  refine { sound with
    waiting_le := ?_, waiting_nodup := ?_, rebind_waits := ?_, close_waits := ?_ }
  · exact fun waiting mem => sound.waiting_le waiting (kept waiting mem)
  · exact sound.waiting_nodup.sublist ((eraseIdx_sublist _ _).map Waiting.revision)
  · rintro ⟨waiting, mem, waits⟩
    exact sound.rebind_waits ⟨waiting, kept waiting mem, waits⟩
  · exact fun waiting mem => sound.close_waits waiting (kept waiting mem)

theorem Sound.not_rebindWaits (found : binding.waiting[position]? = some waiting)
    (current : binding.revision = waiting.revision) :
    ¬ RebindWaits { binding with waiting := binding.waiting.eraseIdx position } := by
  rintro ⟨other, mem, -, same⟩
  obtain ⟨index, different, at_index⟩ := List.mem_eraseIdx_iff_getElem?.mp mem
  have inside := (List.getElem?_eq_some_iff.mp at_index).1
  apply different
  apply (getElem?_inj (by rw [length_map]; exact inside) sound.waiting_nodup).mp
  rw [getElem?_map, getElem?_map, found, at_index]
  exact congrArg some (same.trans current)

theorem Sound.resumed (found : binding.waiting[position]? = some waiting) :
    Sound ({ binding with waiting := binding.waiting.eraseIdx position }.resumed waiting) := by
  have rest := sound.eraseWaiting position
  unfold KeyedBinding.resumed
  cases called : waiting.call with
  | close =>
    have closed : binding.closed = true :=
      sound.close_waits waiting (mem_of_getElem? found) called
    have emptied : binding.instances.dispose.entries ≠ [] → binding.subscription ≠ none := by
      unfold dispose
      split
      · exact sound.entries
      · intro some_entry
        exact absurd rfl some_entry
    exact { rest with entries := emptied, disposed := fun _ => closed }
  | rebind bound =>
    simp only
    split
    · exact rest
    rename_i valid
    simp only [not_or, ne_eq, not_not] at valid
    obtain ⟨-, current, -⟩ := valid
    split
    · rename_i go
      have waits : binding.RebindWaits :=
        ⟨waiting, mem_of_getElem? found, by rw [called, go.1], current.symm⟩
      exact rest.start (sound.rebind_waits waits) (sound.not_rebindWaits found current)
    · exact rest

/-- An update comes through the live subscription of the current revision. -/
theorem Sound.update (used : binding.subscription ≠ none)
    (change : InstanceChange) : Sound (binding.update change) := by
  unfold KeyedBinding.update
  split
  · exact sound
  rename_i opened
  cases change with
  | spawned snapshot =>
    simp only
    split
    · exact sound
    · rename_i instances spawned
      have kept := spawn_keeps spawned
      exact { sound with
        entries := fun _ => used
        disposed := fun was => sound.disposed (kept.2.symm.trans was) }
  | closed address =>
    have kept : (binding.instances.remove address.key address.generation).disposed =
        binding.instances.disposed := by
      unfold remove
      split
      · rfl
      split <;> rfl
    exact { sound with
      entries := fun _ => used
      disposed := fun was => sound.disposed (kept.symm.trans was) }

end

theorem close_closed (binding : KeyedBinding) : binding.close.closed = true := by
  unfold close
  split
  · assumption
  · rfl

theorem Observed.of_closed (closed : binding.closed = true) : Observed binding := by
  constructor
  · intro opened
    rw [closed] at opened
    cases opened
  · intro opened
    rw [closed] at opened
    cases opened

theorem reset_observers (d : InstanceDirectory Unit) : d.reset.observers = d.observers := by
  unfold InstanceDirectory.reset
  split <;> rfl

theorem closeSubscription_eq_nil {starts : List Start} {subscription : Option Nat} :
    closeSubscription starts subscription = [] ↔ starts = [] := by
  cases subscription with
  | none => rfl
  | some i => rw [closeSubscription, modify_eq_nil_iff]

theorem Observed.of_same {before after : KeyedBinding} (observed : Observed before)
    (closed : after.closed = false → before.closed = false)
    (starts : after.starts ≠ [] → before.starts ≠ [])
    (observers : after.instances.observers = before.instances.observers)
    (observing : after.observing = before.observing) : Observed after := by
  constructor
  · intro opened started
    rw [observers]
    exact observed.observers (closed opened) (starts started)
  · intro opened
    rw [observing, observers]
    exact observed.observing (closed opened)

theorem Observed.rebind (observed : Observed binding) (bound : Bool) :
    Observed (binding.rebind bound) := by
  unfold KeyedBinding.rebind
  split
  · exact observed
  · refine observed.of_same (fun opened => opened) ?_ (reset_observers binding.instances) rfl
    exact fun started none_ => started (closeSubscription_eq_nil.mpr none_)

theorem modifyStart_ne_nil (started : (binding.modifyStart i f).starts ≠ []) :
    binding.starts ≠ [] := by
  intro none_
  apply started
  rw [modifyStart, none_, modify_nil]

section

variable (observed : Observed binding) {observer : Nat}

include observed

theorem Observed.stop
    (returned : observer ∉ binding.observing) : Observed (binding.stop observer) := by
  unfold KeyedBinding.stop
  split
  · simp only
    split
    · exact .of_closed (close_closed _)
    · rename_i remaining
      constructor
      · intro _ _ none_
        apply remaining
        rw [observerCount, none_]
        rfl
      · intro opened other mem
        have different : other ≠ observer := by
          rintro rfl
          exact returned mem
        exact (mem_erase_of_ne different).mpr (observed.observing opened other mem)
  · exact observed

theorem Observed.observe : Observed binding.observe := by
  unfold KeyedBinding.observe
  split
  · exact observed
  · constructor
    · intro _ _
      exact append_ne_nil_of_right_ne_nil _ (cons_ne_nil _ _)
    · intro opened other mem
      obtain rfl | older := mem_cons.mp mem
      · exact mem_append_right _ mem_cons_self
      · exact mem_append_left _ (observed.observing opened other older)

theorem Observed.observeReturns {others : List Nat}
    (running : binding.observing = observer :: others) :
    Observed (binding.observeReturns others) := by
  have seen : binding.closed = false → binding.instances.observers ≠ [] := by
    intro opened
    have mem := observed.observing opened observer (by rw [running]; exact mem_cons_self)
    exact ne_nil_of_mem mem
  have later : binding.closed = false → ∀ other ∈ others, other ∈ binding.instances.observers :=
    fun opened other mem => observed.observing opened other
      (by rw [running]; exact mem_cons_of_mem _ mem)
  unfold KeyedBinding.observeReturns
  simp only
  split
  · exact ⟨fun opened _ => seen opened, later⟩
  · exact ⟨observed.observers, later⟩

theorem Observed.subscribed (i revision : Nat)
    (snapshot : KeyedSnapshot) : Observed (binding.subscribed i revision snapshot) := by
  have kept := install_keeps binding.instances snapshot.instances
  unfold KeyedBinding.subscribed
  split
  · exact observed.of_same (fun opened => opened) modifyStart_ne_nil rfl rfl
  split
  · exact observed.of_same (fun opened => opened) modifyStart_ne_nil rfl rfl
  split
  · rename_i instances reason installed
    rw [installed] at kept
    exact observed.of_same (fun opened => opened) modifyStart_ne_nil kept.1 rfl
  · rename_i instances installed
    rw [installed] at kept
    exact observed.of_same (fun opened => opened) modifyStart_ne_nil kept.1 rfl

theorem Observed.resumed (sound : Sound binding)
    (found : binding.waiting[position]? = some waiting) :
    Observed ({ binding with waiting := binding.waiting.eraseIdx position }.resumed waiting) := by
  unfold KeyedBinding.resumed
  cases called : waiting.call with
  | close =>
    exact .of_closed (sound.close_waits waiting (mem_of_getElem? found) called)
  | rebind bound =>
    simp only
    split
    · exact observed.of_same (fun opened => opened) (fun started => started) rfl rfl
    split
    · rename_i go
      refine ⟨fun _ _ => ?_, observed.observing⟩
      exact ne_nil_of_length_pos go.2
    · exact observed.of_same (fun opened => opened) (fun started => started) rfl rfl

theorem Observed.update (change : InstanceChange) : Observed (binding.update change) := by
  unfold KeyedBinding.update
  split
  · exact observed
  cases change with
  | spawned snapshot =>
    simp only
    split
    · exact observed
    · rename_i instances spawned
      exact observed.of_same (fun opened => opened) (fun started => started)
        (spawn_keeps spawned).1 rfl
  | closed address =>
    refine observed.of_same (fun opened => opened) (fun started => started) ?_ rfl
    simp only [remove]
    split
    · rfl
    split <;> rfl

end

theorem Sound.observeReturns (sound : Sound binding) (others : List Nat)
    (calm : ¬ binding.RebindWaits) : Sound (binding.observeReturns others) := by
  have returned : Sound { binding with observing := others } := { sound with }
  unfold KeyedBinding.observeReturns
  simp only
  split
  · rename_i starts
    exact returned.start starts.2 calm
  · exact returned

theorem Sound.stop (sound : Sound binding) (observer : Nat) : Sound (binding.stop observer) := by
  have stopped : Sound { binding with instances := binding.instances.unobserve observer } :=
    { sound with }
  unfold KeyedBinding.stop
  split
  · simp only
    split
    · exact stopped.close
    · exact stopped
  · exact sound

theorem Sound.observe (sound : Sound binding) : Sound binding.observe := by
  unfold KeyedBinding.observe
  split
  · exact sound
  · exact { sound with }

theorem step_keeps {next : KeyedBinding} {ev : Event} (sound : Sound binding)
    (observed : Observed binding) (calm : binding.Calm ev)
    (taken : binding.step ev = some next) : Sound next ∧ Observed next := by
  cases ev with
  | observe =>
    cases taken
    exact ⟨sound.observe, observed.observe⟩
  | observeReturns =>
    simp only [step] at taken
    split at taken
    · cases taken
    · rename_i observer others running
      cases taken
      exact ⟨sound.observeReturns others (calm rfl), observed.observeReturns running⟩
  | stop observer =>
    simp only [step] at taken
    split at taken
    · cases taken
    · rename_i returned
      cases taken
      exact ⟨sound.stop observer, observed.stop returned⟩
  | rebind bound =>
    cases taken
    exact ⟨sound.rebind bound, observed.rebind bound⟩
  | close =>
    cases taken
    exact ⟨sound.close, .of_closed (close_closed binding)⟩
  | subscribed i snapshot =>
    simp only [step] at taken
    split at taken
    · cases taken
    rename_i start found
    split at taken
    · rename_i ready
      cases taken
      exact ⟨sound.subscribed found ready.2 snapshot, observed.subscribed i _ snapshot⟩
    · cases taken
  | subscribeFailed i =>
    simp only [step] at taken
    split at taken
    · cases taken
    rename_i start found
    split at taken
    · rename_i ready
      cases taken
      refine ⟨sound.setPhase found ?_ (by decide), ?_⟩
      · rw [ready.2]
        decide
      · exact observed.of_same (fun opened => opened) modifyStart_ne_nil rfl rfl
    · cases taken
  | subscriptionClosed i ok =>
    simp only [step] at taken
    split at taken
    · cases taken
    rename_i start found
    split at taken
    · rename_i ready
      cases taken
      refine ⟨sound.setPhase found ?_ ?_, ?_⟩
      · rw [ready.2]
        decide
      · intro alive
        cases alive
      · exact observed.of_same (fun opened => opened) modifyStart_ne_nil rfl rfl
    · cases taken
  | resume position =>
    simp only [step] at taken
    split at taken
    · cases taken
    rename_i waiting found
    split at taken
    · cases taken
    split at taken
    · cases taken
    · cases taken
      exact ⟨sound.eraseWaiting position,
        observed.of_same (fun opened => opened) (fun started => started) rfl rfl⟩
    · cases taken
      exact ⟨sound.resumed found, observed.resumed sound found⟩
  | update i change =>
    simp only [step] at taken
    split at taken
    · cases taken
    rename_i start found
    split at taken
    · rename_i ready
      split at taken
      · rename_i current
        cases taken
        have alive := sound.activated i start found ready.2 current.symm
        have used : binding.subscription ≠ none := by
          rw [sound.live i start found alive]
          intro none_
          cases none_
        exact ⟨sound.update used change, observed.update change⟩
      · cases taken
        exact ⟨sound, observed⟩
    · cases taken

theorem sound_inductive (serviceId : String) :
    (machine serviceId).Inductive Calm fun binding => Sound binding ∧ Observed binding where
  start := by
    rintro binding ⟨bound, rfl⟩
    exact ⟨create_sound serviceId bound, create_observed serviceId bound⟩
  step := by
    rintro binding ev next ⟨sound, observed⟩ calm taken
    exact step_keeps sound observed calm taken

theorem Sound.oneLive (sound : Sound binding) (observed : Observed binding) : OneLive binding where
  recorded := sound.live
  only_if := by
    intro i start found alive
    have stored := sound.live i start found alive
    have used := sound.in_use (by rw [stored]; exact Option.some_ne_none i)
    refine ⟨used.1, used.2, observed.observers used.2 ?_⟩
    exact ne_nil_of_mem (mem_of_getElem? found)
  no_repeat := sound.no_repeat

/-- In every state of every run without an `observe` that looks whether to start
while a rebind waits, so at every quiescent one, at most the recorded subscription
is live. -/
theorem oneLive_of_calm {serviceId : String} {binding : KeyedBinding}
    (reached : (machine serviceId).Reached Calm binding) : OneLive binding := by
  obtain ⟨sound, observed⟩ := (sound_inductive serviceId).reached reached
  exact sound.oneLive observed

def sampleSnapshot : KeyedSnapshot where
  keyed := true
  serviceId := "jobs"
  instances := [{ address := some { key := "a", generation := 1 }, installs := true }]
  keys_nodup := by decide

theorem oneLive_of_calm_sample :
    ∃ binding, (machine "jobs").Reached Calm binding ∧ binding.subscription = some 1 ∧
      OneLive binding := by
  have started : (machine "jobs").Reached Calm (create "jobs" true) := .start ⟨true, rfl⟩
  have ran : Machine.exec (machine "jobs") Calm (create "jobs" true)
      [.observe, .observeReturns, .subscribed 0 sampleSnapshot, .rebind true,
        .subscriptionClosed 0 true, .resume 0, .subscribed 1 sampleSnapshot] = some _ := rfl
  exact ⟨_, started.exec ran, rfl, oneLive_of_calm (started.exec ran)⟩

/-- An observer that comes while a rebind waits for the old subscription to close:
both start, both subscriptions stay live, and the second snapshot repeats a live
generation. -/
theorem two_live_after_rebind :
    ∃ binding, (machine "jobs").Reached (fun _ _ => True) binding ∧ Quiescent binding ∧
      binding.starts[1]?.map Start.phase = some .live ∧
      binding.starts[2]?.map Start.phase = some .live ∧
      binding.starts[2]?.bind Start.failure = some (.directory .repeatedGeneration) ∧
      ¬ OneLive binding := by
  have started : (machine "jobs").Reached (fun _ _ => True) (create "jobs" true) :=
    .start ⟨true, rfl⟩
  have ran : Machine.exec (machine "jobs") (fun _ _ => True) (create "jobs" true)
      [.observe, .observeReturns, .subscribed 0 sampleSnapshot, .rebind true,
        .observe, .observeReturns, .subscriptionClosed 0 true, .resume 0,
        .subscribed 1 sampleSnapshot, .subscribed 2 sampleSnapshot] = some _ := rfl
  refine ⟨_, started.exec ran, ⟨rfl, rfl, by decide⟩, rfl, rfl, rfl, fun oneLive => ?_⟩
  have recorded := oneLive.recorded 1 _ rfl rfl
  cases recorded

end Trpi.Chord.Services.KeyedBinding
