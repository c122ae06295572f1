import Trpi.Session.StoreSafety

/-!
# What a fork holds

A branch fork copies the path from the requested entry to its root and moves the tip there. A
tree fork copies every entry and leaves the tips where they are. Neither keeps anything of an
operation.
-/

namespace Trpi.Session

open List Option Except

variable {β V N : Type}

variable {stored path : List (Entry β)} {start e : Entry β} {requested : Option String}
  {position : Option ForkPosition} {walk : ForkWalk}

theorem IsBranchPath.cases (isPath : IsBranchPath stored start path) :
    (path = [start] ∧ start.parentId = none) ∨
      ∃ parent above, path = start :: above ∧ start.parentId = some parent.id ∧
        IsBranchPath stored parent above := by
  obtain ⟨starts, linked, rooted, inside⟩ := isPath
  cases path with
  | nil => cases starts
  | cons head rest =>
    obtain rfl := some.inj starts
    cases rest with
    | nil => exact .inl ⟨rfl, rooted head rfl⟩
    | cons parent above =>
      obtain ⟨link, linked⟩ := isChain_cons_cons.mp linked
      refine .inr ⟨parent, parent :: above, rfl, link, rfl, linked, ?_, ?_⟩
      · intro last isLast
        exact rooted last (by rwa [getLast?_cons_cons])
      · intro e mem
        exact inside e (mem_cons_of_mem _ mem)

def visitAll (requested : Option String) (position : Option ForkPosition) (walk : ForkWalk)
    (path : List (Entry β)) : ForkWalk :=
  path.foldl (fun walk e => walk.visit requested position e.id e.parentId) walk

theorem visitAll_cons (requested : Option String) (position : Option ForkPosition)
    (walk : ForkWalk) (e : Entry β) (path : List (Entry β)) :
    visitAll requested position walk (e :: path) =
      visitAll requested position (walk.visit requested position e.id e.parentId) path :=
  rfl

theorem visitAll_append (requested : Option String) (position : Option ForkPosition)
    (walk : ForkWalk) (newer older : List (Entry β)) :
    visitAll requested position walk (newer ++ older) =
      visitAll requested position (visitAll requested position walk newer) older :=
  foldl_append

theorem walkAncestry_path {getParent : String → Option (Option String)}
    (parents : ∀ e ∈ stored, getParent e.id = some e.parentId)
    (isPath : IsBranchPath stored start path) {fuel : Nat} {last : ForkWalk}
    (ended : walkAncestry getParent requested position fuel (some start.id) walk = .ok last) :
    last = visitAll requested position walk path := by
  induction path generalizing start fuel walk with
  | nil => cases isPath.starts
  | cons head rest ih =>
    obtain rfl := some.inj isPath.starts
    cases fuel with
    | zero => cases ended
    | succ fuel =>
      rw [walkAncestry, parents head (isPath.stored head mem_cons_self)] at ended
      dsimp only at ended
      rcases isPath.cases with ⟨same, root⟩ | ⟨parent, above, same, link, later⟩
      · obtain rfl := (cons.inj same).2
        rw [root] at ended
        cases fuel with
        | zero =>
          rw [visitAll_cons, root]
          exact (ok.inj ended).symm
        | succ fuel =>
          rw [visitAll_cons, root]
          exact (ok.inj ended).symm
      · obtain rfl := (cons.inj same).2
        rw [link] at ended
        rw [visitAll_cons, link]
        exact ih later ended

theorem visitAll_newer (searching : walk.found = false)
    (absent : ∀ e ∈ path, some e.id ≠ requested) :
    visitAll requested position walk path = walk := by
  induction path with
  | nil => rfl
  | cons e path ih =>
    have here : walk.visit requested position e.id e.parentId = walk := by
      rw [ForkWalk.visit, if_neg (absent e mem_cons_self), searching]
      exact if_neg Bool.false_ne_true
    rw [visitAll_cons, here]
    exact ih fun later mem => absent later (mem_cons_of_mem _ mem)

theorem visitAll_older (met : walk.found = true) (absent : ∀ e ∈ path, some e.id ≠ requested) :
    visitAll requested position walk path =
      { walk with selected := walk.selected ++ path.map (·.id) } := by
  induction path generalizing walk with
  | nil => rw [map_nil, append_nil]; rfl
  | cons e path ih =>
    have here : walk.visit requested position e.id e.parentId =
        { walk with selected := walk.selected ++ [e.id] } := by
      rw [ForkWalk.visit, if_neg (absent e mem_cons_self), met]
      exact if_pos rfl
    have kept : ({ walk with selected := walk.selected ++ [e.id] } : ForkWalk).found = true :=
      met
    rw [visitAll_cons, here, ih kept fun later mem =>
      absent later (mem_cons_of_mem _ mem), append_assoc]
    rfl

/-- The entries of a path from the requested one on, or from its parent on. -/
def keptPath (position : Option ForkPosition) (e : Entry β) (older : List (Entry β)) :
    List (Entry β) :=
  if position = some .before then older else e :: older

theorem visitAll_requested {newer older : List (Entry β)} (searching : walk.found = false)
    (nothing : walk.selected = []) (absent : ∀ other ∈ newer ++ older, other.id ≠ e.id) :
    visitAll (some e.id) position walk (newer ++ e :: older) =
      { found := true
        destinationTip := if position = some .before then e.parentId else some e.id
        selected := (keptPath position e older).map (·.id) } := by
  have before : ∀ other ∈ newer, some other.id ≠ some e.id := fun other mem same =>
    absent other (mem_append_left _ mem) (some.inj same)
  have after : ∀ other ∈ older, some other.id ≠ some e.id := fun other mem same =>
    absent other (mem_append_right _ mem) (some.inj same)
  rw [visitAll_append, visitAll_newer searching before, visitAll_cons, ForkWalk.visit, if_pos rfl,
    keptPath]
  split
  · rw [visitAll_older rfl after, nothing]
    rfl
  · rw [visitAll_older rfl after, nothing]
    rfl

namespace InMemoryStorageState

variable {s : InMemoryStorageState β V N}

section

variable (inv : EntriesInvariant s.entries s.entriesBySeq s.nextSeq)

include inv

theorem path_decreasing {path : List (Entry β)} {start : Entry β}
    (isPath : IsBranchPath s.entriesBySeq start path) :
    path.Pairwise fun newer older => older.seq < newer.seq := by
  induction path generalizing start with
  | nil => exact .nil
  | cons head rest ih =>
    obtain rfl := some.inj isPath.starts
    rcases isPath.cases with ⟨same, -⟩ | ⟨parent, above, same, link, later⟩
    · obtain rfl := (cons.inj same).2
      exact pairwise_singleton _ _
    · obtain rfl := (cons.inj same).2
      have descending := ih later
      obtain ⟨found, stored, smaller⟩ := inv.parentBefore head
        (isPath.stored head mem_cons_self) parent.id link
      have first : parent ∈ rest := mem_of_mem_head? later.starts
      rw [inv.get?_of_mem (later.stored parent first)] at stored
      obtain rfl := some.inj stored
      refine pairwise_cons.mpr ⟨?_, descending⟩
      intro older mem
      cases rest with
      | nil => cases mem
      | cons top rest =>
        obtain rfl := some.inj later.starts
        rcases mem_cons.mp mem with rfl | mem
        · exact smaller
        · exact Nat.lt_trans (rel_of_pairwise_cons descending mem) smaller

theorem id_inj {one other : Entry β} (inside : one ∈ s.entriesBySeq)
    (within : other ∈ s.entriesBySeq) (same : one.id = other.id) : one = other := by
  have found := inv.get?_of_mem inside
  rw [same, inv.get?_of_mem within] at found
  exact (some.inj found).symm

theorem filter_descending {chain : List (Entry β)} (inside : ∀ e ∈ chain, e ∈ s.entriesBySeq)
    (descending : chain.Pairwise fun newer older => older.seq < newer.seq) :
    (s.entriesBySeq.filter fun e => e.id ∈ chain.map (·.id)) = chain.reverse := by
  have ascending : chain.reverse.Pairwise fun older newer => older.seq < newer.seq :=
    pairwise_reverse.mpr descending
  have stored := inv.increasing.filter fun e => decide (e.id ∈ chain.map (·.id))
  have distinct : ∀ {entries : List (Entry β)},
      entries.Pairwise (fun older newer => older.seq < newer.seq) → entries.Nodup := by
    intro entries sorted
    refine sorted.imp ?_
    rintro older newer less rfl
    exact Nat.lt_irrefl _ less
  refine List.Perm.eq_of_pairwise ?_ stored ascending
    ((perm_ext_iff_of_nodup (distinct stored) (distinct ascending)).mpr ?_)
  · intro one other _ _ less more
    exact absurd more (Nat.lt_asymm less)
  · intro e
    rw [mem_filter, mem_reverse, decide_eq_true_eq]
    constructor
    · rintro ⟨mem, named⟩
      obtain ⟨other, listed, same⟩ := mem_map.mp named
      rwa [← id_inj inv (inside other listed) mem same]
    · intro listed
      exact ⟨inside e listed, mem_map_of_mem listed⟩

end

end InMemoryStorageState

/-- The path from a tip to its root, newest first. -/
def Ancestry (stored : List (Entry β)) : Option String → List (Entry β) → Prop
  | none, path => path = []
  | some id, path => ∃ start, start.id = id ∧ IsBranchPath stored start path

/-- What is kept of a path: from the requested entry on, or from the one before it on. -/
def KeptFrom (position : Option ForkPosition) :
    Option String → List (Entry β) → List (Entry β) → Prop
  | none, _, kept => kept = []
  | some id, path, kept => ∃ newer e older, path = newer ++ e :: older ∧ e.id = id ∧
    kept = keptPath position e older

theorem Ancestry.mem {tip : Option String} (ancestry : Ancestry stored tip path)
    (mem : e ∈ path) : e ∈ stored := by
  cases tip with
  | none =>
    rw [ancestry] at mem
    cases mem
  | some id =>
    obtain ⟨start, -, isPath⟩ := ancestry
    exact isPath.stored e mem

theorem KeptFrom.sublist {kept : List (Entry β)} (keeps : KeptFrom position requested path kept) :
    kept.Sublist path := by
  cases requested with
  | none =>
    rw [keeps]
    exact nil_sublist path
  | some id =>
    obtain ⟨newer, e, older, rfl, -, rfl⟩ := keeps
    refine List.Sublist.trans ?_ (sublist_append_right newer (e :: older))
    rw [keptPath]
    split
    · exact sublist_cons_self e older
    · exact List.Sublist.refl _

theorem IsBranchPath.parent_of_split {newer older : List (Entry β)}
    (isPath : IsBranchPath stored start (newer ++ e :: older)) :
    e.parentId = older.head?.map (·.id) := by
  induction newer generalizing start with
  | nil =>
    rcases isPath.cases with ⟨same, root⟩ | ⟨parent, above, same, link, later⟩
    · obtain ⟨rfl, rfl⟩ := cons.inj same
      exact root
    · obtain ⟨rfl, rfl⟩ := cons.inj same
      rw [link, later.starts]
      rfl
  | cons head newer ih =>
    rcases isPath.cases with ⟨same, -⟩ | ⟨parent, above, same, -, later⟩
    · exact absurd (cons.inj same).2 (by simp)
    · rw [← (cons.inj same).2] at later
      exact ih later

namespace InMemoryStorageState

variable {s : InMemoryStorageState β V N}

theorem ids_nodup (inv : EntriesInvariant s.entries s.entriesBySeq s.nextSeq)
    {path : List (Entry β)} {start : Entry β}
    (isPath : IsBranchPath s.entriesBySeq start path) : (path.map (·.id)).Nodup := by
  have descending := path_decreasing inv isPath
  refine pairwise_map.mpr (descending.imp_of_mem ?_)
  intro newer older inside within less same
  rw [id_inj inv (isPath.stored newer inside) (isPath.stored older within) same] at less
  exact Nat.lt_irrefl _ less

theorem walkAncestry_kept
    (inv : EntriesInvariant s.entries s.entriesBySeq s.nextSeq)
    {fuel : Nat} {tip entryId : Option String} {position : Option ForkPosition} {last : ForkWalk}
    (ended : walkAncestry (fun id => (s.entries.get? id).map (·.parentId)) (entryId.or tip)
      position fuel tip
      { found := (entryId.or tip).isNone, destinationTip := none, selected := [] } = .ok last)
    (found : last.found = true) :
    ∃ path kept, Ancestry s.entriesBySeq tip path ∧
      KeptFrom position (entryId.or tip) path kept ∧
      last.destinationTip = kept.head?.map (·.id) ∧ last.selected = kept.map (·.id) := by
  cases tip with
  | none =>
    cases fuel with
    | zero =>
      cases ended
      cases entryId with
      | none => exact ⟨[], [], rfl, rfl, rfl, rfl⟩
      | some id => cases found
    | succ fuel =>
      cases ended
      cases entryId with
      | none => exact ⟨[], [], rfl, rfl, rfl, rfl⟩
      | some id => cases found
  | some tipId =>
    have known : ∃ start, s.entries.get? tipId = some start := by
      cases fuel with
      | zero => cases ended
      | succ fuel =>
        rw [walkAncestry] at ended
        cases stored : s.entries.get? tipId with
        | none =>
          rw [stored] at ended
          cases ended
        | some start => exact ⟨start, rfl⟩
    obtain ⟨start, stored⟩ := known
    have inside := inv.mem_of_get? stored
    obtain rfl := inv.keyed tipId start stored
    obtain ⟨path, isPath, -⟩ :=
      branchPath_reaches_root inv start.seq start inside (Nat.le_refl _)
    have parents : ∀ e ∈ s.entriesBySeq,
        (s.entries.get? e.id).map (·.parentId) = some e.parentId := by
      intro e mem
      rw [inv.get?_of_mem mem]
      rfl
    have visited := walkAncestry_path parents isPath ended
    obtain ⟨requested, wanted⟩ : ∃ requested, entryId.or (some start.id) = some requested := by
      cases entryId with
      | none => exact ⟨start.id, rfl⟩
      | some id => exact ⟨id, rfl⟩
    rw [wanted] at visited ⊢
    by_cases listed : requested ∈ path.map (·.id)
    · obtain ⟨e, onPath, rfl⟩ := mem_map.mp listed
      obtain ⟨newer, older, rfl⟩ := append_of_mem onPath
      have distinct := ids_nodup inv isPath
      have absent : ∀ other ∈ newer ++ older, other.id ≠ e.id := by
        intro other mem same
        rw [map_append, map_cons, nodup_append] at distinct
        obtain ⟨-, later, apart⟩ := distinct
        rcases mem_append.mp mem with before | after
        · exact apart other.id (mem_map_of_mem before) e.id mem_cons_self same
        · exact (nodup_cons.mp later).1 (same ▸ mem_map_of_mem after)
      rw [visitAll_requested rfl rfl absent] at visited
      refine ⟨_, keptPath position e older, ⟨start, rfl, isPath⟩,
        ⟨newer, e, older, rfl, rfl, rfl⟩, ?_, ?_⟩
      · rw [visited, keptPath]
        dsimp only
        split
        · exact isPath.parent_of_split
        · rfl
      · rw [visited]
    · have absent : ∀ e ∈ path, some e.id ≠ some requested := by
        intro e mem same
        exact listed (mem_map.mpr ⟨e, mem, some.inj same⟩)
      rw [visitAll_newer rfl absent] at visited
      rw [visited] at found
      cases found

end InMemoryStorageState

section Policy

variable [ForkValue V]

/-- The namespaces of operations, their pending payloads and their results. -/
def ofOperation (ns : String) : Bool :=
  ns = "pi.result" || hasPrefix "pi.op." ns || hasPrefix "pi.pending." ns

/-- What a branch fork may keep. -/
def OfBranch (branch : String) (copied : String → Prop) (ns key : String) : Prop :=
  ns = "pi.session.name" ∨ (ns = "pi.entry.label" ∧ copied key) ∨
    (ns ∈ ["pi.branch.tip", "pi.lane.config", "pi.lane.state"] ∧ key = branch)

structure KeptRow (plan : ForkCurrentStatePlan) (copied : String → Bool) (ns key : String)
    (stored kept : V) : Prop where
  operation : ofOperation ns = false
  idle : ns = "pi.lane.state" → kept = ForkValue.idleLaneState
  branch : ∀ branch destinationTip, plan = .branch branch destinationTip →
    OfBranch branch (copied · = true) ns key
  same : ns ≠ "pi.branch.tip" ∨ plan = .tree → ns ≠ "pi.lane.state" → kept = stored

variable {copied : String → Bool} {key ns : String} {plan : ForkCurrentStatePlan}

theorem project_kept {stored kept : V}
    (projected : projectForkCurrentState plan copied ns key stored = .ok (some kept)) :
    KeptRow plan copied ns key stored kept := by
  unfold projectForkCurrentState at projected
  split at projected
  · subst ns
    cases projected
    exact ⟨by decide, fun other => absurd other (by decide), fun _ _ _ => .inl rfl, fun _ _ => rfl⟩
  split at projected
  · subst ns
    split at projected
    · rename_i mem
      cases projected
      exact ⟨by decide, fun other => absurd other (by decide),
        fun _ _ _ => .inr (.inl ⟨rfl, mem⟩), fun _ _ => rfl⟩
    · cases projected
  split at projected
  · subst ns
    refine ⟨by decide, fun other => absurd other (by decide), ?_, ?_⟩
    · rintro branch destinationTip rfl
      dsimp only at projected
      split at projected
      · rename_i same
        exact .inr (.inr ⟨by decide, same⟩)
      · cases projected
    · rintro (other | rfl) -
      · exact absurd rfl other
      · cases projected
        rfl
  split at projected
  · subst ns
    refine ⟨by decide, fun other => absurd other (by decide), ?_, ?_⟩
    · rintro branch destinationTip rfl
      dsimp only at projected
      split at projected
      · rename_i same
        exact .inr (.inr ⟨by decide, same⟩)
      · cases projected
    · intro _ _
      cases plan with
      | tree =>
        cases projected
        rfl
      | branch branch destinationTip =>
        dsimp only at projected
        split at projected
        · cases projected
          rfl
        · cases projected
  split at projected
  · subst ns
    refine ⟨by decide, ?_, ?_, fun _ other => absurd rfl other⟩
    · intro _
      cases plan with
      | tree =>
        cases projected
        rfl
      | branch branch destinationTip =>
        dsimp only at projected
        split at projected
        · cases projected
          rfl
        · cases projected
    · rintro branch destinationTip rfl
      dsimp only at projected
      split at projected
      · rename_i same
        exact .inr (.inr ⟨by decide, same⟩)
      · cases projected
  rename_i notState
  split at projected
  · cases projected
  rename_i notResult
  split at projected
  · cases projected
  rename_i notOperation
  split at projected
  · cases projected
  refine ⟨?_, fun other => absurd other notState, ?_, ?_⟩
  · rw [Bool.or_eq_true, not_or, Bool.not_eq_true, Bool.not_eq_true] at notOperation
    rw [ofOperation, decide_eq_false notResult, notOperation.1, notOperation.2]
    rfl
  · rintro branch destinationTip rfl
    cases projected
  · intro _ _
    cases plan with
    | tree =>
      cases projected
      rfl
    | branch branch destinationTip => cases projected

theorem project_label (stored : V) (mem : copied key = true) :
    projectForkCurrentState plan copied "pi.entry.label" key stored = .ok (some stored) := by
  unfold projectForkCurrentState
  rw [if_neg (by decide), if_pos rfl, if_pos mem]

theorem project_tip {branch : String} {destinationTip : Option String} (stored : V) :
    projectForkCurrentState (.branch branch destinationTip) copied "pi.branch.tip" branch stored =
      .ok (some (ForkValue.ofTip destinationTip)) := by
  unfold projectForkCurrentState
  rw [if_neg (by decide), if_neg (by decide), if_pos rfl]
  exact congrArg ok (if_pos rfl)

theorem project_tree {stored : V} {outcome : Option V} (mem : copied key = true)
    (plain : ofOperation ns = false)
    (projected : projectForkCurrentState .tree copied ns key stored = .ok outcome) :
    ∃ kept, outcome = some kept := by
  rw [ofOperation, Bool.or_eq_false_iff, Bool.or_eq_false_iff, decide_eq_false_iff_not] at plain
  unfold projectForkCurrentState at projected
  rw [mem] at projected
  split at projected
  · exact ⟨_, (ok.inj projected).symm⟩
  split at projected
  · exact ⟨_, (ok.inj projected).symm⟩
  split at projected
  · exact ⟨_, (ok.inj projected).symm⟩
  split at projected
  · exact ⟨_, (ok.inj projected).symm⟩
  split at projected
  · exact ⟨_, (ok.inj projected).symm⟩
  split at projected
  · rename_i result
    exact absurd result plain.1.1
  split at projected
  · rename_i operation
    rw [plain.1.2, plain.2] at operation
    cases operation
  split at projected
  · cases projected
  · exact ⟨_, (ok.inj projected).symm⟩

end Policy

namespace InMemoryStorageState

variable [ForkValue V]

def storedTip (s : InMemoryStorageState β V N) (branch : String) : Option (Option String) :=
  match value "pi.branch.tip" branch with
  | .ok address => (s.getValue address).bind fun stored => ForkValue.toTip stored.value
  | .error _ => none

def HasEntry (s : InMemoryStorageState β V N) (id : String) : Prop :=
  ∃ e ∈ s.entriesBySeq, e.id = id

/-- Nothing of an operation is there, and the lanes are idle. -/
structure IdleState (s : InMemoryStorageState β V N) : Prop where
  scalars : ∀ address stored, s.getValue address = some stored →
    ofOperation address.ns = false ∧
      (address.ns = "pi.lane.state" → stored.value = ForkValue.idleLaneState)
  lists : ∀ address, ∀ element ∈ s.listElements address,
    ofOperation address.ns = false ∧
      (address.ns = "pi.lane.state" → element.value = ForkValue.idleLaneState)
  usage : s.usage = .empty

structure BranchFork (source forked : InMemoryStorageState β V N) (branch : String)
    (entryId : Option String) (position : Option ForkPosition) : Prop where
  entries : ∃ tip path kept, source.storedTip branch = some tip ∧
    Ancestry source.entriesBySeq tip path ∧ KeptFrom position (entryId.or tip) path kept ∧
    forked.entriesBySeq = kept.reverse
  tip : forked.storedTip branch = some (forked.entriesBySeq.getLast?.map (·.id))
  scalars : ∀ address stored, forked.getValue address = some stored →
    OfBranch branch forked.HasEntry address.ns address.key
  lists : ∀ address, ∀ element ∈ forked.listElements address,
    OfBranch branch forked.HasEntry address.ns address.key

structure TreeFork (source forked : InMemoryStorageState β V N) : Prop where
  entries : forked.entriesBySeq = source.entriesBySeq
  scalars : ∀ address, address.ns ≠ "pi.entry.label" → ofOperation address.ns = false →
    address.ns ≠ "pi.lane.state" → forked.getValue address = source.getValue address

/-- What every fork satisfies, whatever it copies. -/
structure ForkClosed (source forked : InMemoryStorageState β V N) : Prop where
  parents : ∀ e ∈ forked.entriesBySeq, ∀ parentId, e.parentId = some parentId →
    forked.HasEntry parentId
  idle : IdleState forked
  labels : ∀ address, address.ns = "pi.entry.label" → forked.HasEntry address.key →
    forked.getValue address = source.getValue address

variable {plan : ForkCurrentStatePlan} {copied : String → Bool}

theorem keptScalar_ok {stored : StoredValue V} {kept : V}
    (projected : projectForkCurrentState plan copied stored.address.ns stored.address.key
      stored.value = .ok (some kept)) :
    keptScalar plan copied stored = some { stored with value := kept } := by
  rw [keptScalar, projectScalar, projected]
  rfl

theorem keptScalar_row {stored kept : StoredValue V}
    (isKept : keptScalar plan copied stored = some kept) :
    KeptRow plan copied stored.address.ns stored.address.key stored.value kept.value ∧
      kept = { stored with value := kept.value } := by
  rw [keptScalar, projectScalar] at isKept
  cases projected : projectForkCurrentState plan copied stored.address.ns stored.address.key
      stored.value with
  | error reason =>
    rw [projected] at isKept
    cases isKept
  | ok outcome =>
    rw [projected] at isKept
    cases outcome with
    | none => cases isKept
    | some v =>
      cases isKept
      exact ⟨project_kept projected, rfl⟩

theorem keptElement_row {address : ValueList} {element kept : ListElement V}
    (isKept : keptElement plan copied address element = some kept) :
    KeptRow plan copied address.ns address.key element.value kept.value := by
  rw [keptElement, projectElement] at isKept
  cases projected : projectForkCurrentState plan copied address.ns address.key element.value with
  | error reason =>
    rw [projected] at isKept
    cases isKept
  | ok outcome =>
    rw [projected] at isKept
    cases outcome with
    | none => cases isKept
    | some v =>
      cases isKept
      exact project_kept projected

section Closure

variable [Add N] [Zero N] {source forked : InMemoryStorageState β V N}
  {plan : ForkCurrentStatePlan} {copied : String → Bool}

section

variable (isFork : IsFork source forked plan copied)

include isFork

omit [Add N] in
theorem IsFork.hasEntry {id : String} :
    forked.HasEntry id ↔ source.HasEntry id ∧ copied id = true := by
  constructor
  · rintro ⟨e, mem, rfl⟩
    rw [isFork.bySeq] at mem
    obtain ⟨stored, isCopied⟩ := mem_filter.mp mem
    exact ⟨⟨e, stored, rfl⟩, isCopied⟩
  · rintro ⟨⟨e, stored, rfl⟩, isCopied⟩
    refine ⟨e, ?_, rfl⟩
    rw [isFork.bySeq]
    exact mem_filter.mpr ⟨stored, isCopied⟩

theorem IsFork.scalar_row (inv : StoreInvariant source) {address : Value} {stored : StoredValue V}
    (found : forked.getValue address = some stored) :
    ∃ row, source.getValue address = some row ∧ row.address = address ∧
      KeptRow plan copied address.ns address.key row.value stored.value ∧
      stored = { row with value := stored.value } := by
  rw [isFork.scalars] at found
  obtain ⟨row, here, isKept⟩ := bind_eq_some_iff.mp found
  have named : row.address = address :=
    Address.physicalKey_inj.mp (inv.scalars.keyed _ row here)
  obtain ⟨kept, same⟩ := keptScalar_row isKept
  rw [named] at kept
  exact ⟨row, here, named, kept, same⟩

omit [Add N] in
theorem IsFork.list_row {address : ValueList}
    {element : ListElement V} (inside : element ∈ forked.listElements address) :
    ∃ row, KeptRow plan copied address.ns address.key row element.value := by
  rw [isFork.lists] at inside
  obtain ⟨row, -, isKept⟩ := mem_filterMap.mp inside
  exact ⟨row.value, keptElement_row isKept⟩

theorem IsFork.closed (inv : StoreInvariant source) : ForkClosed source forked where
  parents := by
    intro e mem parentId link
    obtain ⟨parent, found, -⟩ := isFork.entries.parentBefore e mem parentId link
    exact ⟨parent, isFork.entries.mem_of_get? found, isFork.entries.keyed parentId parent found⟩
  idle := by
    refine ⟨?_, ?_, isFork.usage⟩
    · intro address stored found
      obtain ⟨row, -, -, kept, -⟩ := isFork.scalar_row inv found
      exact ⟨kept.operation, kept.idle⟩
    · intro address element inside
      obtain ⟨row, kept⟩ := isFork.list_row inside
      exact ⟨kept.operation, kept.idle⟩
  labels := by
    intro address label mem
    obtain ⟨-, isCopied⟩ := isFork.hasEntry.mp mem
    rw [isFork.scalars]
    cases found : source.getValue address with
    | none => rfl
    | some row =>
      have named : row.address = address :=
        Address.physicalKey_inj.mp (inv.scalars.keyed _ row found)
      refine keptScalar_ok ?_
      rw [named, label]
      exact project_label row.value isCopied

end

section

variable (inv : StoreInvariant source) {entryId : Option String} {branch : String}

include inv

theorem selectForkPlan_branch {position : Option ForkPosition} {selected : List String}
    (planned : source.selectForkPlan (.branch branch entryId position) = .ok (plan, selected)) :
    ∃ address tip path kept, value "pi.branch.tip" branch = .ok address ∧
      source.storedTip branch = some tip ∧ Ancestry source.entriesBySeq tip path ∧
      KeptFrom position (entryId.or tip) path kept ∧
      plan = .branch branch (kept.head?.map (·.id)) ∧ selected = kept.map (·.id) := by
  rw [selectForkPlan] at planned
  split at planned
  · rename_i tipAddress configAddress stateAddress bound _ _
    split at planned
    · cases planned
    rename_i destinationTip chosen selects
    split at planned
    · cases planned
    cases planned
    unfold selectBranchFork at selects
    split at selects
    · cases selects
    rename_i stored present
    split at selects
    · cases selects
    rename_i tip readable
    dsimp only at selects
    split at selects
    · cases selects
    rename_i last ended
    split at selects
    · rename_i met
      cases selects
      obtain ⟨path, kept, ancestry, keptFrom, tipped, ids⟩ :=
        walkAncestry_kept inv.entries ended met
      refine ⟨tipAddress, tip, path, kept, bound, ?_, ancestry, keptFrom, ?_, ids⟩
      · obtain ⟨row, here, same⟩ := map_eq_some_iff.mp present
        rw [storedTip, bound]
        dsimp only
        rw [here, bind_some, same]
        exact readable
      · rw [tipped]
    · cases selects
  · cases planned
  · cases planned
  · cases planned

omit [ForkValue V] in
theorem ancestry_descending {tip : Option String} {path : List (Entry β)} (ancestry : Ancestry source.entriesBySeq tip path) :
    path.Pairwise fun newer older => older.seq < newer.seq := by
  cases tip with
  | none =>
    rw [ancestry]
    exact .nil
  | some id =>
    obtain ⟨start, -, isPath⟩ := ancestry
    exact path_decreasing inv.entries isPath

theorem createFork_branch {position : Option ForkPosition}
    (created : source.createFork (.branch branch entryId position) = .ok forked) :
    BranchFork source forked branch entryId position := by
  obtain ⟨plan, selected, planned, isFork⟩ := createFork_isFork inv created
  obtain ⟨address, tip, path, kept, bound, stored, ancestry, keeps, rfl, rfl⟩ :=
    selectForkPlan_branch inv planned
  have entries : forked.entriesBySeq = kept.reverse := by
    rw [isFork.bySeq]
    exact filter_descending inv.entries
      (fun e mem => ancestry.mem (keeps.sublist.subset mem))
      ((ancestry_descending inv ancestry).sublist keeps.sublist)
  have allowed : ∀ {ns key : String} {row value : V},
      KeptRow (.branch branch (kept.head?.map (·.id)))
        (isEntryCopied (.branch branch (kept.head?.map (·.id))) (kept.map (·.id)))
        ns key row value → OfBranch branch forked.HasEntry ns key := by
    intro ns key row value keptRow
    rcases keptRow.branch branch _ rfl with name | ⟨label, mem⟩ | own
    · exact .inl name
    · refine .inr (.inl ⟨label, ?_⟩)
      obtain ⟨e, inside, same⟩ := mem_map.mp (of_decide_eq_true mem)
      exact ⟨e, entries ▸ mem_reverse.mpr inside, same⟩
    · exact .inr (.inr own)
  refine ⟨⟨tip, path, kept, stored, ancestry, keeps, entries⟩, ?_, ?_, ?_⟩
  · obtain ⟨named, keyed⟩ := value_ok bound
    rw [storedTip, bound] at stored ⊢
    dsimp only at stored ⊢
    obtain ⟨row, here, -⟩ := bind_eq_some_iff.mp stored
    have own : row.address = address :=
      Address.physicalKey_inj.mp (inv.scalars.keyed _ row here)
    have moved : projectForkCurrentState (.branch branch (kept.head?.map (·.id)))
        (isEntryCopied (.branch branch (kept.head?.map (·.id))) (kept.map (·.id)))
        row.address.ns row.address.key row.value =
          .ok (some (ForkValue.ofTip (kept.head?.map (·.id)))) := by
      rw [own, named, keyed]
      exact project_tip row.value
    rw [isFork.scalars, here, bind_some, keptScalar_ok moved, bind_some,
      ForkValue.toTip_ofTip, entries, getLast?_reverse]
  · intro address row found
    obtain ⟨source, -, -, keptRow, -⟩ := isFork.scalar_row inv found
    exact allowed keptRow
  · intro address element inside
    obtain ⟨row, keptRow⟩ := isFork.list_row inside
    exact allowed keptRow

theorem createFork_tree
    (created : source.createFork .tree = .ok forked) : TreeFork source forked := by
  obtain ⟨plan, selected, planned, isFork⟩ := createFork_isFork inv created
  obtain ⟨rfl, rfl⟩ := Prod.mk.inj (ok.inj planned)
  have projects := ((createFork_succeeds_iff planned).mp ⟨forked, created⟩).1
  constructor
  · rw [isFork.bySeq]
    exact filter_eq_self.mpr fun _ _ => rfl
  · intro address notLabel plain notState
    rw [isFork.scalars]
    cases found : source.getValue address with
    | none => rfl
    | some row =>
      have named : row.address = address :=
        Address.physicalKey_inj.mp (inv.scalars.keyed _ row found)
      obtain ⟨outcome, projected⟩ :=
        projects row ((source.scalarValues.mem_values_iff row).mpr ⟨_, found⟩)
      rw [projectScalar, named] at projected
      cases ran : projectForkCurrentState .tree (isEntryCopied .tree []) address.ns address.key
          row.value with
      | error reason =>
        rw [ran] at projected
        cases projected
      | ok result =>
        obtain ⟨kept, rfl⟩ := project_tree rfl plain ran
        have same := (project_kept ran).same (.inr rfl) notState
        rw [same] at ran
        rw [bind_some]
        refine keptScalar_ok ?_
        rw [named]
        exact ran

end

/-- A fork is closed under parents, holds no label of an entry it lacks unless it is of a tree,
and nothing of an operation; a branch fork holds the path to the requested entry. -/
theorem createFork_closure (source forked : InMemoryStorageState β V N) (opts : ForkOptions)
    (inv : StoreInvariant source) (created : source.createFork opts = .ok forked) :
    ForkClosed source forked ∧
      (opts = .tree → TreeFork source forked) ∧
      ∀ branch entryId position, opts = .branch branch entryId position →
        BranchFork source forked branch entryId position := by
  obtain ⟨plan, selected, planned, isFork⟩ := createFork_isFork inv created
  refine ⟨isFork.closed inv, ?_, ?_⟩
  · rintro rfl
    exact createFork_tree inv created
  · rintro branch entryId position rfl
    exact createFork_branch inv created

end Closure

end InMemoryStorageState

def newEntry (id : String) (parentId : Option String) : NewEntry Unit :=
  { id, parentId, type := .message, customType := none, body := () }

def twoBranchWrites : List (Write Unit (Option String) Nat) :=
  [.entry (newEntry "e1" none), .entry (newEntry "e2" (some "e1")),
    .entry (newEntry "e3" (some "e1")), .valueSet "pi.branch.tip" "a" (some "e2"),
    .valueSet "pi.branch.tip" "b" (some "e3"), .valueSet "pi.lane.config" "a" none,
    .valueSet "pi.lane.state" "a" (some "running"), .valueSet "pi.entry.label" "e2" (some "left"),
    .valueSet "pi.entry.label" "e3" (some "right"), .valueSet "pi.result" "o1" none]

def twoBranches : InMemoryStorageState Unit (Option String) Nat :=
  (InMemoryStorageState.initial.commit twoBranchWrites 7).1

theorem twoBranches_invariant : StoreInvariant twoBranches :=
  InMemoryStorageState.commit_invariant initial_invariant twoBranchWrites 7

theorem createFork_closure_sample : ∃ forked,
    twoBranches.createFork (.branch "a" (some "e2") (some .before)) = .ok forked ∧
      InMemoryStorageState.BranchFork twoBranches forked "a" (some "e2") (some .before) := by
  have created : (twoBranches.createFork (.branch "a" (some "e2") (some .before))).toOption.isSome =
      true := by decide +kernel
  cases ran : twoBranches.createFork (.branch "a" (some "e2") (some .before)) with
  | error reason =>
    rw [ran] at created
    cases created
  | ok forked =>
    exact ⟨forked, rfl, (InMemoryStorageState.createFork_closure twoBranches forked _
      twoBranches_invariant ran).2.2 _ _ _ rfl⟩

/-- A tree fork copies every entry and leaves the tips where they are: its entries are no path,
and a tip is not the last of them. -/
theorem createFork_tree_keeps_all : ∃ forked,
    twoBranches.createFork .tree = .ok forked ∧
      (∀ tip path, Ancestry twoBranches.entriesBySeq tip path →
        forked.entriesBySeq ≠ path.reverse) ∧
      forked.storedTip "a" ≠ some (forked.entriesBySeq.getLast?.map (·.id)) := by
  have created : (twoBranches.createFork .tree).toOption.map (fun forked =>
      (forked.entriesBySeq.map (fun e => (e.id, e.parentId)), forked.storedTip "a")) =
        some ([("e1", none), ("e2", some "e1"), ("e3", some "e1")], some (some "e2")) := by
    decide +kernel
  cases ran : twoBranches.createFork .tree with
  | error reason =>
    rw [ran] at created
    cases created
  | ok forked =>
    rw [ran] at created
    obtain ⟨entries, tip⟩ := Prod.mk.inj (Option.some.inj created)
    refine ⟨forked, rfl, ?_, ?_⟩
    · intro tip path ancestry same
      rw [same, List.map_reverse, List.reverse_eq_iff] at entries
      obtain ⟨child, above, rfl, third, rest⟩ := List.map_eq_cons_iff.mp entries
      obtain ⟨parent, older, rfl, second, -⟩ := List.map_eq_cons_iff.mp rest
      cases tip with
      | none => cases ancestry
      | some id =>
        obtain ⟨start, -, isPath⟩ := ancestry
        have link := (List.isChain_cons_cons.mp isPath.linked).1
        rw [(Prod.mk.inj third).2, (Prod.mk.inj second).1] at link
        exact absurd link (by decide)
    · have last : forked.entriesBySeq.getLast?.map (·.id) =
          (forked.entriesBySeq.map (fun e => (e.id, e.parentId))).getLast?.map
            Prod.fst := by
        rw [List.getLast?_map, Option.map_map]
        rfl
      rw [tip, last, entries]
      decide

end Trpi.Session
