import Trpi.CodingAgent.SessionManager
import Trpi.Library.Cycles
import Trpi.Library.JsonInt

/-!
# Walks and trees of loaded sessions

Nothing checks the parents in a file. The walk along parents and the loop that sorts the tree have
no bound, so each is run for a number of rounds and has no result when they do not suffice. An
entry that is its own parent is a root of the tree, but the walk never leaves it.
-/

namespace Trpi.CodingAgent

open Library List Relation SessionIndex

variable {N : Type}

def walkWithin (index : EntryIndex N) : Nat → FileEntry N → Option (List (FileEntry N))
  | 0, _ => none
  | rounds + 1, current =>
    match parentOf index current with
    | none => some [current]
    | some parent => (walkWithin index rounds parent).map (current :: ·)

/-- `id ? index.get(id) : undefined`. -/
def LeafId.find (index : EntryIndex N) : LeafId → Option (FileEntry N)
  | .entry id => if id = "" then none else index.get? (some id)
  | _ => none

def pathWithin (index : EntryIndex N) (rounds : Nat) :
    Option (FileEntry N) → Option (List (FileEntry N))
  | none => some []
  | some leaf => (walkWithin index rounds leaf).map List.reverse

def buildSessionPathWithin (rounds : Nat) (entries : List (FileEntry N)) (leafId : LeafId)
    (index : EntryIndex N) : Option (List (FileEntry N)) :=
  if leafId = .null then some []
  else pathWithin index rounds ((leafId.find index).or entries.getLast?)

namespace SessionManager

def getBranchWithin (rounds : Nat) (m : SessionManager N) (fromId : Option String) :
    Option (List (FileEntry N)) :=
  pathWithin m.byId rounds (((fromId.map LeafId.entry).getD m.leafId).find m.byId)

def buildSessionContextWithin [JsonNumber N] (rounds : Nat) (time : Option (Json N) → Json N)
    (m : SessionManager N) : Option (SessionContext N) :=
  (buildSessionPathWithin rounds m.entries m.leafId m.byId).map fun path =>
    { messages := (contextEntriesOf path).flatMap (sessionEntryToContextMessages time)
      settings := getSessionContextSettings path }

end SessionManager

structure SessionTreeNode (N : Type) where
  entry : FileEntry N
  label : Option (Json N)
  labelTimestamp : Option (Option (Json N))

structure SessionForest (N : Type) where
  nodes : InsertionMap (Option String) (SessionTreeNode N)
  roots : List (Option String)
  children : Option String → List (Option String)

/-- How the host sorts the children of a node by their timestamps, whatever these are. -/
structure ChildSort where
  sort : List (Option String) → List (Option String)
  perm : ∀ children, (sort children).Perm children

/-- The node that an entry is put below; a root has none. -/
def treeParent (nodes : InsertionMap (Option String) (SessionTreeNode N)) (entry : FileEntry N) :
    Option (Option String) :=
  match entry.get "parentId" with
  | some .null => none
  | _ =>
    if entry.parentId = entry.id then none
    else if (nodes.get? entry.parentId).isSome then some entry.parentId else none

def SessionForest.put (tree : SessionForest N) (entry : FileEntry N) : SessionForest N :=
  match treeParent tree.nodes entry with
  | none => { tree with roots := tree.roots ++ [entry.id] }
  | some parent =>
    { tree with
      children := Function.update tree.children parent (tree.children parent ++ [entry.id]) }

/-- The loop over the stack, whose top is the last one. -/
def sortWithin (order : ChildSort) : Nat → List (Option String) →
    (Option String → List (Option String)) → Option (Option String → List (Option String))
  | 0, _, _ => none
  | rounds + 1, stack, children =>
    match stack.getLast? with
    | none => some children
    | some node =>
      let sorted := order.sort (children node)
      sortWithin order rounds (stack.dropLast ++ sorted) (Function.update children node sorted)

namespace SessionManager

def treeNodes (m : SessionManager N) : InsertionMap (Option String) (SessionTreeNode N) :=
  m.entries.foldl (fun nodes entry => nodes.set entry.id
    ⟨entry, m.labelsById.get? entry.id, m.labelTimestampsById.get? entry.id⟩) .empty

def buildTree (m : SessionManager N) : SessionForest N :=
  m.entries.foldl .put { nodes := m.treeNodes, roots := [], children := fun _ => [] }

def getTreeWithin (order : ChildSort) (rounds : Nat) (m : SessionManager N) :
    Option (SessionForest N) :=
  (sortWithin order rounds m.buildTree.roots m.buildTree.children).map fun children =>
    { m.buildTree with children }

end SessionManager

/-- A node is found from the roots. -/
inductive SessionForest.Has (tree : SessionForest N) : Option String → Prop
  | root {id : Option String} : id ∈ tree.roots → Has tree id
  | child {parent id : Option String} : Has tree parent → id ∈ tree.children parent → Has tree id

/-- The tree has the entry's node, which holds the entry unless another one has its id. -/
def SessionForest.Shows (tree : SessionForest N) (entries : List (FileEntry N)) (e : FileEntry N) : Prop :=
  tree.Has e.id ∧ ∃ node, tree.nodes.get? e.id = some node ∧
    ((∀ other ∈ entries, other.id = e.id → other = e) → node.entry = e)

namespace SessionManager

/-- Every loop ends, and the tree has all entries. -/
structure Tolerates [JsonNumber N] (order : ChildSort) (time : Option (Json N) → Json N)
    (m : SessionManager N) : Prop where
  branch : ∀ fromId, ∃ rounds path, m.getBranchWithin rounds fromId = some path
  context : ∃ rounds context, m.buildSessionContextWithin rounds time = some context
  tree : ∃ rounds tree, m.getTreeWithin order rounds = some tree ∧
    ∀ e ∈ m.entries, tree.Shows m.entries e

/-- Some entry with the first id is put below the second. -/
def Link (m : SessionManager N) (child parent : Option String) : Prop :=
  ∃ e ∈ m.entries, e.id = child ∧ treeParent m.treeNodes e = some parent

/-- No links go round, and no entry is the parent that its walk goes on with. -/
structure Untangled (m : SessionManager N) : Prop where
  links : ∀ id, ¬ TransGen m.Link id id
  parents : ∀ id e, m.byId.get? id = some e → parentOf m.byId e ≠ some e

end SessionManager

def lastOf (entries : List (FileEntry N)) (id : Option String) : Option (FileEntry N) :=
  entries.reverse.find? (·.id = id)

variable {entries : List (FileEntry N)} {e other : FileEntry N} {id : Option String}

theorem lastOf_some (found : lastOf entries id = some e) : e ∈ entries ∧ e.id = id :=
  ⟨mem_reverse.mp (mem_of_find?_eq_some found), by simpa using find?_some found⟩

theorem lastOf_isSome (mem : e ∈ entries) : ∃ last, lastOf entries e.id = some last :=
  Option.isSome_iff_exists.mp (find?_isSome.mpr ⟨e, mem_reverse.mpr mem, by simp⟩)

theorem lastOf_getLast (last : entries.getLast? = some e) : lastOf entries e.id = some e := by
  obtain ⟨front, rfl⟩ := getLast?_eq_some_iff.mp last
  simp [lastOf]

theorem get?_foldl_set {V : Type} (f : FileEntry N → V) (entries : List (FileEntry N))
    (id : Option String) :
    (entries.foldl (fun (m : InsertionMap (Option String) V) e => m.set e.id (f e)) .empty).get? id =
      (lastOf entries id).map f := by
  induction entries using reverseRecOn with
  | nil => rfl
  | append_singleton front e ih =>
    rw [foldl_append, foldl_cons, foldl_nil, InsertionMap.get?_set, lastOf, reverse_append,
      reverse_singleton, singleton_append, find?_cons, ih]
    by_cases same : e.id = id
    · simp [same]
    · simp [same, lastOf]

namespace SessionManager

variable {m : SessionManager N} {parent : Option String}

def Indexed (m : SessionManager N) : Prop := ∀ id, m.byId.get? id = lastOf m.entries id

theorem byId_build [JsonNumber N] (entries : List (FileEntry N)) :
    (build entries).byId =
      (entries.filter fun e => !e.isSession).foldl (fun index e => index.set e.id e) .empty := by
  induction entries using reverseRecOn with
  | nil => rfl
  | append_singleton front e ih =>
    rw [build, foldl_append, foldl_cons, foldl_nil, filter_append, foldl_append, ← ih]
    by_cases plain : e.isSession = true
    · rw [add, if_pos plain]
      simp [plain, build]
    · have session := Bool.eq_false_iff.mpr plain
      rw [byId_add _ session]
      simp [session, build]

theorem indexed_of_build [JsonNumber N]
    (built : m.toSessionIndex = build m.fileEntries) :
    m.Indexed := by
  intro id
  have found := get?_foldl_set (fun e => e) m.entries id
  rw [Option.map_id'] at found
  rw [built, byId_build, ← found]
  rfl

theorem indexed_openFile [JsonNumber N] {sources : Nat → IdSource} {header : FileEntry N} {bytes : List UInt8}
    {s : OpenSession N} (session : header.isSession = true)
    (opened : OpenSession.openFile sources header bytes = some s) : s.manager.Indexed := by
  apply indexed_of_build
  unfold OpenSession.openFile at opened
  dsimp only at opened
  split at opened
  · split at opened
    · cases opened
      simp [newSession, build, add, session]
    · cases opened
  · cases opened
    unfold loadEntries
    split
    · rfl
    · rfl

theorem treeNodes_get? (m : SessionManager N) (id : Option String) :
    m.treeNodes.get? id = (lastOf m.entries id).map fun e =>
      ⟨e, m.labelsById.get? e.id, m.labelTimestampsById.get? e.id⟩ :=
  get?_foldl_set _ m.entries id

theorem foldl_put (entries : List (FileEntry N)) (tree : SessionForest N) :
    (entries.foldl .put tree).nodes = tree.nodes ∧
      (∀ id, id ∈ (entries.foldl .put tree).roots ↔
        id ∈ tree.roots ∨ ∃ e ∈ entries, e.id = id ∧ treeParent tree.nodes e = none) ∧
      ∀ id parent, id ∈ (entries.foldl .put tree).children parent ↔ id ∈ tree.children parent ∨
        ∃ e ∈ entries, e.id = id ∧ treeParent tree.nodes e = some parent := by
  induction entries generalizing tree with
  | nil => simp
  | cons e entries ih =>
    obtain ⟨nodes, roots, children⟩ := ih (tree.put e)
    rw [foldl_cons]
    cases at_ : treeParent tree.nodes e with
    | none =>
      have put : tree.put e = ⟨tree.nodes, tree.roots ++ [e.id], tree.children⟩ := by
        rw [SessionForest.put, at_]
      rw [put] at nodes roots children ⊢
      refine ⟨nodes, fun id => ?_, fun id parent => ?_⟩
      · rw [roots]
        simp [at_, or_assoc, eq_comm]
      · rw [children]
        simp [at_]
    | some above =>
      have put : tree.put e = ⟨tree.nodes, tree.roots,
          Function.update tree.children above (tree.children above ++ [e.id])⟩ := by
        rw [SessionForest.put, at_]
      rw [put] at nodes roots children ⊢
      refine ⟨nodes, fun id => ?_, fun id parent => ?_⟩
      · rw [roots]
        simp [at_]
      · rw [children]
        by_cases same : parent = above
        · simp [same, at_, or_assoc, eq_comm]
        · simp [Function.update_of_ne same, at_, Ne.symm same]

theorem mem_roots : id ∈ m.buildTree.roots ↔
    ∃ e ∈ m.entries, e.id = id ∧ treeParent m.treeNodes e = none := by
  simpa [buildTree] using (foldl_put m.entries ⟨m.treeNodes, [], fun _ => []⟩).2.1 id

theorem mem_children : id ∈ m.buildTree.children parent ↔ m.Link id parent := by
  simpa [buildTree, Link] using (foldl_put m.entries ⟨m.treeNodes, [], fun _ => []⟩).2.2 id parent

theorem buildTree_nodes (m : SessionManager N) : m.buildTree.nodes = m.treeNodes :=
  (foldl_put m.entries ⟨m.treeNodes, [], fun _ => []⟩).1

theorem Link.known (link : m.Link id parent) :
    (∃ e ∈ m.entries, e.id = id) ∧ ∃ e ∈ m.entries, e.id = parent := by
  obtain ⟨e, mem, same, above⟩ := link
  refine ⟨⟨e, mem, same⟩, ?_⟩
  unfold treeParent at above
  split at above
  · cases above
  split at above
  · cases above
  split at above
  · rename_i known
    cases above
    rw [treeNodes_get?, Option.isSome_map] at known
    obtain ⟨last, found⟩ := Option.isSome_iff_exists.mp known
    exact ⟨last, lastOf_some found⟩
  · cases above

end SessionManager

section

variable {order : ChildSort} {rounds : Nat} {stack : List (Option String)}
  {base children result : Option String → List (Option String)}

theorem perm_update (perm : ∀ id, (children id).Perm (base id)) (node id : Option String) :
    (Function.update children node (order.sort (children node)) id).Perm (base id) := by
  by_cases same : id = node
  · rw [same, Function.update_self]
    exact (order.perm _).trans (perm node)
  · rw [Function.update_of_ne same]
    exact perm id

theorem sortWithin_acc (perm : ∀ id, (children id).Perm (base id))
    (ended : sortWithin order rounds stack children = some result) :
    (∀ id ∈ stack, Acc (fun child parent => child ∈ base parent) id) ∧
      ∀ id, (result id).Perm (base id) := by
  induction rounds generalizing stack children with
  | zero => cases ended
  | succ rounds ih =>
    rcases eq_nil_or_concat stack with rfl | ⟨front, node, rfl⟩
    · cases ended
      exact ⟨fun id mem => (by cases mem), perm⟩
    · rw [concat_eq_append] at ended ⊢
      rw [sortWithin, getLast?_concat, dropLast_concat] at ended
      obtain ⟨acc, kept⟩ := ih (perm_update perm node) ended
      refine ⟨fun id mem => ?_, kept⟩
      rcases mem_append.mp mem with early | last
      · exact acc id (mem_append_left _ early)
      · obtain rfl := mem_singleton.mp last
        refine ⟨_, fun child below => acc child (mem_append_right _ ?_)⟩
        exact ((order.perm _).trans (perm id)).mem_iff.mpr below

def SortEnds (order : ChildSort) (base : Option String → List (Option String))
    (stack : List (Option String)) : Prop :=
  ∀ children, (∀ id, (children id).Perm (base id)) →
    ∃ rounds result, sortWithin order rounds stack children = some result

theorem sortEnds_snoc (acc : Acc (fun child parent => child ∈ base parent) id)
    (ends : SortEnds order base stack) : SortEnds order base (stack ++ [id]) := by
  induction acc generalizing stack with
  | intro id _ ih =>
    intro children perm
    have below : ∀ sorted : List (Option String), (∀ child ∈ sorted, child ∈ base id) →
        SortEnds order base (stack ++ sorted) := by
      intro sorted within
      induction sorted using reverseRecOn with
      | nil => rwa [append_nil]
      | append_singleton front child before =>
        rw [← append_assoc]
        refine ih child (within child (by simp)) (before fun other mem => within other ?_)
        exact mem_append_left _ mem
    obtain ⟨rounds, result, ended⟩ := below (order.sort (children id))
      (fun child mem => ((order.perm _).trans (perm id)).mem_iff.mp mem) _ (perm_update perm id)
    refine ⟨rounds + 1, result, ?_⟩
    rw [sortWithin, getLast?_concat, dropLast_concat]
    exact ended

theorem sortEnds_of_acc (acc : ∀ id ∈ stack, Acc (fun child parent => child ∈ base parent) id) :
    SortEnds order base stack := by
  induction stack using reverseRecOn with
  | nil => exact fun children _ => ⟨1, children, rfl⟩
  | append_singleton front id ih =>
    exact sortEnds_snoc (acc id (by simp)) (ih fun other mem => acc other (mem_append_left _ mem))

end

namespace SessionManager

variable {m : SessionManager N} {index : EntryIndex N} {order : ChildSort}

/-- Whatever is found from the roots has no endless links below it when the sorting ends. -/
theorem acc_of_has {rounds : Nat} {tree : SessionForest N}
    (sorted : m.getTreeWithin order rounds = some tree) (has : tree.Has id) : Acc m.Link id := by
  obtain ⟨children, ended, rfl⟩ := Option.map_eq_some_iff.mp sorted
  obtain ⟨acc, perm⟩ := sortWithin_acc (fun _ => .rfl) ended
  simp only [mem_children] at acc
  induction has with
  | root mem => exact acc _ mem
  | child _ mem above => exact above.inv (mem_children.mp ((perm _).mem_iff.mp mem))

theorem walkWithin_self (own : parentOf index e = some e) (rounds : Nat) :
    walkWithin index rounds e = none := by
  induction rounds with
  | zero => rfl
  | succ rounds ih =>
    rw [walkWithin, own]
    dsimp only
    rw [ih]
    rfl

theorem parentOf_some (above : parentOf index e = some other) :
    ∃ parentId, e.parentId = some parentId ∧ parentId ≠ "" ∧
      index.get? (some parentId) = some other := by
  unfold parentOf at above
  split at above
  · cases above
  · rename_i parentId named
    split at above
    · cases above
    · rename_i nonempty
      exact ⟨parentId, named, nonempty, above⟩

theorem untangled_of_tolerates [JsonNumber N] {time : Option (Json N) → Json N}
    (tolerates : m.Tolerates order time) : m.Untangled := by
  constructor
  · intro id cycle
    obtain ⟨rounds, tree, sorted, shows⟩ := tolerates.tree
    obtain ⟨next, link, -⟩ := TransGen.head'_iff.mp cycle
    obtain ⟨e, mem, rfl⟩ := link.known.1
    have acc := (acc_of_has sorted (shows e mem).1).transGen
    generalize e.id = id at cycle acc
    induction acc with
    | intro id _ ih => exact ih id cycle cycle
  · intro id e found own
    obtain ⟨parentId, named, nonempty, known⟩ := parentOf_some own
    obtain ⟨rounds, path, ended⟩ := tolerates.branch (some parentId)
    rw [getBranchWithin, Option.map_some, Option.getD_some, LeafId.find, if_neg nonempty, known,
      pathWithin, walkWithin_self own] at ended
    cases ended

section

variable (indexed : m.Indexed) (untangled : m.Untangled)

include untangled

theorem founded_up : WellFounded (flip m.Link) := by
  apply wellFounded_of_acyclic (finite_toSet (m.entries.map FileEntry.id)) _ untangled.links
  intro child parent link
  obtain ⟨e, mem, same⟩ := link.known.1
  exact mem_map.mpr ⟨e, mem, same⟩

theorem founded_down : WellFounded m.Link := by
  apply wellFounded_of_acyclic (r := flip m.Link) (finite_toSet (m.entries.map FileEntry.id))
  · intro parent child link
    obtain ⟨e, mem, same⟩ := Link.known link |>.2
    exact mem_map.mpr ⟨e, mem, same⟩
  · intro id cycle
    exact untangled.links id (transGen_swap.mp cycle)

theorem has_of_untangled {tree : SessionForest N} (roots : tree.roots = m.buildTree.roots)
    (perm : ∀ id, (tree.children id).Perm (m.buildTree.children id)) (mem : e ∈ m.entries) :
    tree.Has e.id := by
  generalize same : e.id = id
  induction id using (founded_up untangled).induction generalizing e with
  | _ id ih =>
    cases at_ : treeParent m.treeNodes e with
    | none => exact .root (roots ▸ mem_roots.mpr ⟨e, mem, same, at_⟩)
    | some parent =>
      have link : m.Link id parent := ⟨e, mem, same, at_⟩
      obtain ⟨above, known, is⟩ := link.known.2
      exact .child (ih parent link known is) ((perm parent).mem_iff.mpr (mem_children.mpr link))

include indexed

theorem walkWithin_ends (known : m.byId.get? e.id = some e) :
    ∃ rounds path, walkWithin m.byId rounds e = some path := by
  generalize same : e.id = id
  induction id using (founded_up untangled).induction generalizing e with
  | _ id ih =>
    cases above : parentOf m.byId e with
    | none => exact ⟨1, [e], by rw [walkWithin, above]⟩
    | some parent =>
      obtain ⟨parentId, named, -, found⟩ := parentOf_some above
      have last := found
      rw [indexed] at last
      obtain ⟨-, is⟩ := lastOf_some last
      have other : some parentId ≠ e.id := by
        intro own
        rw [own, known] at found
        exact untangled.parents e.id e known (above.trans found.symm)
      have link : m.Link id (some parentId) := by
        refine ⟨e, (lastOf_some ((indexed _).symm.trans known)).1, same, ?_⟩
        have text : e.get "parentId" ≠ some .null := by
          intro null
          rw [FileEntry.parentId, FileEntry.string, null] at named
          cases named
        unfold treeParent
        split
        · exact absurd ‹_› text
        · rw [named, if_neg other, treeNodes_get?, last]
          rfl
      obtain ⟨rounds, path, ended⟩ := ih _ link (by rw [is]; exact found) is
      exact ⟨rounds + 1, e :: path, by rw [walkWithin, above]; dsimp only; rw [ended]; rfl⟩

theorem pathWithin_ends {start : Option (FileEntry N)}
    (known : ∀ leaf ∈ start, m.byId.get? leaf.id = some leaf) :
    ∃ rounds path, pathWithin m.byId rounds start = some path := by
  cases start with
  | none => exact ⟨0, [], rfl⟩
  | some leaf =>
    obtain ⟨rounds, path, ended⟩ := walkWithin_ends indexed untangled (known leaf rfl)
    exact ⟨rounds, path.reverse, by rw [pathWithin, ended]; rfl⟩

omit untangled in
theorem find_known (leafId : LeafId) (leaf : FileEntry N) (found : leafId.find m.byId = some leaf) :
    m.byId.get? leaf.id = some leaf := by
  unfold LeafId.find at found
  split at found
  · split at found
    · cases found
    · rw [(lastOf_some ((indexed _).symm.trans found)).2]
      exact found
  · cases found

theorem tolerates_of_untangled [JsonNumber N] (order : ChildSort)
    (time : Option (Json N) → Json N) : m.Tolerates order time := by
  constructor
  · exact fun fromId => pathWithin_ends indexed untangled (find_known indexed _)
  · unfold buildSessionContextWithin buildSessionPathWithin
    by_cases null : m.leafId = .null
    · exact ⟨0, _, by rw [if_pos null]; rfl⟩
    have known : ∀ leaf ∈ (m.leafId.find m.byId).or m.entries.getLast?,
        m.byId.get? leaf.id = some leaf := by
      intro leaf found
      rcases Option.or_eq_some_iff.mp found with there | ⟨-, last⟩
      · exact find_known indexed _ leaf there
      · rw [indexed, lastOf_getLast last]
    obtain ⟨rounds, path, ended⟩ := pathWithin_ends indexed untangled known
    exact ⟨rounds, _, by rw [if_neg null, ended]; rfl⟩
  · obtain ⟨rounds, children, ended⟩ := @sortEnds_of_acc order m.buildTree.roots _
      (fun id _ => (funext₂ fun child parent => propext mem_children :
        (fun child parent => child ∈ m.buildTree.children parent) = m.Link) ▸
          (founded_down untangled).apply id) m.buildTree.children fun _ => .rfl
    refine ⟨rounds, { m.buildTree with children }, by rw [getTreeWithin, ended]; rfl,
      fun e mem => ⟨has_of_untangled untangled rfl (sortWithin_acc (fun _ => .rfl) ended).2 mem, ?_⟩⟩
    obtain ⟨last, found⟩ := lastOf_isSome mem
    obtain ⟨there, is⟩ := lastOf_some found
    refine ⟨⟨last, m.labelsById.get? last.id, m.labelTimestampsById.get? last.id⟩, ?_,
      fun unique => unique last there is⟩
    rw [buildTree_nodes, treeNodes_get?, found]
    rfl

end

def plainHeader : FileEntry Int := sessionHeader "s" "2026-01-01" "/" none

/-- Children of one time stay as they are. -/
def keepOrder : ChildSort := ⟨fun children => children, fun _ => .rfl⟩

def ownParent : FileEntry Int :=
  ⟨.ofMembers [("type", some (.str "message")), ("id", some (.str "a")),
    ("parentId", some (.str "a"))]⟩

end SessionManager

end Trpi.CodingAgent
