import Trpi.Chord.Facets.Providers
import Trpi.Library.Cycles

/-!
# The activation order of facets

The dependencies are what the facets need of each other. A facet is ready when no dependency of it
is left, so a facet that never gets ready has a dependency that never does.
-/

namespace Trpi.Chord.Facets

open Trpi.Chord.Services (ServiceMode)
open Library Relation OrderState FacetShape List

/-- The graph has these dependencies, in both of its maps. -/
structure FacetGraph.Holds (graph : FacetGraph) (needs : String → String → Prop) : Prop where
  dependencies : ∀ id other, other ∈ graph.dependencies id ↔ needs id other
  dependents : ∀ id other, id ∈ graph.dependents other ↔ needs id other
  dependencies_nodup : ∀ id, (graph.dependencies id).Nodup
  dependents_nodup : ∀ id, (graph.dependents id).Nodup

variable {members : List String}

theorem mem_addMember {id other : String} :
    other ∈ addMember members id ↔ other ∈ members ∨ other = id := by
  unfold addMember
  split
  · rename_i inside
    constructor
    · exact .inl
    · rintro (before | rfl)
      · exact before
      · exact inside
  · simp

theorem nodup_addMember (nodup : members.Nodup) (id : String) : (addMember members id).Nodup := by
  unfold addMember
  split
  · exact nodup
  · rename_i fresh
    rw [nodup_append]
    refine ⟨nodup, nodup_singleton id, ?_⟩
    rintro other inside _ last rfl
    exact fresh (mem_singleton.mp last ▸ inside)

variable {needs : String → String → Prop} {providers : Providers}
  {items : List (String × FacetServiceReference)}

theorem FacetGraph.Holds.link {graph : FacetGraph} (holds : graph.Holds needs)
    (facetId provider : String) :
    (graph.link facetId provider).Holds fun id other =>
      needs id other ∨ (id = facetId ∧ other = provider) where
  dependencies id other := by
    rw [FacetGraph.link]
    by_cases same : id = facetId
    · simp [same, mem_addMember, holds.dependencies]
    · simp [same, holds.dependencies]
  dependents id other := by
    rw [FacetGraph.link]
    by_cases same : other = provider
    · simp [same, mem_addMember, holds.dependents]
    · simp [same, holds.dependents]
  dependencies_nodup id := by
    rw [FacetGraph.link]
    by_cases same : id = facetId
    · simp only [same, Function.update_self]
      exact nodup_addMember (holds.dependencies_nodup facetId) provider
    · simp only [Function.update_of_ne same]
      exact holds.dependencies_nodup id
  dependents_nodup id := by
    rw [FacetGraph.link]
    by_cases same : id = provider
    · simp only [same, Function.update_self]
      exact nodup_addMember (holds.dependents_nodup provider) facetId
    · simp only [Function.update_of_ne same]
      exact holds.dependents_nodup id

/-- A requirement of a facet is met by this other facet. -/
def MetBy (providers : Providers) (item : String × FacetServiceReference) (id other : String) :
    Prop :=
  item.1 = id ∧ other ≠ id ∧
    ∃ mode, providers item.2.serviceId = some { facetId := some other, mode }

theorem addRequirement_ok_iff {facetId : String} {graph : FacetGraph}
    {requirement : FacetServiceReference} :
    (∃ after, addRequirement providers facetId graph requirement = .ok after) ↔
      ∃ facet,
        providers requirement.serviceId = some { facetId := facet, mode := requirement.mode } := by
  unfold addRequirement
  cases found : providers requirement.serviceId with
  | none => simp
  | some provider =>
    obtain ⟨facet, mode⟩ := provider
    by_cases same : mode = requirement.mode
    · subst same
      cases facet with
      | none => simp
      | some other => by_cases own : other = facetId <;> simp [own]
    · simp [same]

theorem addRequirement_holds {facetId : String} {graph after : FacetGraph}
    {requirement : FacetServiceReference} (holds : graph.Holds needs)
    (ok : addRequirement providers facetId graph requirement = .ok after) :
    after.Holds fun id other =>
      needs id other ∨ MetBy providers (facetId, requirement) id other := by
  have unchanged (nothing : ∀ id other, ¬ MetBy providers (facetId, requirement) id other) :
      graph.Holds fun id other =>
        needs id other ∨ MetBy providers (facetId, requirement) id other := by
    simpa [nothing] using holds
  unfold addRequirement at ok
  split at ok
  · cases ok
  · rename_i provider found
    split at ok
    · cases ok
    · split at ok
      · rename_i host
        cases ok
        refine unchanged ?_
        rintro id other ⟨-, -, mode, met⟩
        rw [show providers requirement.serviceId = _ from met] at found
        cases found
        cases host
      · rename_i other facet
        split at ok
        · rename_i own
          cases ok
          refine unchanged ?_
          rintro id other' ⟨rfl, apart, mode, met⟩
          rw [show providers requirement.serviceId = _ from met] at found
          cases found
          cases facet
          exact apart own
        · rename_i apart
          cases ok
          have linked := holds.link facetId other
          have same : ∀ id other', (id = facetId ∧ other' = other) ↔
              MetBy providers (facetId, requirement) id other' := by
            intro id other'
            constructor
            · rintro ⟨rfl, rfl⟩
              refine ⟨rfl, apart, provider.mode, found.trans ?_⟩
              rw [← facet]
            · rintro ⟨rfl, -, mode, met⟩
              rw [show providers requirement.serviceId = _ from met] at found
              cases found
              cases facet
              exact ⟨rfl, rfl⟩
          simpa only [same] using linked

theorem requirements_hold
    {graph after : FacetGraph} (holds : graph.Holds needs)
    (ok : items.foldlM (fun graph item => addRequirement providers item.1 graph item.2) graph =
      .ok after) :
    after.Holds fun id other => needs id other ∨ ∃ item ∈ items, MetBy providers item id other := by
  induction items generalizing graph needs with
  | nil =>
    cases ok
    simpa using holds
  | cons item items ih =>
    rw [foldlM_cons] at ok
    cases added : addRequirement providers item.1 graph item.2 with
    | error error =>
      rw [added] at ok
      cases ok
    | ok middle =>
      rw [added] at ok
      have later := ih (addRequirement_holds holds added) ok
      simpa only [exists_mem_cons_iff, or_assoc] using later

theorem requirements_ok_iff {graph : FacetGraph} :
    (∃ after, items.foldlM (fun graph item => addRequirement providers item.1 graph item.2) graph =
      .ok after) ↔ ∀ item ∈ items, ∃ facet,
        providers item.2.serviceId = some { facetId := facet, mode := item.2.mode } := by
  induction items generalizing graph with
  | nil => simp [pure, Except.pure]
  | cons item items ih =>
    rw [foldlM_cons, forall_mem_cons]
    cases added : addRequirement providers item.1 graph item.2 with
    | error error =>
      have unmet : ¬ ∃ facet,
          providers item.2.serviceId = some { facetId := facet, mode := item.2.mode } := by
        rw [← @addRequirement_ok_iff providers item.1 graph item.2, added]
        simp
      constructor
      · rintro ⟨after, ok⟩
        cases ok
      · rintro ⟨met, -⟩
        exact absurd met unmet
    | ok middle =>
      have met := addRequirement_ok_iff.mp ⟨middle, added⟩
      exact ih.trans ⟨fun others => ⟨met, others⟩, And.right⟩

section

variable {graph : FacetGraph} {ids : List String} {needs : String → String → Prop} {s : OrderState}
  {id : String}

/-- The dependencies that are not in the order yet are counted, and a facet is in the order or
ready when there are none. -/
structure Ordered (graph : FacetGraph) (ids : List String) (state : OrderState) : Prop where
  nodup : (state.order ++ state.ready).Nodup
  known : ∀ id ∈ state.order ++ state.ready, id ∈ ids
  remaining : ∀ id, state.remaining id =
    ((graph.dependencies id).filter fun other => other ∉ state.order).length
  zero : ∀ id ∈ ids, id ∈ state.order ++ state.ready ↔ state.remaining id = 0
  before : ∀ front id back, state.order = front ++ id :: back →
    ∀ other ∈ graph.dependencies id, other ∈ front

theorem foldl_countDown {dependents : List String} (nodup : dependents.Nodup) (s : OrderState) :
    (∀ id, (dependents.foldl countDown s).remaining id =
      s.remaining id - if id ∈ dependents then 1 else 0) ∧
    (dependents.foldl countDown s).ready =
      s.ready ++ dependents.filter (fun id => s.remaining id = 1) ∧
    (dependents.foldl countDown s).order = s.order := by
  induction dependents generalizing s with
  | nil => simp
  | cons dependent dependents ih =>
    obtain ⟨fresh, nodup⟩ := nodup_cons.mp nodup
    obtain ⟨remaining, ready, order⟩ := ih nodup (s.countDown dependent)
    rw [foldl_cons]
    refine ⟨fun id => ?_, ?_, order⟩
    · rw [remaining, countDown]
      by_cases same : id = dependent
      · subst same
        simp [fresh]
      · simp [same]
    · have others : dependents.filter (fun id => (s.countDown dependent).remaining id = 1) =
          dependents.filter fun id => s.remaining id = 1 := by
        refine filter_congr fun id inside => ?_
        have apart : id ≠ dependent := fun same => fresh (same ▸ inside)
        simp [countDown, apart]
      rw [ready, others, filter_cons, countDown]
      by_cases last : s.remaining dependent = 1
      · simp [last]
      · have left : s.remaining dependent - 1 ≠ 0 := by omega
        simp [last, left]

theorem filter_order_length {dependencies order : List String} (nodup : dependencies.Nodup)
    (fresh : id ∉ order) :
    ((dependencies.filter fun other => other ∉ order ++ [id]).length : Int) =
      (dependencies.filter fun other => other ∉ order).length -
        if id ∈ dependencies then 1 else 0 := by
  induction dependencies with
  | nil => simp
  | cons dependency dependencies ih =>
    obtain ⟨once, nodup⟩ := nodup_cons.mp nodup
    have rest := ih nodup
    by_cases same : dependency = id
    · subst same
      simp only [once, if_false] at rest
      simp [fresh] at rest ⊢
      omega
    · have apart : id ≠ dependency := Ne.symm same
      by_cases placed : dependency ∈ order <;>
        simp [placed, same, apart] at rest ⊢ <;> omega

section

variable (holds : graph.Holds needs) (within : ∀ id other, needs id other → id ∈ ids ∧ other ∈ ids)

include holds within

theorem Ordered.round (ordered : Ordered graph ids s)
    {ready : List String} (next : s.ready = id :: ready) :
    Ordered graph ids ((graph.dependents id).foldl countDown
      { s with ready, order := s.order ++ [id] }) := by
  obtain ⟨remaining, readied, order⟩ := foldl_countDown (holds.dependents_nodup id)
    { s with ready, order := s.order ++ [id] }
  dsimp only at remaining readied order
  have whole := ordered.nodup
  have known := ordered.known
  rw [next] at whole known
  have fresh : id ∉ s.order := fun inside =>
    (nodup_append.mp whole).2.2 id inside id mem_cons_self rfl
  have mirrored : ∀ other, other ∈ graph.dependents id ↔ id ∈ graph.dependencies other :=
    fun other => (holds.dependents other id).trans (holds.dependencies other id).symm
  have counts : ∀ other, ((graph.dependents id).foldl countDown
      { s with ready, order := s.order ++ [id] }).remaining other =
      ((graph.dependencies other).filter fun each => each ∉ s.order ++ [id]).length := by
    intro other
    rw [remaining, ordered.remaining, filter_order_length (holds.dependencies_nodup other) fresh]
    simp only [mirrored]
  -- a dependent of the facet was neither in the order nor ready
  have waiting : ∀ other ∈ graph.dependents id, other ∉ s.order ++ id :: ready := by
    intro other dependent inside
    have depends := (mirrored other).mp dependent
    have inIds := known other inside
    rw [← next] at inside
    have none_ := (ordered.zero other inIds).mp inside
    rw [ordered.remaining] at none_
    have counted : id ∈ (graph.dependencies other).filter fun each => each ∉ s.order := by
      simp [depends, fresh]
    have positive := length_pos_of_mem counted
    omega
  have placed : s.order ++ [id] ++ (ready ++ (graph.dependents id).filter fun other =>
      s.remaining other = 1) = s.order ++ id :: ready ++
        (graph.dependents id).filter fun other => s.remaining other = 1 := by
    simp
  constructor
  · rw [order, readied, placed, nodup_append]
    refine ⟨whole, (holds.dependents_nodup id).filter _, ?_⟩
    rintro other inside _ dependent rfl
    exact waiting other (mem_of_mem_filter dependent) inside
  · intro other inside
    rw [order, readied, placed, mem_append] at inside
    rcases inside with before | dependent
    · exact known other before
    · have needed := (holds.dependents other id).mp (mem_of_mem_filter dependent)
      exact (within other id needed).1
  · intro other
    rw [order]
    exact counts other
  · intro other inIds
    rw [order, readied, placed, mem_append, remaining, ← next, ordered.zero other inIds, mem_filter]
    by_cases dependent : other ∈ graph.dependents id
    · have positive : s.remaining other ≠ 0 := by
        intro zero
        have inside := (ordered.zero other inIds).mpr zero
        rw [next] at inside
        exact waiting other dependent inside
      simp only [dependent, if_true, true_and, decide_eq_true_eq]
      omega
    · simp [dependent]
  · intro front other back split_ each depends
    rw [order] at split_
    rcases eq_nil_or_concat back with rfl | ⟨back, last, rfl⟩
    · obtain ⟨rfl, rfl⟩ : front = s.order ∧ other = id := by
        have ends := append_inj' split_ rfl
        simpa [eq_comm] using ends
      have inIds := known other (mem_append_right _ mem_cons_self)
      have none_ := (ordered.zero other inIds).mp (by rw [next]; simp)
      rw [ordered.remaining] at none_
      by_contra missing
      have counted : each ∈ (graph.dependencies other).filter fun each => each ∉ s.order := by
        simp [depends, missing]
      have positive := length_pos_of_mem counted
      omega
    · have shorter : s.order = front ++ other :: back := by
        rw [concat_eq_append, ← cons_append, ← append_assoc] at split_
        exact (append_inj' split_ rfl).1
      exact ordered.before front other back shorter each depends

theorem Ordered.drain (rounds : Nat)
    (ordered : Ordered graph ids s) (enough : ids.length ≤ rounds + s.order.length) :
    Ordered graph ids (s.drain graph.dependents rounds) ∧
      (s.drain graph.dependents rounds).ready = [] := by
  induction rounds generalizing s with
  | zero =>
    refine ⟨ordered, ?_⟩
    have few := (ordered.nodup.subperm ordered.known).length_le
    rw [length_append] at few
    exact eq_nil_of_length_eq_zero (by rw [OrderState.drain]; omega)
  | succ rounds ih =>
    rw [OrderState.drain]
    split
    · rename_i done
      exact ⟨ordered, done⟩
    · rename_i id ready next
      refine ih (ordered.round holds within next) ?_
      rw [(foldl_countDown (holds.dependents_nodup id) _).2.2]
      simp only [length_append, length_singleton]
      omega

end

/-- The loop is left with all facets in an order, or with a cycle among those that are left. -/
theorem topologicalOrder_spec {records : List FacetShape}
    (distinct : (records.map facetId).Nodup) (holds : graph.Holds needs)
    (within : ∀ id other, needs id other →
      id ∈ records.map facetId ∧ other ∈ records.map facetId) :
    (∀ order, topologicalOrder records graph = .ok order →
      order.Perm (records.map facetId) ∧
        ∀ id other, needs id other → order.idxOf other < order.idxOf id) ∧
    ((∃ error, topologicalOrder records graph = .error error) ↔ ∃ id, TransGen needs id id) := by
  let remaining : String → Int := fun id => (graph.dependencies id).length
  let first : OrderState :=
    { remaining, ready := (records.map facetId).filter fun id => remaining id = 0,
      order := [] }
  have start : Ordered graph (records.map facetId) first := by
    constructor
    · exact distinct.filter _
    · intro id inside
      exact mem_of_mem_filter inside
    · intro id
      simp [first, remaining]
    · intro id inside
      simp [first, inside]
    · intro front id back split_
      simp [first] at split_
  obtain ⟨ordered, done⟩ := start.drain holds within records.length (by simp)
  have ranked : ∀ id other, needs id other →
      (first.drain graph.dependents records.length).order.Perm (records.map facetId) →
      (first.drain graph.dependents records.length).order.idxOf other <
        (first.drain graph.dependents records.length).order.idxOf id := by
    intro id other need all
    obtain ⟨front, back, split_⟩ := append_of_mem (all.mem_iff.mpr (within id other need).1)
    have earlier := ordered.before front id back split_ other
      ((holds.dependencies id other).mpr need)
    have nodup := ordered.nodup
    rw [done, append_nil, split_] at nodup
    have late : id ∉ front := fun inside =>
      (nodup_append.mp nodup).2.2 id inside id mem_cons_self rfl
    rw [split_, idxOf_append_of_mem earlier, idxOf_append_of_notMem late,
      idxOf_cons_self, Nat.add_zero]
    exact idxOf_lt_length_of_mem earlier
  have nodup := ordered.nodup
  have known := ordered.known
  rw [done, append_nil] at nodup known
  have subperm := nodup.subperm known
  unfold topologicalOrder
  by_cases complete : (first.drain graph.dependents records.length).order.length = records.length
  · have all := subperm.perm_of_length_le (by rw [length_map, complete])
    have ok : (if (first.drain graph.dependents records.length).order.length ≠ records.length then
        Except.error (FacetError.cycle ((records.map facetId).filter fun id =>
          0 < (first.drain graph.dependents records.length).remaining id))
        else .ok (first.drain graph.dependents records.length).order) =
          .ok (first.drain graph.dependents records.length).order :=
      if_neg (not_not.mpr complete)
    refine ⟨fun order returned => ?_, ?_⟩
    · cases ok.symm.trans returned
      exact ⟨all, fun id other need => ranked id other need all⟩
    · constructor
      · rintro ⟨error, threw⟩
        cases ok.symm.trans threw
      · rintro ⟨id, cycle⟩
        exact absurd cycle (acyclic_of_rank _ (fun a b need => ranked a b need all) id)
  · have threw : (if (first.drain graph.dependents records.length).order.length ≠ records.length
        then Except.error (FacetError.cycle ((records.map facetId).filter fun id =>
          0 < (first.drain graph.dependents records.length).remaining id))
        else .ok (first.drain graph.dependents records.length).order) = .error _ :=
      if_pos complete
    refine ⟨fun order returned => ?_, ?_⟩
    · cases threw.symm.trans returned
    · refine ⟨fun _ => ?_, fun _ => ⟨_, threw⟩⟩
      -- the facets that never got ready
      have inhabited : { id | id ∈ records.map facetId ∧
          id ∉ (first.drain graph.dependents records.length).order }.Nonempty := by
        by_contra none_
        have covered : records.map facetId ⊆
            (first.drain graph.dependents records.length).order := by
          intro id inside
          by_contra missing
          exact none_ ⟨id, inside, missing⟩
        have enough := (distinct.subperm covered).length_le
        have few := subperm.length_le
        rw [length_map] at enough few
        exact complete (Nat.le_antisymm few enough)
      refine exists_cycle (((records.map facetId).finite_toSet).subset
        fun id inside => inside.1) inhabited ?_
      rintro id ⟨inside, missing⟩
      have left : (first.drain graph.dependents records.length).remaining id ≠ 0 := by
        intro zero
        have placed := (ordered.zero id inside).mpr zero
        rw [done, append_nil] at placed
        exact missing placed
      rw [ordered.remaining] at left
      obtain ⟨other, counted⟩ := exists_mem_of_length_pos
        (Nat.pos_of_ne_zero fun none_ => left (by rw [none_]; rfl))
      rw [mem_filter, decide_eq_true_eq] at counted
      have need := (holds.dependencies id other).mp counted.1
      exact ⟨other, ⟨(within id other need).2, counted.2⟩, need⟩

end

/-- A facet requires a service that another one provides. -/
def Needs (records : List FacetShape) (id other : String) : Prop :=
  other ≠ id ∧ ∃ record ∈ records, record.facetId = id ∧
    ∃ provider ∈ records, provider.facetId = other ∧
      ∃ requirement ∈ record.requires, ∃ provision ∈ provider.provides,
        provision.serviceId = requirement.serviceId

def providedServices (records : List FacetShape)
    (externalServices : List (String × ServiceMode)) : List (String × ServiceMode) :=
  externalServices ++
    (provisionsOf records).map fun item => (item.2.serviceId, item.2.mode)

section

variable {records : List FacetShape} {externalServices : List (String × ServiceMode)}

/-- What the loops over the facets leave where none of them throws. -/
theorem graph_holds {providers : Providers} {graph : FacetGraph}
    (provided : records.foldlM addProvisions (hostProviders externalServices) = .ok providers)
    (linked : records.foldlM (addRequirements providers) ⟨fun _ => [], fun _ => []⟩ = .ok graph) :
    graph.Holds (Needs records) := by
  rw [foldlM_addProvisions] at provided
  rw [foldlM_addRequirements] at linked
  have empty : (⟨fun _ => [], fun _ => []⟩ : FacetGraph).Holds fun _ _ => False := by
    constructor <;> simp
  have holds := requirements_hold empty linked
  have same : ∀ id other, (False ∨ ∃ item ∈ requirementsOf records,
      MetBy providers item id other) ↔ Needs records id other := by
    intro id other
    rw [false_or]
    constructor
    · rintro ⟨⟨facetId, requirement⟩, inside, rfl, apart, mode, met⟩
      obtain ⟨record, isRecord, own, requires⟩ := mem_requirementsOf.mp inside
      rcases (provided_iff provided _ _).mp met with host | ⟨⟨_, provision⟩, offered, served, same⟩
      · cases hostProviders_facetId host
      · cases same
        obtain ⟨provider, isProvider, theirs, provides⟩ := mem_provisionsOf.mp offered
        exact ⟨apart, record, isRecord, own, provider, isProvider, theirs, requirement, requires,
          provision, provides, served⟩
    · rintro ⟨apart, record, isRecord, own, provider, isProvider, theirs, requirement, requires,
        provision, provides, served⟩
      refine ⟨(id, requirement), mem_requirementsOf.mpr ⟨record, isRecord, own, requires⟩, rfl,
        apart, provision.mode, ?_⟩
      exact (provided_iff provided _ _).mpr (.inr ⟨(other, provision),
        mem_provisionsOf.mpr ⟨provider, isProvider, theirs, provides⟩, served, rfl⟩)
  simpa only [same] using holds

theorem needs_within {id other : String} (need : Needs records id other) :
    id ∈ records.map facetId ∧ other ∈ records.map facetId := by
  obtain ⟨-, record, isRecord, rfl, provider, isProvider, rfl, -⟩ := need
  exact ⟨mem_map_of_mem isRecord, mem_map_of_mem isProvider⟩

/-- Nothing is refused before the order when each service has one provider and each requirement
is of a service that is provided in its mode. -/
theorem links_ok (once : ((providedServices records externalServices).map Prod.fst).Nodup)
    (met : ∀ record ∈ records, ∀ requirement ∈ record.requires,
      (requirement.serviceId, requirement.mode) ∈ providedServices records externalServices) :
    ∃ providers graph,
      records.foldlM addProvisions (hostProviders externalServices) = .ok providers ∧
        records.foldlM (addRequirements providers) ⟨fun _ => [], fun _ => []⟩ = .ok graph := by
  rw [providedServices, List.map_append, List.nodup_append, List.map_map] at once
  obtain ⟨hosts, facets, apart⟩ := once
  obtain ⟨providers, provided⟩ := (@provisions_ok_iff (provisionsOf records)
    (hostProviders externalServices)).mpr ⟨fun item inside => hostProviders_eq_none.mpr
      fun host => apart _ host _ (mem_map.mpr ⟨item, inside, rfl⟩) rfl, facets⟩
  have accepted : ∀ item ∈ requirementsOf records, ∃ facet,
      providers item.2.serviceId = some { facetId := facet, mode := item.2.mode } := by
    rintro ⟨facetId, requirement⟩ inside
    obtain ⟨record, isRecord, -, requires⟩ := mem_requirementsOf.mp inside
    rcases mem_append.mp (met record isRecord requirement requires) with host | facet
    · exact ⟨none, (provided_iff provided _ _).mpr (.inl (hostProviders_mem hosts host))⟩
    · obtain ⟨item, offered, same⟩ := mem_map.mp facet
      obtain ⟨service, mode⟩ := Prod.mk.injEq .. ▸ same
      exact ⟨some item.1, (provided_iff provided _ _).mpr (.inr ⟨item, offered, service, by
        rw [mode]⟩)⟩
  obtain ⟨graph, linked⟩ := (@requirements_ok_iff providers (requirementsOf records)
    ⟨fun _ => [], fun _ => []⟩).mpr accepted
  rw [← foldlM_addProvisions] at provided
  rw [← foldlM_addRequirements] at linked
  exact ⟨providers, graph, provided, linked⟩

/-- An order of all facets puts each after those it needs; where every service has one provider
and every requirement is met there is none exactly when facets need each other in a circle. -/
theorem validateFacets_order (distinct : (records.map FacetShape.facetId).Nodup) :
    (∀ order, validateFacets records externalServices = .ok order →
      order.Perm (records.map FacetShape.facetId) ∧
        ∀ id other, Needs records id other → order.idxOf other < order.idxOf id) ∧
    (((providedServices records externalServices).map Prod.fst).Nodup →
      (∀ record ∈ records, ∀ requirement ∈ record.requires,
        (requirement.serviceId, requirement.mode) ∈ providedServices records externalServices) →
      ((∃ error, validateFacets records externalServices = .error error) ↔
        ∃ id, TransGen (Needs records) id id)) := by
  constructor
  · intro order returned
    unfold validateFacets at returned
    cases provided : records.foldlM addProvisions (hostProviders externalServices) with
    | error error =>
      rw [provided] at returned
      cases returned
    | ok providers =>
      rw [provided] at returned
      cases linked : records.foldlM (addRequirements providers) ⟨fun _ => [], fun _ => []⟩ with
      | error error =>
        change (Except.bind (records.foldlM (addRequirements providers) _) _) = _ at returned
        rw [linked] at returned
        cases returned
      | ok graph =>
        change (Except.bind (records.foldlM (addRequirements providers) _) _) = _ at returned
        rw [linked] at returned
        exact (topologicalOrder_spec distinct (graph_holds provided linked)
          fun _ _ => needs_within).1 order returned
  · intro once met
    obtain ⟨providers, graph, provided, linked⟩ := links_ok once met
    have reached : validateFacets records externalServices = topologicalOrder records graph := by
      unfold validateFacets
      rw [provided]
      change (Except.bind (records.foldlM (addRequirements providers) _) _) = _
      rw [linked]
      rfl
    rw [reached]
    exact (topologicalOrder_spec distinct (graph_holds provided linked)
      fun _ _ => needs_within).2

end

def sampleFacets : List FacetShape :=
  [{ facetId := "b", requires := [⟨"s", .singleton⟩], provides := [] },
    { facetId := "a", requires := [], provides := [⟨"s", .singleton⟩] }]

theorem validateFacets_order_sample : validateFacets sampleFacets [] = .ok ["a", "b"] ∧
    ["a", "b"].idxOf "a" < ["a", "b"].idxOf "b" ∧ ¬ ∃ id, TransGen (Needs sampleFacets) id id := by
  have returned : validateFacets sampleFacets [] = .ok ["a", "b"] := rfl
  have distinct : (sampleFacets.map FacetShape.facetId).Nodup := by decide
  have need : Needs sampleFacets "b" "a" :=
    ⟨by decide, _, List.mem_cons_self, rfl, _, List.mem_cons_of_mem _ List.mem_cons_self, rfl, _,
      List.mem_cons_self, _, List.mem_cons_self, rfl⟩
  obtain ⟨order, cycles⟩ := @validateFacets_order sampleFacets [] distinct
  refine ⟨returned, (order _ returned).2 "b" "a" need, fun circle => ?_⟩
  obtain ⟨error, threw⟩ := (cycles (by decide) (by decide)).mpr circle
  rw [returned] at threw
  cases threw

end Trpi.Chord.Facets
