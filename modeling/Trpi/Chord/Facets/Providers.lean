import Mathlib.Data.List.Induction
import Mathlib.Logic.Function.Basic
import Trpi.Chord.Services.Instances

/-!
# Validation of facets

`validateFacets` of chord/src/facets/host.ts. A map that is only looked up is a function, and a
set is the list of its members in the order they were added. The loop over the facets that are
ready takes one of them at a time, so as many rounds as there are facets are enough.
-/

namespace Trpi.Chord.Facets

open List Function
open Trpi.Chord.Services (ServiceMode)

structure FacetServiceReference where
  serviceId : String
  mode : ServiceMode

structure FacetShape where
  facetId : String
  requires : List FacetServiceReference
  provides : List FacetServiceReference

/-- The host provides a service without a facet. -/
structure FacetProvider where
  facetId : Option String
  mode : ServiceMode

abbrev Providers := String → Option FacetProvider

inductive FacetError where
  | bothModes (serviceId : String)
  | hostAndFacet (serviceId facetId : String)
  | twoFacets (serviceId first second : String)
  | unprovided (facetId serviceId : String) (mode : ServiceMode)
  | otherMode (facetId serviceId : String) (mode : ServiceMode) (provider : Option String)
      (provided : ServiceMode)
  | cycle (facetIds : List String)

def modeName : ServiceMode → String
  | .singleton => "singleton"
  | .keyed => "keyed"

def FacetError.message : FacetError → String
  | .bothModes serviceId => "Service " ++ serviceId ++ " is provided as both singleton and keyed"
  | .hostAndFacet serviceId facetId =>
    "Service " ++ serviceId ++ " is provided by both the host and " ++ facetId
  | .twoFacets serviceId first second =>
    "Service " ++ serviceId ++ " is provided by both " ++ first ++ " and " ++ second
  | .unprovided facetId serviceId mode =>
    "Facet " ++ facetId ++ " requires local/" ++ serviceId ++ "/" ++ modeName mode ++
      ", but no facet provides it"
  | .otherMode facetId serviceId mode provider provided =>
    "Facet " ++ facetId ++ " requires " ++ serviceId ++ " as " ++ modeName mode ++ ", but " ++
      provider.getD "the host" ++ " provides it as " ++ modeName provided
  | .cycle facetIds => "Facet dependency cycle: " ++ ", ".intercalate facetIds

def hostProviders (externalServices : List (String × ServiceMode)) : Providers :=
  externalServices.foldl (fun providers service =>
    Function.update providers service.1 (some { facetId := none, mode := service.2 }))
    fun _ => none

def addProvision (facetId : String) (providers : Providers) (provision : FacetServiceReference) :
    Except FacetError Providers :=
  match providers provision.serviceId with
  | some existing =>
    if existing.mode ≠ provision.mode then .error (.bothModes provision.serviceId)
    else
      match existing.facetId with
      | none => .error (.hostAndFacet provision.serviceId facetId)
      | some first => .error (.twoFacets provision.serviceId first facetId)
  | none =>
    .ok (Function.update providers provision.serviceId
      (some { facetId := some facetId, mode := provision.mode }))

def addProvisions (providers : Providers) (record : FacetShape) : Except FacetError Providers :=
  record.provides.foldlM (addProvision record.facetId) providers

/-- The `dependencies` and the `dependents` of each facet. -/
structure FacetGraph where
  dependencies : String → List String
  dependents : String → List String

def addMember (members : List String) (id : String) : List String :=
  if id ∈ members then members else members ++ [id]

def FacetGraph.link (graph : FacetGraph) (facetId provider : String) : FacetGraph where
  dependencies :=
    Function.update graph.dependencies facetId (addMember (graph.dependencies facetId) provider)
  dependents :=
    Function.update graph.dependents provider (addMember (graph.dependents provider) facetId)

def addRequirement (providers : Providers) (facetId : String) (graph : FacetGraph)
    (requirement : FacetServiceReference) : Except FacetError FacetGraph :=
  match providers requirement.serviceId with
  | none => .error (.unprovided facetId requirement.serviceId requirement.mode)
  | some provider =>
    if provider.mode ≠ requirement.mode then
      .error (.otherMode facetId requirement.serviceId requirement.mode provider.facetId
        provider.mode)
    else
      match provider.facetId with
      | none => .ok graph
      | some other => if other = facetId then .ok graph else .ok (graph.link facetId other)

def addRequirements (providers : Providers) (graph : FacetGraph) (record : FacetShape) :
    Except FacetError FacetGraph :=
  record.requires.foldlM (addRequirement providers record.facetId) graph

structure OrderState where
  remaining : String → Int
  ready : List String
  order : List String

def OrderState.countDown (s : OrderState) (dependent : String) : OrderState :=
  let count := s.remaining dependent - 1
  { s with
    remaining := Function.update s.remaining dependent count
    ready := if count = 0 then s.ready ++ [dependent] else s.ready }

/-- The loop over the facets that are ready. -/
def OrderState.drain (dependents : String → List String) : Nat → OrderState → OrderState
  | 0, s => s
  | rounds + 1, s =>
    match s.ready with
    | [] => s
    | id :: ready =>
      ((dependents id).foldl OrderState.countDown
        { s with ready, order := s.order ++ [id] }).drain dependents rounds

def topologicalOrder (records : List FacetShape) (graph : FacetGraph) :
    Except FacetError (List String) :=
  let remaining : String → Int := fun id => (graph.dependencies id).length
  let ready := (records.map FacetShape.facetId).filter fun id => remaining id = 0
  let s := OrderState.drain graph.dependents records.length { remaining, ready, order := [] }
  if s.order.length ≠ records.length then
    .error (.cycle ((records.map FacetShape.facetId).filter fun id => 0 < s.remaining id))
  else .ok s.order

def validateFacets (records : List FacetShape) (externalServices : List (String × ServiceMode)) :
    Except FacetError (List String) := do
  let providers ← records.foldlM addProvisions (hostProviders externalServices)
  let graph ← records.foldlM (addRequirements providers) ⟨fun _ => [], fun _ => []⟩
  topologicalOrder records graph

/-!
## The providers of facets

The providers of a valid list of facets are the external services and the provisions, each once.
-/

/-- The provisions of all facets, in the order in which they are looked at. -/
def provisionsOf (records : List FacetShape) : List (String × FacetServiceReference) :=
  records.flatMap fun record => record.provides.map fun provision => (record.facetId, provision)

def requirementsOf (records : List FacetShape) : List (String × FacetServiceReference) :=
  records.flatMap fun record => record.requires.map fun requirement =>
    (record.facetId, requirement)

variable {provision : FacetServiceReference} {items : List (String × FacetServiceReference)}
  {facetId : String} {records : List FacetShape} {providers : Providers}

theorem mem_provisionsOf : (facetId, provision) ∈ provisionsOf records ↔
      ∃ record ∈ records, record.facetId = facetId ∧ provision ∈ record.provides := by
  simp only [provisionsOf, mem_flatMap, mem_map, Prod.mk.injEq]
  constructor
  · rintro ⟨record, inside, provision', provides, same, rfl⟩
    exact ⟨record, inside, same, provides⟩
  · rintro ⟨record, inside, same, provides⟩
    exact ⟨record, inside, provision, provides, same, rfl⟩

theorem mem_requirementsOf
    {requirement : FacetServiceReference} : (facetId, requirement) ∈ requirementsOf records ↔
      ∃ record ∈ records, record.facetId = facetId ∧ requirement ∈ record.requires := by
  simp only [requirementsOf, mem_flatMap, mem_map, Prod.mk.injEq]
  constructor
  · rintro ⟨record, inside, requirement', requires, same, rfl⟩
    exact ⟨record, inside, same, requires⟩
  · rintro ⟨record, inside, same, requires⟩
    exact ⟨record, inside, requirement, requires, same, rfl⟩

theorem foldlM_addProvisions (records : List FacetShape) (providers : Providers) :
    records.foldlM addProvisions providers =
      (provisionsOf records).foldlM (fun providers item => addProvision item.1 providers item.2)
        providers := by
  induction records generalizing providers with
  | nil => rfl
  | cons record records ih =>
    rw [foldlM_cons, provisionsOf, flatMap_cons, foldlM_append, foldlM_map]
    exact congrArg _ (funext ih)

theorem foldlM_addRequirements (providers : Providers) (records : List FacetShape)
    (graph : FacetGraph) :
    records.foldlM (addRequirements providers) graph =
      (requirementsOf records).foldlM
        (fun graph item => addRequirement providers item.1 graph item.2) graph := by
  induction records generalizing graph with
  | nil => rfl
  | cons record records ih =>
    rw [foldlM_cons, requirementsOf, flatMap_cons, foldlM_append, foldlM_map]
    exact congrArg _ (funext ih)

theorem addProvision_of_none (free : providers provision.serviceId = none) (facetId : String) :
    addProvision facetId providers provision =
      .ok (update providers provision.serviceId
        (some { facetId := some facetId, mode := provision.mode })) := by
  rw [addProvision, free]

theorem addProvision_ok {providers after : Providers}
    (ok : addProvision facetId providers provision = .ok after) :
    providers provision.serviceId = none := by
  unfold addProvision at ok
  split at ok
  · split at ok
    · cases ok
    · split at ok <;> cases ok
  · assumption

theorem provided_iff {providers after : Providers}
    (ok : items.foldlM (fun providers item => addProvision item.1 providers item.2) providers =
      .ok after) (serviceId : String) (provider : FacetProvider) :
    after serviceId = some provider ↔ providers serviceId = some provider ∨
      ∃ item ∈ items, item.2.serviceId = serviceId ∧
        provider = { facetId := some item.1, mode := item.2.mode } := by
  induction items generalizing providers with
  | nil =>
    cases ok
    simp
  | cons item items ih =>
    rw [foldlM_cons] at ok
    cases added : addProvision item.1 providers item.2 with
    | error error =>
      rw [added] at ok
      cases ok
    | ok middle =>
      rw [added] at ok
      have free := addProvision_ok added
      rw [addProvision_of_none free] at added
      cases added
      rw [ih ok]
      by_cases same : serviceId = item.2.serviceId
      · subst same
        simp [free, eq_comm]
      · simp [same, Ne.symm same]

/-- Provisions are accepted exactly when no service of theirs has a provider. -/
theorem provisions_ok_iff :
    (∃ after, items.foldlM (fun providers item => addProvision item.1 providers item.2)
      providers = .ok after) ↔
      (∀ item ∈ items, providers item.2.serviceId = none) ∧
        (items.map fun item => item.2.serviceId).Nodup := by
  induction items generalizing providers with
  | nil => simp [pure, Except.pure]
  | cons item items ih =>
    rw [foldlM_cons]
    by_cases free : providers item.2.serviceId = none
    · rw [addProvision_of_none free]
      refine ih.trans ?_
      rw [forall_mem_cons, map_cons, nodup_cons]
      constructor
      · rintro ⟨others, nodup⟩
        refine ⟨⟨free, fun other inside => ?_⟩, ?_, nodup⟩
        · have vacant := others other inside
          by_cases same : other.2.serviceId = item.2.serviceId
          · rw [same]
            exact free
          · rwa [update_of_ne same] at vacant
        · intro again
          obtain ⟨other, inside, same⟩ := mem_map.mp again
          have vacant := others other inside
          rw [same, update_self] at vacant
          cases vacant
      · rintro ⟨⟨-, others⟩, fresh, nodup⟩
        refine ⟨fun other inside => ?_, nodup⟩
        have apart : other.2.serviceId ≠ item.2.serviceId := fun same =>
          fresh (mem_map.mpr ⟨other, inside, same⟩)
        rw [update_of_ne apart]
        exact others other inside
    · constructor
      · rintro ⟨after, ok⟩
        cases added : addProvision item.1 providers item.2 with
        | error error =>
          rw [added] at ok
          cases ok
        | ok middle => exact absurd (addProvision_ok added) free
      · rintro ⟨vacant, -⟩
        exact absurd (vacant item mem_cons_self) free

theorem hostProviders_concat (services : List (String × ServiceMode))
    (service : String × ServiceMode) :
    hostProviders (services ++ [service]) =
      update (hostProviders services) service.1 (some { facetId := none, mode := service.2 }) := by
  simp [hostProviders]

variable {services : List (String × ServiceMode)} {serviceId : String}

theorem hostProviders_facetId {provider : FacetProvider}
    (found : hostProviders services serviceId = some provider) : provider.facetId = none := by
  induction services using reverseRecOn with
  | nil => cases found
  | append_singleton services service ih =>
    rw [hostProviders_concat] at found
    by_cases same : serviceId = service.1
    · rw [same, update_self] at found
      cases found
      rfl
    · rw [update_of_ne same] at found
      exact ih found

theorem hostProviders_eq_none :
    hostProviders services serviceId = none ↔ serviceId ∉ services.map Prod.fst := by
  induction services using reverseRecOn with
  | nil => simp [hostProviders]
  | append_singleton services service ih =>
    rw [hostProviders_concat]
    by_cases same : serviceId = service.1
    · simp [same]
    · rw [update_of_ne same, ih]
      simp [same]

theorem hostProviders_mem (nodup : (services.map Prod.fst).Nodup) {mode : ServiceMode}
    (inside : (serviceId, mode) ∈ services) :
    hostProviders services serviceId = some { facetId := none, mode } := by
  induction services using reverseRecOn with
  | nil => cases inside
  | append_singleton services service ih =>
    rw [hostProviders_concat]
    rw [map_append, nodup_append] at nodup
    rcases mem_append.mp inside with before | last
    · have apart : serviceId ≠ service.1 :=
        nodup.2.2 serviceId (mem_map.mpr ⟨_, before, rfl⟩) service.1 (by simp)
      rw [update_of_ne apart]
      exact ih nodup.1 before
    · rw [← mem_singleton.mp last, update_self]

end Trpi.Chord.Facets
