import Trpi.Library.Json
import Trpi.Session.Types

/-!
# Fork policy

session/fork-policy.ts: which entries a branch fork selects and how one current
scalar row or list element is projected into the destination. Both the
in-memory and the streamed fork use these two functions.

The ancestry walk takes fuel. Storage values are an arbitrary type with the
three operations the policy needs (`ForkValue`): writing a tip, reading one
back, and the idle lane state. A stored tip that is neither a string nor null
names no entry.
-/

namespace Trpi.Session

open Library (Json)

/-- How the fork policy reads and writes the values it understands. -/
class ForkValue (V : Type) where
  ofTip : Option String → V
  toTip : V → Option (Option String)
  idleLaneState : V
  toTip_ofTip : ∀ tip, toTip (ofTip tip) = some tip

inductive ForkPosition where
  | before | entry
  deriving DecidableEq

inductive ForkOptions where
  | branch (branch : String) (entryId : Option String) (position : Option ForkPosition)
  | tree

inductive ForkCurrentStatePlan where
  | branch (branch : String) (destinationTip : Option String)
  | tree

inductive ForkError where
  | unknownBranch (branch : String)
  | missingParent (entryId : Option String)
  | notOnBranch (entryId : Option String) (branch : String)
  | notConfigured (branch : String)
  | unknownReserved (ns : String)
  | invalidAddress (reason : AddressError)
  | walkUnbounded

private def orNull (id : Option String) : String := id.getD "null"

def ForkError.message : ForkError → String
  | .unknownBranch branch => "Unknown source branch: " ++ branch
  | .missingParent entryId => "Corrupt source branch: missing parent " ++ orNull entryId
  | .notOnBranch entryId branch =>
    "Fork entry " ++ orNull entryId ++ " is not on source branch " ++ Json.quote branch
  | .notConfigured branch => "Source branch " ++ Json.quote branch ++ " is not a configured AgentLane"
  | .unknownReserved ns => "Unknown reserved fork namespace: " ++ ns
  | .invalidAddress reason => reason.message
  | .walkUnbounded => ""

/-- Progress of the ancestry walk: whether the requested entry was met, where the
destination tip is, and the entries selected so far. -/
structure ForkWalk where
  found : Bool
  destinationTip : Option String
  selected : List String

def ForkWalk.visit (walk : ForkWalk) (requested : Option String)
    (position : Option ForkPosition) (entryId : String) (parentId : Option String) : ForkWalk :=
  if some entryId = requested then
    if position = some .before then { walk with found := true, destinationTip := parentId }
    else
      { found := true, destinationTip := some entryId, selected := walk.selected ++ [entryId] }
  else if walk.found then { walk with selected := walk.selected ++ [entryId] }
  else walk

/-- Walk from `entryId` to the root. `getParent` is `none` for an unknown entry. -/
def walkAncestry (getParent : String → Option (Option String)) (requested : Option String)
    (position : Option ForkPosition) : Nat → Option String → ForkWalk → Except ForkError ForkWalk
  | _, none, walk => .ok walk
  | 0, some _, _ => .error .walkUnbounded
  | fuel + 1, some entryId, walk =>
    match getParent entryId with
    | none => .error (.missingParent (some entryId))
    | some parentId =>
      walkAncestry getParent requested position fuel parentId
        (walk.visit requested position entryId parentId)

/-- `selectBranchFork`: the destination tip and the selected entries. `tip` is
`none` when the branch has no stored tip. -/
def selectBranchFork {V : Type} [ForkValue V] (fuel : Nat) (branch : String)
    (entryId : Option String) (position : Option ForkPosition) (tip : Option V)
    (getParent : String → Option (Option String)) :
    Except ForkError (Option String × List String) :=
  match tip with
  | none => .error (.unknownBranch branch)
  | some stored =>
    match ForkValue.toTip stored with
    | none => .error (.missingParent none)
    | some tip =>
      let requested := entryId.or tip
      match walkAncestry getParent requested position fuel tip
          { found := requested.isNone, destinationTip := none, selected := [] } with
      | .error reason => .error reason
      | .ok walk =>
        if walk.found then .ok (walk.destinationTip, walk.selected)
        else .error (.notOnBranch requested branch)

def hasPrefix (start text : String) : Bool := start.toList.isPrefixOf text.toList

/-- Project one current scalar row or surviving list element: `none` drops it,
`some value` keeps its address and sequence with that value. -/
def projectForkCurrentState {V : Type} [ForkValue V] (plan : ForkCurrentStatePlan)
    (isEntryCopied : String → Bool) (ns key : String) (value : V) :
    Except ForkError (Option V) :=
  if ns = "pi.session.name" then .ok (some value)
  else if ns = "pi.entry.label" then .ok (if isEntryCopied key then some value else none)
  else if ns = "pi.branch.tip" then
    match plan with
    | .tree => .ok (some value)
    | .branch branch destinationTip =>
      .ok (if key = branch then some (ForkValue.ofTip destinationTip) else none)
  else if ns = "pi.lane.config" then
    match plan with
    | .tree => .ok (some value)
    | .branch branch _ => .ok (if key = branch then some value else none)
  else if ns = "pi.lane.state" then
    match plan with
    | .tree => .ok (some ForkValue.idleLaneState)
    | .branch branch _ => .ok (if key = branch then some ForkValue.idleLaneState else none)
  else if ns = "pi.result" then .ok none
  else if hasPrefix "pi.op." ns || hasPrefix "pi.pending." ns then .ok none
  else if ns = "pi" || hasPrefix "pi." ns then .error (.unknownReserved ns)
  else
    match plan with
    | .tree => .ok (some value)
    | .branch .. => .ok none

/-!
## What a branch fork selects

Along a parent function with a rank that falls from child to parent the ancestry
walk of the fork policy ends, and the entries it selects are closed under
parents: the copy of a branch has no dangling link.
-/

variable {getParent : String → Option (Option String)} {rank : String → Nat}
  {position : Option ForkPosition} {requested : Option String}

/-- Parents exist and are ranked below their children. -/
structure Ranked (getParent : String → Option (Option String)) (rank : String → Nat) : Prop where
  exists_parent : ∀ id parentId, getParent id = some (some parentId) →
    ∃ above, getParent parentId = some above
  decreases : ∀ id parentId, getParent id = some (some parentId) → rank parentId < rank id

/-- Every selected entry's parent is selected, or is the entry about to be visited
after the requested one was met. -/
structure WalkInvariant (getParent : String → Option (Option String)) (rank : String → Nat)
    (requested current : Option String) (walk : ForkWalk) : Prop where
  closed : ∀ id ∈ walk.selected, ∃ parentId, getParent id = some parentId ∧
    ∀ parent, parentId = some parent →
      parent ∈ walk.selected ∨ (walk.found = true ∧ current = some parent)
  passed : walk.found = true → ∀ target, requested = some target →
    ∀ id, current = some id → rank id < rank target
  tip : ∀ id, walk.destinationTip = some id →
    id ∈ walk.selected ∨ (walk.found = true ∧ current = some id)

theorem WalkInvariant.visit (ranked : Ranked getParent rank) (position : Option ForkPosition)
    {entryId : String} {parentId : Option String} {walk : ForkWalk}
    (parent : getParent entryId = some parentId)
    (inv : WalkInvariant getParent rank requested (some entryId) walk) :
    WalkInvariant getParent rank requested parentId
      (walk.visit requested position entryId parentId) := by
  have below : ∀ target, requested = some target → (walk.found = true ∨ some entryId = requested) →
      ∀ id, parentId = some id → rank id < rank target := by
    intro target isTarget seen id isParent
    have step := ranked.decreases entryId id (by rw [parent, isParent])
    rcases seen with found | here
    · exact Nat.lt_trans step (inv.passed found target isTarget entryId rfl)
    · rw [isTarget, Option.some.injEq] at here
      exact here ▸ step
  have unmet : some entryId = requested → walk.found = false := by
    intro here
    by_contra met
    have found : walk.found = true := by simpa using met
    exact Nat.lt_irrefl _ (inv.passed found entryId here.symm entryId rfl)
  unfold ForkWalk.visit
  split
  · next here =>
    have fresh := unmet here
    have settled : ∀ id ∈ walk.selected, ∃ parentId, getParent id = some parentId ∧
        ∀ parent, parentId = some parent → parent ∈ walk.selected := by
      intro id mem
      obtain ⟨above, link, kept⟩ := inv.closed id mem
      refine ⟨above, link, fun parent isParent => ?_⟩
      rcases kept parent isParent with selected | ⟨found, -⟩
      · exact selected
      · rw [fresh] at found
        cases found
    split
    · refine ⟨?_, fun _ target isTarget => below target isTarget (.inr here), ?_⟩
      · intro id mem
        obtain ⟨above, link, kept⟩ := settled id mem
        exact ⟨above, link, fun parent isParent => .inl (kept parent isParent)⟩
      · exact fun id isTip => .inr ⟨rfl, isTip⟩
    · refine ⟨?_, fun _ target isTarget => below target isTarget (.inr here), ?_⟩
      · intro id mem
        rcases List.mem_append.mp mem with old | new
        · obtain ⟨above, link, kept⟩ := settled id old
          exact ⟨above, link, fun parent isParent =>
            .inl (List.mem_append_left _ (kept parent isParent))⟩
        · rw [List.mem_singleton.mp new]
          exact ⟨parentId, parent, fun above isParent => .inr ⟨rfl, isParent⟩⟩
      · intro id isTip
        rw [← Option.some.inj isTip]
        exact .inl (by simp)
  · split
    · next found =>
      refine ⟨?_, fun _ target isTarget => below target isTarget (.inl found), ?_⟩
      · intro id mem
        rcases List.mem_append.mp mem with old | new
        · obtain ⟨above, link, kept⟩ := inv.closed id old
          refine ⟨above, link, fun parent isParent => .inl ?_⟩
          rcases kept parent isParent with selected | ⟨-, here⟩
          · exact List.mem_append_left _ selected
          · rw [← Option.some.inj here]
            simp
        · rw [List.mem_singleton.mp new]
          exact ⟨parentId, parent, fun above isParent => .inr ⟨found, isParent⟩⟩
      · intro id isTip
        rcases inv.tip id isTip with selected | ⟨-, here⟩
        · exact .inl (List.mem_append_left _ selected)
        · rw [← Option.some.inj here]
          exact .inl (by simp)
    · next unfound =>
      have absurdly : ∀ {P : Prop}, walk.found = true → P := fun found => absurd found unfound
      refine ⟨?_, fun found => absurdly found, ?_⟩
      · intro id mem
        obtain ⟨above, link, kept⟩ := inv.closed id mem
        refine ⟨above, link, fun parent isParent => ?_⟩
        rcases kept parent isParent with selected | ⟨found, -⟩
        · exact .inl selected
        · exact absurdly found
      · intro id isTip
        rcases inv.tip id isTip with selected | ⟨found, -⟩
        · exact .inl selected
        · exact absurdly found

theorem walkAncestry_invariant (ranked : Ranked getParent rank) {fuel : Nat}
    {current : Option String} {walk last : ForkWalk}
    (inv : WalkInvariant getParent rank requested current walk)
    (ended : walkAncestry getParent requested position fuel current walk = .ok last) :
    WalkInvariant getParent rank requested none last := by
  induction fuel generalizing current walk with
  | zero =>
    cases current with
    | none => rwa [← Except.ok.inj ended]
    | some entryId => cases ended
  | succ fuel ih =>
    cases current with
    | none => rwa [← Except.ok.inj ended]
    | some entryId =>
      simp only [walkAncestry] at ended
      split at ended
      · cases ended
      · next parentId parent => exact ih (inv.visit ranked position parent) ended

theorem walkAncestry_bounded (ranked : Ranked getParent rank) (requested : Option String)
    (position : Option ForkPosition) (fuel : Nat) (current : Option String) (walk : ForkWalk)
    (enough : ∀ id, current = some id → getParent id = none ∨ rank id < fuel)
    (positive : 0 < fuel) :
    walkAncestry getParent requested position fuel current walk ≠ .error .walkUnbounded := by
  induction fuel generalizing current walk with
  | zero => exact absurd positive (Nat.lt_irrefl 0)
  | succ fuel ih =>
    cases current with
    | none => simp [walkAncestry]
    | some entryId =>
      simp only [walkAncestry]
      cases parent : getParent entryId with
      | none => simp
      | some parentId =>
        have bound : rank entryId < fuel + 1 := by
          rcases enough entryId rfl with unknown | bound
          · rw [parent] at unknown
            cases unknown
          · exact bound
        cases parentId with
        | none => cases fuel <;> simp [walkAncestry]
        | some above =>
          have falls := ranked.decreases entryId above parent
          refine ih (some above) _ (fun id same => .inr ?_) (by omega)
          rw [← Option.some.inj same]
          omega

def ParentClosed (getParent : String → Option (Option String)) (selected : List String) : Prop :=
  ∀ id ∈ selected, ∃ parentId, getParent id = some parentId ∧
    ∀ parent, parentId = some parent → parent ∈ selected

/-- The entries of a branch fork are closed under parents and include its tip. -/
theorem selectBranchFork_closed {V : Type} [ForkValue V] (ranked : Ranked getParent rank)
    {fuel : Nat} {branch : String} {entryId : Option String}
    {tip : Option V} {destinationTip : Option String} {selected : List String}
    (success : selectBranchFork fuel branch entryId position tip getParent =
      .ok (destinationTip, selected)) :
    ParentClosed getParent selected ∧ ∀ id, destinationTip = some id → id ∈ selected := by
  unfold selectBranchFork at success
  split at success
  · cases success
  split at success
  · cases success
  next tip readable =>
  simp only at success
  split at success
  · cases success
  next last ended =>
  have start : WalkInvariant getParent rank (entryId.or tip) tip
      { found := (entryId.or tip).isNone, destinationTip := none, selected := [] } := by
    refine ⟨by simp, ?_, by simp⟩
    intro unrequested target isTarget
    simp [isTarget] at unrequested
  have final := walkAncestry_invariant ranked start ended
  split at success
  · cases success
    refine ⟨fun id mem => ?_, fun id isTip => ?_⟩
    · obtain ⟨parentId, parent, kept⟩ := final.closed id mem
      refine ⟨parentId, parent, fun above isParent => ?_⟩
      rcases kept above isParent with inside | ⟨-, outside⟩
      · exact inside
      · cases outside
    · rcases final.tip id isTip with inside | ⟨-, outside⟩
      · exact inside
      · cases outside
  · cases success

end Trpi.Session
