import Mathlib.Algebra.Group.Defs
import Mathlib.Data.List.Basic

/-!
# Session records

The durable records of a session (session/types.ts, utils/usage.ts): entries,
usage rows, the writes a transaction carries and the committed form storage
gives them. Three parameters stand for the payloads storage never looks into:
`β` is the part of an entry beyond its structure (message, summary, data, …),
`V` the type of stored values, list elements and usage details, and `N` the
number type of token counts and costs. Sequence numbers and timestamps are
natural numbers; the upper bound of `Number.isSafeInteger` is not modelled.
-/

namespace Trpi.Session

inductive EntryType where
  | message | compaction | branchSummary | custom
  deriving DecidableEq

/-- `EntryBase` with the members of the concrete entry kinds in `body`. -/
structure Entry (β : Type) where
  id : String
  parentId : Option String
  seq : Nat
  timestamp : Nat
  type : EntryType
  customType : Option String
  body : β
  deriving DecidableEq

/-- An entry before storage assigns its sequence number and timestamp. -/
structure NewEntry (β : Type) where
  id : String
  parentId : Option String
  type : EntryType
  customType : Option String
  body : β
  deriving DecidableEq

structure UsageCost (N : Type) where
  input : N
  output : N
  cacheRead : N
  cacheWrite : N
  total : N
  deriving DecidableEq

structure Usage (N : Type) where
  input : N
  output : N
  cacheRead : N
  cacheWrite : N
  cacheWrite1h : Option N
  reasoning : Option N
  totalTokens : N
  cost : UsageCost N
  deriving DecidableEq

section Usage

variable {N : Type} [Add N] [Zero N]

def emptyUsage : Usage N where
  input := 0
  output := 0
  cacheRead := 0
  cacheWrite := 0
  cacheWrite1h := none
  reasoning := none
  totalTokens := 0
  cost := { input := 0, output := 0, cacheRead := 0, cacheWrite := 0, total := 0 }

/-- Optional counters stay absent as long as neither side has them. -/
def addOptional : Option N → Option N → Option N
  | none, none => none
  | left, right => some (left.getD 0 + right.getD 0)

def addUsage (left right : Usage N) : Usage N where
  input := left.input + right.input
  output := left.output + right.output
  cacheRead := left.cacheRead + right.cacheRead
  cacheWrite := left.cacheWrite + right.cacheWrite
  cacheWrite1h := addOptional left.cacheWrite1h right.cacheWrite1h
  reasoning := addOptional left.reasoning right.reasoning
  totalTokens := left.totalTokens + right.totalTokens
  cost :=
    { input := left.cost.input + right.cost.input
      output := left.cost.output + right.cost.output
      cacheRead := left.cost.cacheRead + right.cost.cacheRead
      cacheWrite := left.cost.cacheWrite + right.cost.cacheWrite
      total := left.cost.total + right.cost.total }

end Usage

theorem emptyUsage_addUsage {N : Type} [AddZeroClass N] (usage : Usage N) :
    addUsage emptyUsage usage = usage := by
  have optional : ∀ v : Option N, addOptional none v = v := by
    rintro (_ | v)
    · rfl
    · simp [addOptional]
  simp [addUsage, emptyUsage, optional]

structure UsageRow (V N : Type) where
  id : String
  seq : Nat
  usage : Usage N
  entryId : Option String
  adjustment : Bool
  details : Option V

structure NewUsageRow (V N : Type) where
  id : String
  usage : Usage N
  entryId : Option String
  adjustment : Bool
  details : Option V
  deriving DecidableEq

structure SessionStats (N : Type) where
  messageCount : Nat
  usage : Usage N

/-- The erased write shapes of one transaction. The address is raw text here:
the shapes themselves do not promise that `value()` or `list()` accept it. -/
inductive Write (β V N : Type) where
  | entry (entry : NewEntry β)
  | usage (row : NewUsageRow V N)
  | valueSet (ns key : String) (value : V)
  | valueDelete (ns key : String)
  | listAppend (ns key : String) (value : V)
  | listDelete (ns key : String)
  deriving DecidableEq

inductive CommittedWrite (β V N : Type) where
  | entry (entry : Entry β)
  | usage (row : UsageRow V N)
  | valueSet (seq : Nat) (ns key : String) (value : V)
  | valueDelete (seq : Nat) (ns key : String)
  | listAppend (seq : Nat) (ns key : String) (value : V)
  | listDelete (seq : Nat) (ns key : String)

variable {β V N : Type}

def CommittedWrite.seq : CommittedWrite β V N → Nat
  | .entry inserted => inserted.seq
  | .usage row => row.seq
  | .valueSet seq .. => seq
  | .valueDelete seq .. => seq
  | .listAppend seq .. => seq
  | .listDelete seq .. => seq

/-- What a commit reports: the sequences it used, its time and the totals after it. -/
structure CommitResult (N : Type) where
  firstSeq : Nat
  seqs : List Nat
  timestamp : Nat
  stats : SessionStats N

/-!
## Value addresses

Bound addresses of scalar values and lists (session/values.ts). An `Address`
carries the proof that the constructors accept it, so a stored address is valid
by construction; the raw namespace and key of a write are not.
-/

inductive AddressError where
  | emptyNamespace | nulInNamespace | nulInKey
  deriving DecidableEq

def AddressError.message : AddressError → String
  | .emptyNamespace => "Value namespace must not be empty"
  | .nulInNamespace => "Value namespace must not contain \\u0000"
  | .nulInKey => "Value key must not contain \\u0000"

/-- The separator of physical keys. -/
def nul : Char := '\u0000'

def validateAddress (ns key : String) : Except AddressError Unit :=
  if ns = "" then .error .emptyNamespace
  else if nul ∈ ns.toList then .error .nulInNamespace
  else if nul ∈ key.toList then .error .nulInKey
  else .ok ()

theorem validateAddress_ok_iff (ns key : String) :
    validateAddress ns key = .ok () ↔ ns ≠ "" ∧ nul ∉ ns.toList ∧ nul ∉ key.toList := by
  unfold validateAddress
  split
  · simp_all
  · split
    · simp_all
    · split <;> simp_all

/-- A namespace and key the address constructors accept. -/
structure Address where
  ns : String
  key : String
  valid : validateAddress ns key = .ok ()
  deriving DecidableEq

@[ext] theorem Address.ext {a b : Address} (ns : a.ns = b.ns) (key : a.key = b.key) : a = b := by
  cases a
  cases b
  simp_all

abbrev Value := Address

abbrev ValueList := Address

private def bindAddress (ns key : String) : Except AddressError Address :=
  match accepted : validateAddress ns key with
  | .ok () => .ok ⟨ns, key, accepted⟩
  | .error reason => .error reason

def value (ns key : String) : Except AddressError Value := bindAddress ns key

def list (ns key : String) : Except AddressError ValueList := bindAddress ns key

theorem value_of_valid {ns key : String} (valid : validateAddress ns key = .ok ()) :
    value ns key = .ok ⟨ns, key, valid⟩ := by
  unfold value bindAddress
  split <;> simp_all

theorem value_of_invalid {ns key : String} {reason : AddressError}
    (invalid : validateAddress ns key = .error reason) : value ns key = .error reason := by
  unfold value bindAddress
  split <;> simp_all

theorem list_eq_value (ns key : String) : list ns key = value ns key := rfl

theorem value_ok {ns key : String} {address : Value} (built : value ns key = .ok address) :
    address.ns = ns ∧ address.key = key := by
  unfold value bindAddress at built
  split at built
  · cases built
    exact ⟨rfl, rfl⟩
  · cases built

structure StoredValue (V : Type) where
  address : Value
  value : V
  seq : Nat

structure ListElement (V : Type) where
  seq : Nat
  value : V

structure StoredListSnapshot (V : Type) where
  address : ValueList
  elements : List (ListElement V)

def physicalKey (ns key : String) : String := ns ++ "\u0000" ++ key

theorem physicalKey_toList (ns key : String) :
    (physicalKey ns key).toList = ns.toList ++ nul :: key.toList := by
  simp [physicalKey, nul]

def Address.physicalKey (address : Address) : String :=
  Trpi.Session.physicalKey address.ns address.key

theorem physicalKey_eq_iff (address : Address) (ns key : String) :
    physicalKey ns key = address.physicalKey ↔ ns = address.ns ∧ key = address.key := by
  obtain ⟨-, nsFree, keyFree⟩ := (validateAddress_ok_iff _ _).mp address.valid
  constructor
  · intro same
    have lists := congrArg String.toList same.symm
    simp only [Address.physicalKey, physicalKey_toList] at lists
    have parts := (List.append_cons_inj_of_notMem nsFree keyFree).mp lists
    exact ⟨(String.toList_inj.mp parts.1).symm, (String.toList_inj.mp parts.2.2).symm⟩
  · rintro ⟨rfl, rfl⟩
    rfl

theorem Address.physicalKey_inj {a b : Address} : a.physicalKey = b.physicalKey ↔ a = b := by
  constructor
  · intro same
    have parts := (physicalKey_eq_iff b a.ns a.key).mp same
    exact Address.ext parts.1 parts.2
  · rintro rfl
    rfl

end Trpi.Session
