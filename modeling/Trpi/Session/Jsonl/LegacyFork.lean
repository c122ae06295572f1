import Trpi.Session.Jsonl.ForkPasses
import Trpi.Session.Jsonl.LegacyStorage

/-!
# Forking a closed legacy session

A legacy source indexes its records without materializing them, and its second
pass materializes only the selected ones. Both agree with the writes the session
opens from: selecting entries filters those writes, with the same retained tails,
also when the file has grown since it was scanned.
-/

namespace Trpi.Session.Jsonl

open Library InsertionMap List Option Except
open Library.Utf8 (decode)
open InMemoryStorageState

variable {N : Type} [JsonNumber N]

theorem RetainedKind.type_ne (kind : RetainedKind) (record : DiscardedRecord) :
    kind.type ≠ record.type := by
  cases kind <;> cases record <;> simp [RetainedKind.type, DiscardedRecord.type]

section Captured

variable [Add N] [Zero N] {dateParse : String → Option Int} {mint : Nat → String}
  {indexed : LegacyV3IndexEntry} {e : LegacyV3Entry N}

/-- The index is keyed by the ids of its records. -/
def KeyedIndex (entries : InsertionMap String LegacyV3IndexEntry) : Prop :=
  ∀ id entry, entries.get? id = some entry → entry.id = id

section

omit [JsonNumber N] [Add N] [Zero N]

theorem indexedRecord_id
    {seq : Nat} {mapped : Option String}
    (ended : (match e.record with
      | .discarded record => .ok (.discarded e.id e.parentId mapped record)
      | .retained record => do
        let _ ← legacyTime dateParse e.timestamp
        .ok (.retained e.id e.parentId (mint seq) seq record.kind)) =
        (.ok indexed : Except LegacyV3Error LegacyV3IndexEntry)) : indexed.id = e.id := by
  split at ended
  · rw [← ok.inj ended]
    rfl
  · obtain ⟨time, -, ended⟩ := bind_eq_ok ended
    rw [← ok.inj ended]
    rfl

theorem indexLegacyV3Entry_id {lineNumber seq : Nat}
    {entries : InsertionMap String LegacyV3IndexEntry}
    (success : indexLegacyV3Entry dateParse mint e lineNumber seq entries = .ok indexed) :
    indexed.id = e.id := by
  unfold indexLegacyV3Entry at success
  simp only at success
  split at success
  · exact indexedRecord_id success
  · split at success
    · cases success
    · exact indexedRecord_id success

end

theorem scan_keyed {inventory next : LegacyV3Inventory N} {line : List Char}
    (keyed : KeyedIndex inventory.entries)
    (scanned : inventory.scan dateParse mint line = .ok next) : KeyedIndex next.entries := by
  obtain ⟨e, -, rest⟩ := bind_eq_ok scanned
  split at rest
  · cases rest
  · obtain ⟨indexed, isIndexed, rest⟩ := bind_eq_ok rest
    split at rest
    · cases rest
    · rw [← ok.inj rest]
      intro id stored found
      simp only [get?_set] at found
      split at found
      · next same => rw [← some.inj found, indexLegacyV3Entry_id isIndexed, same]
      · exact keyed id stored found

omit [JsonNumber N] [Add N] [Zero N] in
theorem numberValues_last (seq : Nat) (values : List (String × String × Json N))
    (nonempty : values ≠ []) :
    (numberValues seq values).getLast?.map CommittedWrite.seq = some (seq + values.length - 1) ∧
      (numberValues seq values).length = values.length := by
  induction values generalizing seq with
  | nil => exact absurd rfl nonempty
  | cons head rest ih =>
    obtain ⟨ns, key, v⟩ := head
    cases rest with
    | nil => exact ⟨rfl, rfl⟩
    | cons second rest =>
      obtain ⟨last, length⟩ := ih (seq + 1) (cons_ne_nil _ _)
      constructor
      · rw [numberValues, getLast?_cons_of_ne_nil (by obtain ⟨a, b, c⟩ := second; simp [numberValues]),
          last]
        simp only [length_cons, some.injEq]
        omega
      · rw [numberValues, length_cons, length]
        rfl

/-- What reading a legacy source establishes. -/
structure CapturedSource (source : LegacyV3Source N) : Prop where
  keyed : KeyedIndex source.entries
  nextSeq : source.values.getLast?.map CommittedWrite.seq = some (source.nextSeq - 1)
  positive : 1 ≤ source.nextSeq

theorem read_captured {resolveParent : String → Option String} {file : List UInt8}
    {source : LegacyV3Source N}
    (captured : LegacyV3Source.read dateParse resolveParent mint file = .ok source) :
    CapturedSource source := by
  unfold LegacyV3Source.read at captured
  split at captured
  · cases captured
  · cases captured
  split at captured
  · cases captured
  next inventory scanned =>
  split at captured
  · cases captured
  next values normalized =>
  split at captured
  · cases captured
  rw [← ok.inj captured]
  have keyed : KeyedIndex inventory.entries :=
    run_invariant (fun inventory : LegacyV3Inventory N => KeyedIndex inventory.entries)
      (fun _ _ _ _ keyed stepped => scan_keyed keyed stepped)
      (show KeyedIndex (LegacyV3Inventory.empty : LegacyV3Inventory N).entries by
        intro id e found
        cases found) scanned
  obtain ⟨labels, -, rest⟩ := bind_eq_ok normalized
  obtain ⟨tip, -, numbered⟩ := bind_eq_ok rest
  have last := fun configuration labelSets name =>
    numberValues_last (N := N) inventory.nextSeq (name ++ labelSets ++
      [("pi.branch.tip", "main", nullableString tip)] ++ configuration) (by simp)
  rw [← ok.inj numbered]
  refine ⟨keyed, ?_, ?_⟩
  · simp only [(last _ _ _).1, (last _ _ _).2]
  · simp only [(last _ _ _).2, length_append, length_singleton]
    omega

end Captured

namespace LegacyV3Source

variable {dateParse : String → Option Int} {source : LegacyV3Source N} {selected : String → Bool}
  {pairs : List (LegacyV3Entry N × LegacyV3IndexEntry)}
  {pair : LegacyV3Entry N × LegacyV3IndexEntry} {file : List UInt8}
  {yielded : Option (JsonlEntry N)} {tail : List LegacyV3IndexEntry} {e : LegacyV3IndexEntry}
  {required all : List String} {whole cache : InsertionMap String (Json N)}

/-- A record beside the index entry it was captured as. -/
def Matches (pair : LegacyV3Entry N × LegacyV3IndexEntry) : Prop :=
  pair.1.id = pair.2.id ∧ pair.1.record.type = pair.2.type

theorem run_readCapturedEntry {inputs : List (List Char × LegacyV3IndexEntry)}
    {read pairs : List (LegacyV3Entry N × LegacyV3IndexEntry)}
    (ran : run readCapturedEntry read inputs = .ok pairs) :
    ∃ added, pairs = read ++ added ∧ added.map Prod.snd = inputs.map Prod.snd ∧
      ∀ pair ∈ added, Matches pair := by
  induction inputs generalizing read with
  | nil => exact ⟨[], by simpa using (ok.inj ran).symm, rfl, by simp⟩
  | cons input rest ih =>
    obtain ⟨next, stepped, ran⟩ := run_cons_eq_ok.mp ran
    obtain ⟨added, rfl, sameIndex, agrees⟩ := ih ran
    unfold readCapturedEntry at stepped
    split at stepped
    · cases stepped
    · next e parsed =>
      split at stepped
      · cases stepped
      · next unchanged =>
        rw [not_or, not_not, not_not] at unchanged
        rw [← ok.inj stepped, append_assoc]
        refine ⟨(e, input.2) :: added, rfl, by simp [sameIndex], fun pair mem => ?_⟩
        rcases mem_cons.mp mem with rfl | mem
        · exact unchanged
        · exact agrees pair mem

omit [JsonNumber N] in
theorem zip_append_of_length_le {α γ : Type} {first : List α} {second : List γ}
    (short : second.length ≤ first.length) (more : List α) :
    (first ++ more).zip second = first.zip second := by
  induction first generalizing second with
  | nil =>
    rw [length_eq_zero_iff.mp (Nat.le_zero.mp short)]
    simp
  | cons head rest ih =>
    cases second with
    | nil => simp
    | cons other others =>
      rw [cons_append, zip_cons_cons, zip_cons_cons, ih (Nat.le_of_succ_le_succ short)]

theorem readJsonlHeader_append {header : JsonlParsedSessionHeader}
    (read : readJsonlHeader N dateParse (decode file) = .ok header) (more : List UInt8) :
    readJsonlHeader N dateParse (decode (file ++ more)) = .ok header := by
  obtain ⟨rest, grown⟩ := splitLines_decode_append file more
  unfold readJsonlHeader at read ⊢
  rw [← grown]
  cases lines : (splitLines (decode file)).1 with
  | nil => simp [lines] at read
  | cons first others =>
    rw [lines] at read
    exact read

theorem readCapturedEntries_ok (read : source.readCapturedEntries dateParse file = .ok pairs) :
    pairs.map Prod.snd = source.entries.values ∧ (∀ pair ∈ pairs, Matches pair) ∧
      ∀ more, source.readCapturedEntries dateParse (file ++ more) = .ok pairs := by
  unfold readCapturedEntries at read
  simp only at read
  split at read
  · next header parsed =>
    split at read
    · cases read
    next same =>
    split at read
    · cases read
    next whole =>
    obtain ⟨added, rfl, sameIndex, agrees⟩ := run_readCapturedEntry read
    have long : source.entries.values.length ≤ ((splitLines (decode file)).1.drop 1).length := by
      rw [length_drop]
      omega
    refine ⟨?_, agrees, fun more => ?_⟩
    · rw [sameIndex, map_snd_zip long]
    · obtain ⟨rest, grown⟩ := splitLines_decode_append file more
      have longer : ¬ ((splitLines (decode file)).1 ++ rest).length <
          source.entries.values.length + 1 := by
        rw [length_append]
        omega
      unfold readCapturedEntries
      simp only [readJsonlHeader_append parsed more, if_neg same]
      rw [← grown, if_neg longer, drop_append_of_le_length (by omega), zip_append_of_length_le long]
      exact read
  · cases read

section

omit [JsonNumber N]

theorem ancestry_subset (older : List LegacyV3IndexEntry) (current : Option String) :
    ∀ e ∈ ancestry older current, e ∈ older := by
  induction older generalizing current with
  | nil => cases current <;> simp [ancestry]
  | cons head older ih =>
    cases current with
    | none => simp [ancestry]
    | some current =>
      intro e mem
      rw [ancestry] at mem
      split at mem
      · rcases mem_cons.mp mem with rfl | mem
        · exact mem_cons_self
        · exact mem_cons_of_mem _ (ih _ e mem)
      · exact mem_cons_of_mem _ (ih _ e mem)

theorem upThrough_subset {id : String} {path tail : List LegacyV3IndexEntry}
    (found : upThrough id path = some tail) : ∀ e ∈ tail, e ∈ path := by
  induction path generalizing tail with
  | nil => cases found
  | cons head rest ih =>
    rw [upThrough] at found
    split at found
    · rw [← some.inj found]
      simp
    · obtain ⟨inner, isInner, rfl⟩ := map_eq_some_iff.mp found
      intro e mem
      rcases mem_cons.mp mem with rfl | mem
      · exact mem_cons_self
      · exact mem_cons_of_mem _ (ih isInner e mem)

theorem requiredTail_subset (required : source.requiredTail selected e = .ok tail) :
    ∀ ancestor ∈ tail, ancestor ∈ source.entries.values := by
  unfold requiredTail at required
  split at required
  · split at required
    · unfold retainedTailStructure at required
      split at required
      · cases required
      · next found =>
        rw [← ok.inj required]
        intro ancestor mem
        exact mem_reverse.mp (ancestry_subset _ _ _ (upThrough_subset found ancestor mem))
    · rw [← ok.inj required]
      simp
  · rw [← ok.inj required]
    simp

theorem requiredTail_selected (selected : String → Bool) (e : LegacyV3IndexEntry) :
    source.requiredTail selected e = source.requiredTail (fun _ => true) e ∨
      source.requiredTail selected e = .ok [] := by
  unfold requiredTail
  split
  · split
    · exact .inl rfl
    · exact .inr rfl
  · exact .inl rfl

end

structure Requires (source : LegacyV3Source N) (selected : String → Bool) (required : List String) :
    Prop where
  tails : ∀ entry ∈ source.entries.values, ∃ tail, source.requiredTail selected entry = .ok tail ∧
    ∀ ancestor ∈ tail, producesMessage ancestor = true → ancestor.id ∈ required
  origin : ∀ id ∈ required, ∃ entry ∈ source.entries.values, ∃ tail,
    source.requiredTail selected entry = .ok tail ∧
      ∃ ancestor ∈ tail, producesMessage ancestor = true ∧ ancestor.id = id

section

omit [JsonNumber N]

theorem run_appendRequired {entries : List LegacyV3IndexEntry} {earlier required : List String}
    (ran : run (source.appendRequired selected) earlier entries = .ok required) :
    (∀ id ∈ earlier, id ∈ required) ∧
    (∀ e ∈ entries, ∃ tail, source.requiredTail selected e = .ok tail ∧
      ∀ ancestor ∈ tail, producesMessage ancestor = true → ancestor.id ∈ required) ∧
    ∀ id ∈ required, id ∈ earlier ∨ ∃ e ∈ entries, ∃ tail,
      source.requiredTail selected e = .ok tail ∧
        ∃ ancestor ∈ tail, producesMessage ancestor = true ∧ ancestor.id = id := by
  induction entries generalizing earlier with
  | nil =>
    rw [← ok.inj ran]
    exact ⟨fun _ mem => mem, by simp, fun _ mem => .inl mem⟩
  | cons e rest ih =>
    obtain ⟨next, stepped, ran⟩ := run_cons_eq_ok.mp ran
    obtain ⟨kept, tails, origin⟩ := ih ran
    unfold appendRequired at stepped
    cases asked : source.requiredTail selected e with
    | error reason => simp [asked, Except.map] at stepped
    | ok tail =>
      rw [asked] at stepped
      cases stepped
      refine ⟨fun id mem => kept id (mem_append_left _ mem), ?_, ?_⟩
      · intro other mem
        rcases mem_cons.mp mem with rfl | mem
        · refine ⟨tail, asked, fun ancestor inside produces => kept _ ?_⟩
          exact mem_append_right _ (mem_map.mpr ⟨ancestor, mem_filter.mpr ⟨inside, produces⟩, rfl⟩)
        · exact tails other mem
      · intro id mem
        rcases origin id mem with before | ⟨other, inside, rest⟩
        · rcases mem_append.mp before with old | new
          · exact .inl old
          · obtain ⟨ancestor, kept, named⟩ := mem_map.mp new
            obtain ⟨inTail, produces⟩ := mem_filter.mp kept
            exact .inr ⟨e, mem_cons_self, tail, asked, ancestor, inTail, produces, named⟩
        · exact .inr ⟨other, mem_cons_of_mem _ inside, rest⟩

theorem collectRequired_requires
    (collected : source.collectRequiredTailMessageIds selected = .ok required) :
    source.Requires selected required := by
  obtain ⟨-, tails, origin⟩ := run_appendRequired collected
  refine ⟨tails, fun id mem => ?_⟩
  rcases origin id mem with nothing | found
  · cases nothing
  · exact found

theorem collectRequired_selected
    (collected : source.collectRequiredTailMessageIds (fun _ => true) = .ok all)
    (selected : String → Bool) : ∃ required,
      source.collectRequiredTailMessageIds selected = .ok required ∧ ∀ id ∈ required, id ∈ all := by
  have whole := collectRequired_requires collected
  have succeeds : ∃ required, source.collectRequiredTailMessageIds selected = .ok required := by
    refine (run_succeeds_iff (fun _ => True)
      (fun e => ∃ tail, source.requiredTail selected e = .ok tail) ?_
      (fun _ _ _ _ _ _ => trivial) trivial).mpr ?_
    · intro required e _ _
      unfold appendRequired
      cases source.requiredTail selected e <;> simp [Except.map]
    · intro e mem
      obtain ⟨tail, asked, -⟩ := whole.tails e mem
      rcases source.requiredTail_selected selected e with same | none
      · exact ⟨tail, same.trans asked⟩
      · exact ⟨[], none⟩
  obtain ⟨required, found⟩ := succeeds
  refine ⟨required, found, fun id mem => ?_⟩
  obtain ⟨e, inside, tail, asked, ancestor, inTail, produces, rfl⟩ :=
    (collectRequired_requires found).origin id mem
  obtain ⟨wholeTail, wholeAsked, listed⟩ := whole.tails e inside
  rcases source.requiredTail_selected selected e with same | none
  · rw [same, wholeAsked] at asked
    exact listed ancestor (ok.inj asked ▸ inTail) produces
  · rw [none] at asked
    rw [← ok.inj asked] at inTail
    cases inTail

end

/-- The caches of a pass over a selection and of the pass over everything. -/
structure CachesAgree (source : LegacyV3Source N) (required all : List String)
    (cache whole : InsertionMap String (Json N)) : Prop where
  agree : ∀ id ∈ required, cache.get? id = whole.get? id
  within : ∀ id, id ∉ required → cache.get? id = none
  wholeWithin : ∀ id, id ∉ all → whole.get? id = none

theorem cacheMessage_selected {required all : List String} (fewer : ∀ id ∈ required, id ∈ all)
    {next : InsertionMap String (Json N)} (caches : source.CachesAgree required all cache whole)
    {e : LegacyV3Entry N} (cached : source.cacheMessage dateParse all whole e = .ok next) :
    ∃ selected, source.cacheMessage dateParse required cache e = .ok selected ∧
      source.CachesAgree required all selected next := by
  unfold cacheMessage at cached ⊢
  by_cases asked : e.id ∈ required
  · rw [if_pos (fewer _ asked)] at cached
    rw [if_pos asked]
    split at cached
    · cases cached
    · rw [← ok.inj cached]
      exact ⟨cache, rfl, caches⟩
    · next m projected =>
      rw [← ok.inj cached]
      refine ⟨_, rfl, fun id mem => ?_, fun id outside => ?_, fun id outside => ?_⟩
      · rw [get?_set, get?_set, caches.agree id mem]
      · rw [get?_set_of_ne _ _ fun (same : e.id = id) => outside (same ▸ asked)]
        exact caches.within id outside
      · rw [get?_set_of_ne _ _ fun (same : e.id = id) =>
          outside (same ▸ fewer _ asked)]
        exact caches.wholeWithin id outside
  · rw [if_neg asked]
    refine ⟨cache, rfl, ?_⟩
    split at cached
    · next listed =>
      split at cached
      · cases cached
      · rw [← ok.inj cached]
        exact caches
      · rw [← ok.inj cached]
        refine ⟨fun id mem => ?_, caches.within, fun id outside => ?_⟩
        · rw [get?_set_of_ne _ _ fun (same : e.id = id) => asked (same ▸ mem)]
          exact caches.agree id mem
        · rw [get?_set_of_ne _ _ fun (same : e.id = id) => outside (same ▸ listed)]
          exact caches.wholeWithin id outside
    · rw [← ok.inj cached]
      exact caches

omit [JsonNumber N] in
theorem notMem_of_not_producesMessage (keyed : KeyedIndex source.entries)
    (requires : source.Requires selected required) {ancestor : LegacyV3IndexEntry}
    (indexed : ancestor ∈ source.entries.values)
    (silent : producesMessage ancestor = false) : ancestor.id ∉ required := by
  intro mem
  obtain ⟨e, inside, tail, asked, other, inTail, produces, named⟩ :=
    requires.origin ancestor.id mem
  obtain ⟨key, found⟩ := (source.entries.mem_values_iff ancestor).mp indexed
  obtain ⟨otherKey, otherFound⟩ :=
    (source.entries.mem_values_iff other).mp (source.requiredTail_subset asked other inTail)
  have sameKey : otherKey = key := by
    rw [← keyed key ancestor found, ← keyed otherKey other otherFound, named]
  rw [sameKey, found] at otherFound
  rw [some.inj otherFound, produces] at silent
  cases silent

omit [JsonNumber N] in
/-- Both caches give a selected compaction the same messages. -/
theorem retainedMessages_eq (keyed : KeyedIndex source.entries) {required all : List String}
    (requires : source.Requires selected required)
    (wholeRequires : source.Requires (fun _ => true) all)
    (caches : source.CachesAgree required all cache whole) (indexed : e ∈ source.entries.values)
    (asked : source.requiredTail selected e = .ok tail) :
    tail.filterMap (fun ancestor => cache.get? ancestor.id) =
      tail.filterMap (fun ancestor => whole.get? ancestor.id) := by
  apply filterMap_congr
  intro ancestor inTail
  have inIndex := source.requiredTail_subset asked ancestor inTail
  cases produces : producesMessage ancestor with
  | true =>
    obtain ⟨same, found, listed⟩ := requires.tails e indexed
    rw [found] at asked
    exact caches.agree _ (listed ancestor (ok.inj asked ▸ inTail) produces)
  | false =>
    rw [caches.within _ (source.notMem_of_not_producesMessage keyed requires inIndex produces),
      caches.wholeWithin _
        (source.notMem_of_not_producesMessage keyed wholeRequires inIndex produces)]

theorem yieldEntry_all (matched : Matches pair)
    (success : source.yieldEntry dateParse (fun _ => true) whole pair = .ok yielded) :
    ∀ structures, source.appendStructure structures pair.2 =
      .ok (structures ++ yielded.toList.map fun e => (e.id, e.parentId)) := by
  obtain ⟨⟨id, parentId, timestamp, record⟩, indexed⟩ := pair
  obtain ⟨-, sameType⟩ := matched
  intro structures
  cases record with
  | discarded record =>
    cases indexed with
    | discarded otherId otherParent mappedId other =>
      rw [← ok.inj success]
      simp [appendStructure]
    | retained otherId otherParent mappedId seq kind =>
      exact absurd sameType.symm (RetainedKind.type_ne kind record)
  | retained record =>
    cases indexed with
    | discarded otherId otherParent mappedId other =>
      exact absurd sameType (RetainedKind.type_ne record.kind other)
    | retained otherId otherParent mappedId seq kind =>
      simp only [yieldEntry, if_true] at success
      obtain ⟨tail, -, success⟩ := bind_eq_ok success
      obtain ⟨e, normalized, success⟩ := bind_eq_ok success
      obtain ⟨parent, resolved, normalized⟩ := bind_eq_ok normalized
      obtain ⟨time, -, normalized⟩ := bind_eq_ok normalized
      obtain ⟨body, -, normalized⟩ := bind_eq_ok normalized
      rw [← ok.inj success, ← ok.inj normalized]
      simp [appendStructure, resolved, Except.map]

section

variable (keyed : KeyedIndex source.entries) {required all : List String}
  (requires : source.Requires selected required)
  (wholeRequires : source.Requires (fun _ => true) all)

include keyed requires wholeRequires

theorem yieldEntry_selected (caches : source.CachesAgree required all cache whole)
    (indexed : pair.2 ∈ source.entries.values)
    (success : source.yieldEntry dateParse (fun _ => true) whole pair = .ok yielded) :
    source.yieldEntry dateParse selected cache pair =
      .ok (yielded.filter fun e => selected e.id) := by
  obtain ⟨⟨id, parentId, timestamp, record⟩, indexEntry⟩ := pair
  cases record with
  | discarded record =>
    rw [← ok.inj success]
    rfl
  | retained record =>
    cases indexEntry with
    | discarded otherId otherParent mappedId other =>
      rw [← ok.inj success]
      rfl
    | retained otherId otherParent mappedId seq kind =>
      simp only [yieldEntry, if_true] at success
      obtain ⟨wholeTail, wholeAsked, success⟩ := bind_eq_ok success
      obtain ⟨e, normalized, success⟩ := bind_eq_ok success
      have entryId : e.id = mappedId := by
        obtain ⟨parent, -, normalized⟩ := bind_eq_ok normalized
        obtain ⟨time, -, normalized⟩ := bind_eq_ok normalized
        obtain ⟨body, -, normalized⟩ := bind_eq_ok normalized
        rw [← ok.inj normalized]
      rw [← ok.inj success, Option.filter, entryId]
      simp only [yieldEntry]
      cases isSelected : selected mappedId with
      | false => rfl
      | true =>
        have asked : source.requiredTail selected (.retained otherId otherParent mappedId seq kind) =
            .ok wholeTail := by
          rw [← wholeAsked]
          cases kind <;> simp [requiredTail, isSelected]
        simp only [if_true, asked, source.retainedMessages_eq keyed requires wholeRequires caches
          indexed asked, normalized, bind, Except.bind]

theorem run_passStep_selected (fewer : ∀ id ∈ required, id ∈ all)
    (indexed : ∀ pair ∈ pairs, pair.2 ∈ source.entries.values) (pass : Pass N) {whole last : Pass N}
    (caches : source.CachesAgree required all pass.tailMessages whole.tailMessages)
    (filtered : pass.entries = whole.entries.filter fun e => selected e.id)
    (ran : run (source.passStep dateParse (fun _ => true) all) whole pairs = .ok last) :
    ∃ reached, run (source.passStep dateParse selected required) pass pairs = .ok reached ∧
      reached.entries = last.entries.filter fun e => selected e.id := by
  induction pairs generalizing pass whole with
  | nil =>
    rw [← ok.inj ran]
    exact ⟨pass, rfl, filtered⟩
  | cons pair rest ih =>
    obtain ⟨next, stepped, ran⟩ := run_cons_eq_ok.mp ran
    obtain ⟨wholeCache, cachedWhole, stepped⟩ := bind_eq_ok stepped
    obtain ⟨yielded, yieldedWhole, stepped⟩ := bind_eq_ok stepped
    obtain ⟨cache, cached, agree⟩ := source.cacheMessage_selected fewer caches cachedWhole
    have yields := source.yieldEntry_selected keyed requires wholeRequires agree
      (indexed pair mem_cons_self) yieldedWhole
    rw [← ok.inj stepped] at ran
    obtain ⟨reached, ranSelected, final⟩ := ih
      (fun other mem => indexed other (mem_cons_of_mem _ mem))
      { tailMessages := cache
        entries := pass.entries ++ (yielded.filter fun e => selected e.id).toList }
      agree (by
        rw [filter_append, filtered]
        cases yielded with
        | none => rfl
        | some e => cases isSelected : selected e.id <;> simp [Option.filter, isSelected]) ran
    refine ⟨reached, run_cons_eq_ok.mpr ⟨_, ?_, ranSelected⟩, final⟩
    simp only [passStep, cached, yields, bind, Except.bind]

end

theorem run_passStep_structures (matched : ∀ pair ∈ pairs, Matches pair) {whole last : Pass N}
    {structures : List (String × Option String)}
    (shown : structures = whole.entries.map fun e => (e.id, e.parentId))
    (ran : run (source.passStep dateParse (fun _ => true) all) whole pairs = .ok last) :
    run source.appendStructure structures (pairs.map Prod.snd) =
      .ok (last.entries.map fun e => (e.id, e.parentId)) := by
  induction pairs generalizing whole structures with
  | nil =>
    rw [← ok.inj ran, shown]
    rfl
  | cons pair rest ih =>
    obtain ⟨next, stepped, ran⟩ := run_cons_eq_ok.mp ran
    obtain ⟨cache, -, stepped⟩ := bind_eq_ok stepped
    obtain ⟨yielded, isYielded, stepped⟩ := bind_eq_ok stepped
    rw [← ok.inj stepped] at ran
    rw [map_cons, run_cons_ok
      (source.yieldEntry_all (matched pair mem_cons_self) isYielded structures)]
    refine ih (fun other mem => matched other (mem_cons_of_mem _ mem)) ?_ ran
    rw [shown, map_append]

/-- Writes of a source that can be opened: their structures are indexed without
them, and a selection filters them, also once the file has grown. -/
theorem writes_selected (keyed : KeyedIndex source.entries) {writes : List (JsonlCommittedWrite N)}
    (materialized : source.writes dateParse file (fun _ => true) = .ok writes) :
    ∃ entries : List (JsonlEntry N), writes = entries.map .entry ++ source.values ∧
      source.entryStructures = .ok (entries.map fun e => (e.id, e.parentId)) ∧
      ∀ (selected : String → Bool) (more : List UInt8),
        source.writes dateParse (file ++ more) selected =
          .ok ((entries.filter fun e => selected e.id).map .entry ++ source.values) := by
  obtain ⟨all, collected, rest⟩ := bind_eq_ok materialized
  obtain ⟨pairs, read, rest⟩ := bind_eq_ok rest
  obtain ⟨pass, ran, yielded⟩ := bind_eq_ok rest
  obtain ⟨sameIndex, matched, grown⟩ := readCapturedEntries_ok read
  have indexed : ∀ pair ∈ pairs, pair.2 ∈ source.entries.values := fun pair mem =>
    sameIndex ▸ mem_map_of_mem mem
  refine ⟨pass.entries, (ok.inj yielded).symm, ?_, fun selected more => ?_⟩
  · rw [entryStructures, ← sameIndex]
    exact source.run_passStep_structures matched rfl ran
  · obtain ⟨required, collectedSelected, fewer⟩ := source.collectRequired_selected collected selected
    have empty : source.CachesAgree required all .empty .empty :=
      ⟨fun _ _ => rfl, fun _ _ => rfl, fun _ _ => rfl⟩
    obtain ⟨reached, ranSelected, final⟩ := source.run_passStep_selected keyed
      (source.collectRequired_requires collectedSelected) (source.collectRequired_requires collected)
      fewer indexed { tailMessages := .empty, entries := [] } empty rfl ran
    simp only [LegacyV3Source.writes, collectedSelected, grown more, ranSelected, final, bind,
      Except.bind]

end LegacyV3Source

end Trpi.Session.Jsonl
