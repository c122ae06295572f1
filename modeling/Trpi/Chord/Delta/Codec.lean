import Trpi.Chord.Delta.Op
import Trpi.Library.InsertionMap
import Trpi.Library.Transducer
import Trpi.Library.JsonInt

/-!
# Path interning

`encoder` and `decoder` of chord/src/delta/index.ts. A wire operation is a tuple of
JSON values behind its verb, so a short form differs from a long one by its length
alone. Ids live across batches, an omitted path lives inside its batch, and a
replacement forgets both.
-/

namespace Trpi.Chord.Delta

open Library JsonNumber Edit InsertionMap List

inductive Verb where
  | r | s | d | a | t | p | define
  | other (tag : String)

/-- `args` is the tuple without its verb; `define` is the verb `#`. -/
structure WireOp (N : Type) where
  verb : Verb
  args : List (Json N)

section

variable {N : Type} [JsonNumber N]

def Edit.verb {V : Type} : Edit V → Verb
  | .s _ => .s
  | .d => .d
  | .a _ => .a
  | .t _ => .t
  | .p .. => .p

/-- What the tuple of an operation holds after the path. -/
def Edit.args : Edit (Json N) → List (Json N)
  | .s value => [value]
  | .d => []
  | .a text => [.str text]
  | .t count => [.num (JsonNumber.ofNat count)]
  | .p index remove items =>
    [.num (JsonNumber.ofNat index), .num (JsonNumber.ofNat remove), .arr items]

/-- `seen` is a set; `previous` is passed along a batch. -/
structure Encoder where
  seen : List String
  ids : InsertionMap String Nat
  nextId : Nat

def encoder : Encoder where
  seen := []
  ids := .empty
  nextId := 0

/-- The reference to a path, with its definition on the second use. -/
def Encoder.refer (encoder : Encoder) (path : Path) (key : String) :
    Encoder × List (WireOp N) × Json N :=
  match encoder.ids.get? key with
  | some id => (encoder, [], .num (JsonNumber.ofNat id))
  | none =>
    if key ∈ encoder.seen then
      let id := encoder.nextId
      ({ encoder with nextId := id + 1, ids := encoder.ids.set key id },
        [⟨.define, [.num (JsonNumber.ofNat id), pathToJson path]⟩], .num (JsonNumber.ofNat id))
    else ({ encoder with seen := key :: encoder.seen }, [], pathToJson path)

/-- One round of `encode`, with the key of the last path in this batch. -/
def encodeOp (s : Encoder) (previous : Option String) :
    Op (Json N) → Encoder × Option String × List (WireOp N)
  | .r value => (encoder, none, [⟨.r, [value]⟩])
  | .edit path edit =>
    let key := pathKey N path
    if previous = some key then (s, previous, [⟨edit.verb, edit.args⟩])
    else
      let (s, definition, ref) := s.refer path key
      (s, some key, definition ++ [⟨edit.verb, ref :: edit.args⟩])

def encodeOps (s : Encoder) (previous : Option String) :
    List (Op (Json N)) → Encoder × List (WireOp N)
  | [] => (s, [])
  | op :: rest =>
    let (s, previous, out) := encodeOp s previous op
    let (s, more) := encodeOps s previous rest
    (s, out ++ more)

def Encoder.encode (s : Encoder) (ops : List (Op (Json N))) : Encoder × List (WireOp N) :=
  encodeOps s none ops

inductive PathRef where
  | id (id : Nat)
  | inline (path : Path)

/-- A wire operation that passed `assertValidWireOp`; `ref` is absent in a short form. -/
inductive ValidWireOp (N : Type) where
  | r (value : Json N)
  | define (id : Nat) (path : Path)
  | edit (ref : Option PathRef) (edit : Edit (Json N))

def readNat (message : String) : Json N → Except (DeltaError N) Nat
  | .num number => (JsonNumber.toNat? number).elim (.error (.shape message)) .ok
  | _ => .error (.shape message)

def readText (message : String) : Json N → Except (DeltaError N) String
  | .str text => .ok text
  | _ => .error (.shape message)

def readItems (message : String) : Json N → Except (DeltaError N) (List (Json N))
  | .arr items => .ok items
  | _ => .error (.shape message)

/-- `okRef`: a string is not a path. -/
def readRef : Json N → Except (DeltaError N) PathRef
  | .num number => (readNat "bad path id" (.num number)).map .id
  | .arr segments => (readPath segments).map .inline
  | _ => .error (.shape "path is not an array")

/-- The three values after the path of a `p`, in the order they are checked. -/
def readSplice (index remove items : Json N) : Except (DeltaError N) (Edit (Json N)) := do
  let index ← readNat "p index" index
  let remove ← readNat "p remove" remove
  let items ← readItems "p items" items
  .ok (.p index remove items)

/-- `assertValidWireOp` with what it accepts; the arity tells short forms from long ones. -/
def readWireOp (op : WireOp N) : Except (DeltaError N) (ValidWireOp N) :=
  match op.verb, op.args with
  | .r, [value] => .ok (.r value)
  | .r, _ => .error (.shape "r arity")
  | .s, [ref, value] => (readRef ref).map fun ref => .edit (some ref) (.s value)
  | .s, [value] => .ok (.edit none (.s value))
  | .s, _ => .error (.shape "s arity")
  | .d, [ref] => (readRef ref).map fun ref => .edit (some ref) .d
  | .d, [] => .ok (.edit none .d)
  | .d, _ => .error (.shape "d arity")
  | .a, [ref, text] => do
    let ref ← readRef ref
    let text ← readText "a value" text
    .ok (.edit (some ref) (.a text))
  | .a, [text] => (readText "a value" text).map fun text => .edit none (.a text)
  | .a, _ => .error (.shape "a arity")
  | .t, [ref, count] => do
    let ref ← readRef ref
    let count ← readNat "t count" count
    .ok (.edit (some ref) (.t count))
  | .t, [count] => (readNat "t count" count).map fun count => .edit none (.t count)
  | .t, _ => .error (.shape "t arity")
  | .p, [ref, index, remove, items] => do
    let ref ← readRef ref
    (readSplice index remove items).map fun edit => .edit (some ref) edit
  | .p, [index, remove, items] => (readSplice index remove items).map fun edit => .edit none edit
  | .p, _ => .error (.shape "p arity")
  | .define, [id, .arr segments] => do
    let id ← readNat "# shape" id
    let path ← readPath segments
    .ok (.define id path)
  | .define, _ => .error (.shape "# shape")
  | .other tag, _ => .error (.shape ("unknown op verb: " ++ tag))

structure Decoder where
  paths : InsertionMap Nat Path

def decoder : Decoder where
  paths := .empty

/-- The path of an operation and the last path of the batch after it. -/
def Decoder.resolve (s : Decoder) (previous : Option Path) :
    Option PathRef → Except (DeltaError N) Path
  | none => previous.elim (.error (.unresolvable (.arr []))) .ok
  | some (.inline path) => .ok path
  | some (.id id) =>
    (s.paths.get? id).elim (.error (.unresolvable (.num (JsonNumber.ofNat id)))) .ok

/-- One round of `decode`; the state holds the last path of the batch. -/
def decodeOp (s : Decoder × Option Path) (op : WireOp N) :
    Except (DeltaError N) ((Decoder × Option Path) × List (Op (Json N))) := do
  match ← readWireOp op with
  | .define id path => .ok ((⟨s.1.paths.set id path⟩, s.2), [])
  | .r value => .ok ((decoder, none), [.r value])
  | .edit ref edit =>
    let path ← s.1.resolve s.2 ref
    if path = [] ∧ edit.mayAddressRoot = false then .error (.unresolvable (pathToJson path))
    else .ok ((s.1, some path), [.edit path edit])

def Decoder.decode (s : Decoder) (wire : List (WireOp N)) :
    Except (DeltaError N) (Decoder × List (Op (Json N))) :=
  (transduce decodeOp (s, none) wire).map fun done => (done.1.1, done.2)

def encodeBatches (s : Encoder) : List (List (Op (Json N))) → List (List (WireOp N))
  | [] => []
  | batch :: rest =>
    let (s, wire) := s.encode batch
    wire :: encodeBatches s rest

def decodeBatches (s : Decoder) :
    List (List (WireOp N)) → Except (DeltaError N) (List (List (Op (Json N))))
  | [] => .ok []
  | wire :: rest => do
    let (s, batch) ← s.decode wire
    let batches ← decodeBatches s rest
    .ok (batch :: batches)

end

/-!
## Decoding what was encoded

The encoder's keys and the decoder's paths stay in step operation by operation. A
replacement brings both back to their start, so a decoder may join at any batch
that begins with one.
-/

variable {N : Type} [JsonNumber N]

/-- Every id the encoder refers to is one the decoder resolves to the same path. -/
structure IdsAgree (N : Type) [JsonNumber N] (s : Encoder) (mirror : Decoder) : Prop where
  fresh : ∀ key id, s.ids.get? key = some id → id < s.nextId
  resolved : ∀ key id, s.ids.get? key = some id →
    ∃ path, pathKey N path = key ∧ mirror.paths.get? id = some path

/-- Encoder and decoder between two operations of a batch. -/
structure Synced (N : Type) [JsonNumber N] (s : Encoder) (previous : Option String)
    (mirror : Decoder × Option Path) : Prop where
  ids : IdsAgree N s mirror.1
  previous : previous = mirror.2.map (pathKey N)

theorem synced_start : Synced N encoder none (decoder, none) where
  ids := ⟨nofun, nofun⟩
  previous := rfl

variable {s : Encoder} {path : Path} {mirror : Decoder} {previous : Option String}

theorem IdsAgree.batch (agree : IdsAgree N s mirror) :
    Synced N s none (mirror, none) :=
  ⟨agree, rfl⟩

theorem readSplice_args (i remove : Nat) (items : List (Json N)) :
    readSplice (.num (ofNat i)) (.num (ofNat remove)) (.arr items) = .ok (.p i remove items) := by
  simp [readSplice, readNat, readItems, toNat?_ofNat, bind, Except.bind]

theorem readWireOp_short (edit : Edit (Json N)) :
    readWireOp ⟨edit.verb, edit.args⟩ = .ok (.edit none edit) := by
  cases edit with
  | s v => rfl
  | d => rfl
  | a text => rfl
  | t count =>
    simp [verb, args, readWireOp, readNat, toNat?_ofNat, Except.map]
  | p i remove items =>
    simp [verb, args, readWireOp, readSplice_args, Except.map]

theorem readWireOp_long {cell : Json N} {ref : PathRef} (reads : readRef cell = .ok ref)
    (edit : Edit (Json N)) :
    readWireOp ⟨edit.verb, cell :: edit.args⟩ = .ok (.edit (some ref) edit) := by
  cases edit with
  | s v => simp [verb, args, readWireOp, reads, Except.map]
  | d => simp [verb, args, readWireOp, reads, Except.map]
  | a text => simp [verb, args, readWireOp, reads, readText, bind, Except.bind]
  | t count =>
    simp [verb, args, readWireOp, reads, readNat, toNat?_ofNat, bind, Except.bind]
  | p i remove items =>
    simp [verb, args, readWireOp, reads, readSplice_args, bind, Except.bind, Except.map]

theorem readRef_id (id : Nat) : readRef (.num (ofNat id) : Json N) = .ok (.id id) := by
  simp [readRef, readNat, toNat?_ofNat, Except.map]

theorem readRef_path (safe : ∀ seg ∈ path, seg.safe = true) :
    readRef (pathToJson path : Json N) = .ok (.inline path) := by
  simp [readRef, pathToJson, readPath_toJson safe, Except.map]

theorem readWireOp_define (id : Nat) (safe : ∀ seg ∈ path, seg.safe = true) :
    readWireOp ⟨.define, [.num (ofNat id), (pathToJson path : Json N)]⟩ =
      .ok (.define id path) := by
  simp [readWireOp, pathToJson, readNat, toNat?_ofNat, readPath_toJson safe, bind, Except.bind]

theorem decodeOp_edit {mirror : Decoder × Option Path} {wire : WireOp N} {ref : Option PathRef}
    {edit : Edit (Json N)} (reads : readWireOp wire = .ok (.edit ref edit))
    (resolves : (mirror.1.resolve mirror.2 ref : Except (DeltaError N) Path) = .ok path)
    (valid : (Op.edit path edit).Valid) :
    decodeOp mirror wire = .ok ((mirror.1, some path), [.edit path edit]) := by
  have addressed : ¬ (path = [] ∧ edit.mayAddressRoot = false) := by
    rintro ⟨root, refused⟩
    rw [valid.2 root] at refused
    cases refused
  simp only [decodeOp, reads, resolves, bind, Except.bind, if_neg addressed]

theorem IdsAgree.define (agree : IdsAgree N s mirror) (path : Path) :
    IdsAgree N
      { s with nextId := s.nextId + 1, ids := s.ids.set (pathKey N path) s.nextId }
      ⟨mirror.paths.set s.nextId path⟩ where
  fresh := by
    intro key id found
    simp only [get?_set] at found
    split at found
    · cases found
      exact Nat.lt_succ_self _
    · exact Nat.lt_succ_of_lt (agree.fresh key id found)
  resolved := by
    intro key id found
    simp only [get?_set] at found
    split at found
    next same =>
      cases found
      exact ⟨path, same, get?_set_self ..⟩
    next other =>
      obtain ⟨known, keyed, resolved⟩ := agree.resolved key id found
      have earlier := agree.fresh key id found
      refine ⟨known, keyed, ?_⟩
      rw [get?_set_of_ne _ _ (by omega), resolved]

theorem IdsAgree.refer (agree : IdsAgree N s mirror) (safe : ∀ seg ∈ path, seg.safe = true)
    (last : Option Path) :
    ∃ mirror' ref,
      transduce decodeOp (mirror, last) (s.refer path (pathKey N path) : _ × List (WireOp N) × _).2.1 =
        .ok ((mirror', last), []) ∧
      readRef (s.refer path (pathKey N path) : _ × _ × Json N).2.2 = .ok ref ∧
      (mirror'.resolve last (some ref) : Except (DeltaError N) Path) = .ok path ∧
      IdsAgree N (s.refer path (pathKey N path) : _ × List (WireOp N) × _).1 mirror' := by
  unfold Encoder.refer
  cases known : s.ids.get? (pathKey N path) with
  | some id =>
    obtain ⟨other, keyed, resolved⟩ := agree.resolved _ _ known
    cases pathKey_inj keyed
    exact ⟨mirror, .id id, rfl, readRef_id id, by simp [Decoder.resolve, resolved], agree⟩
  | none =>
    by_cases second : pathKey N path ∈ s.seen
    · simp only [if_pos second]
      refine ⟨⟨mirror.paths.set s.nextId path⟩, .id s.nextId, ?_, readRef_id _, ?_,
        agree.define path⟩
      · rw [transduce_singleton]
        simp only [decodeOp, readWireOp_define s.nextId safe, bind, Except.bind]
      · simp [Decoder.resolve, get?_set_self]
    · simp only [if_neg second]
      exact ⟨mirror, .inline path, rfl, readRef_path safe, rfl, agree.fresh, agree.resolved⟩

theorem decode_replace (mirror : Decoder × Option Path) (v : Json N) :
    transduce decodeOp mirror [⟨.r, [v]⟩] = .ok ((decoder, none), [.r v]) := by
  rw [transduce_singleton]
  rfl

theorem Synced.step {mirror : Decoder × Option Path} (synced : Synced N s previous mirror)
    {op : Op (Json N)} (valid : op.Valid) :
    ∃ mirror', transduce decodeOp mirror (encodeOp s previous op).2.2 = .ok (mirror', [op]) ∧
      Synced N (encodeOp s previous op).1 (encodeOp s previous op).2.1 mirror' := by
  cases op with
  | r v => exact ⟨(decoder, none), decode_replace mirror v, synced_start⟩
  | edit path edit =>
    unfold encodeOp
    by_cases repeated : previous = some (pathKey N path)
    · simp only [if_pos repeated]
      obtain ⟨last, isLast, keyed⟩ := Option.map_eq_some_iff.mp (synced.previous.symm.trans repeated)
      cases pathKey_inj keyed
      have resolves : (mirror.1.resolve mirror.2 none : Except (DeltaError N) Path) = .ok path := by
        rw [isLast]
        rfl
      refine ⟨(mirror.1, some path), ?_, synced.ids, repeated⟩
      rw [transduce_singleton, decodeOp_edit (readWireOp_short edit) resolves valid]
    · simp only [if_neg repeated]
      obtain ⟨mirror', ref, defines, reads, resolves, agree⟩ := synced.ids.refer valid.1 mirror.2
      refine ⟨(mirror', some path), ?_, agree, rfl⟩
      rw [transduce_append_ok defines, transduce_singleton,
        decodeOp_edit (readWireOp_long reads edit) resolves valid]
      rfl

theorem Synced.ops {mirror : Decoder × Option Path} (synced : Synced N s previous mirror)
    {ops : List (Op (Json N))} (valid : ∀ op ∈ ops, op.Valid) :
    ∃ mirror', transduce decodeOp mirror (encodeOps s previous ops).2 = .ok (mirror', ops) ∧
      IdsAgree N (encodeOps s previous ops).1 mirror'.1 := by
  induction ops generalizing s previous mirror with
  | nil => exact ⟨mirror, rfl, synced.ids⟩
  | cons op rest ih =>
    obtain ⟨next, decoded, stepped⟩ := synced.step (valid op mem_cons_self)
    obtain ⟨last, decodedRest, agree⟩ := ih stepped fun other mem =>
      valid other (mem_cons_of_mem _ mem)
    refine ⟨last, ?_, agree⟩
    rw [encodeOps, transduce_append_ok decoded, decodedRest]
    rfl

theorem IdsAgree.encode (agree : IdsAgree N s mirror) {ops : List (Op (Json N))}
    (valid : ∀ op ∈ ops, op.Valid) :
    ∃ mirror', mirror.decode (s.encode ops).2 = .ok (mirror', ops) ∧
      IdsAgree N (s.encode ops).1 mirror' := by
  obtain ⟨mirror', decoded, agree⟩ := agree.batch.ops valid
  exact ⟨mirror'.1, by rw [Decoder.decode, Encoder.encode, decoded]; rfl, agree⟩

/-- A batch that begins with a replacement needs nothing the decoder saw before it. -/
theorem encode_base (s : Encoder) {ops : List (Op (Json N))} (base : isBase ops = true)
    (valid : ∀ op ∈ ops, op.Valid) (mirror : Decoder) :
    ∃ mirror', mirror.decode (s.encode ops).2 = .ok (mirror', ops) ∧
      IdsAgree N (s.encode ops).1 mirror' := by
  cases ops with
  | nil => cases base
  | cons op rest =>
    cases op with
    | edit path edit => cases base
    | r v =>
      obtain ⟨last, decoded, agree⟩ := (synced_start (N := N)).ops fun other mem =>
        valid other (mem_cons_of_mem (Op.r v) mem)
      refine ⟨last.1, ?_, agree⟩
      simp only [Decoder.decode, Encoder.encode, encodeOps, encodeOp,
        transduce_append_ok (decode_replace (mirror, none) v), decoded]
      rfl

theorem IdsAgree.batches (agree : IdsAgree N s mirror) {batches : List (List (Op (Json N)))}
    (valid : ∀ batch ∈ batches, ∀ op ∈ batch, op.Valid) :
    decodeBatches mirror (encodeBatches s batches) = .ok batches := by
  induction batches generalizing s mirror with
  | nil => rfl
  | cons batch rest ih =>
    obtain ⟨next, decoded, agree⟩ := agree.encode (valid batch mem_cons_self)
    simp only [encodeBatches, decodeBatches, decoded, bind, Except.bind,
      ih agree fun other mem => valid other (mem_cons_of_mem _ mem)]

/-- A fresh decoder that joins at the first batch or at one that begins with a
replacement decodes every batch from there on to itself. -/
theorem decode_from_recovery_point {batches : List (List (Op (Json N)))}
    (valid : ∀ batch ∈ batches, ∀ op ∈ batch, op.Valid) (k : Nat)
    (recovery : k = 0 ∨ ∃ base, batches[k]? = some base ∧ isBase base = true) :
    decodeBatches decoder ((encodeBatches encoder batches).drop k) = .ok (batches.drop k) := by
  have start : IdsAgree N encoder decoder := synced_start.ids
  rcases recovery with rfl | ⟨base, isAt, isBase⟩
  · exact start.batches valid
  · generalize encoder = s at start ⊢
    clear start
    induction batches generalizing s k with
    | nil => cases isAt
    | cons batch rest ih =>
      cases k with
      | zero =>
        cases isAt
        obtain ⟨next, decoded, agree⟩ := encode_base s isBase (valid base mem_cons_self) decoder
        simp only [drop_zero, encodeBatches, decodeBatches, decoded, bind, Except.bind,
          agree.batches fun other mem => valid other (mem_cons_of_mem _ mem)]
      | succ k =>
        exact ih (fun other mem => valid other (mem_cons_of_mem _ mem)) k isAt _

theorem decode_from_recovery_point_note :
    decodeBatches decoder ((encodeBatches encoder
      [[.edit [.key "a"] (.s (.num 1)), .edit [.key "b"] .d, .edit [.key "a"] (.a "x")],
        [.r (.obj []), .edit [.key "a"] (.t 2), .edit [] (.p 0 1 [])]]).drop 1) =
      .ok ([[.r (.obj []), .edit [.key "a"] (.t 2), .edit [] (.p 0 1 [])]] :
        List (List (Op (Json Int)))) :=
  decode_from_recovery_point (by decide) 1 (.inr ⟨_, rfl, rfl⟩)

end Trpi.Chord.Delta
