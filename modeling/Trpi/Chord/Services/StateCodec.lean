import Trpi.Chord.Delta.Codec
import Trpi.Chord.Services.Instances
import Trpi.Library.Translation

/-!
# State codecs of a subscription

chord/src/services/state-codec.ts: a delta encoder or decoder for each state of a service
subscription, in a registry by its instance and its name. What a registry holds after an error is
left out. Both ends walk messages alike, so one walk stands for both, with the codec as a parameter.
-/

namespace Trpi.Chord.Services

open Library Delta List

inductive ServiceMemberSnapshot (Ω : Type) where
  | method (name : String)
  | state (name : String) (sequence : Nat) (ops : Ω)

structure ServiceInstanceSnapshot (Ω : Type) where
  address : Option ServiceInstanceAddress
  members : List (ServiceMemberSnapshot Ω)

/-- What goes over one subscription: a `ServiceSubscriptionSnapshot`, or `ServiceProviderUpdate`s. -/
inductive ServiceStreamMessage (Ω : Type) where
  | snapshot (serviceId : String) (mode : ServiceMode) (instances : List (ServiceInstanceSnapshot Ω))
  | state (address : Option ServiceInstanceAddress) (member : String) (sequence : Nat) (ops : Ω)
  | unavailable
  | replaced (snapshot : ServiceInstanceSnapshot Ω)
  | spawned (snapshot : ServiceInstanceSnapshot Ω)
  | closed (address : ServiceInstanceAddress)

section

variable {Ω : Type} (Good : Ω → Prop)

def ServiceMemberSnapshot.Valid : ServiceMemberSnapshot Ω → Prop
  | .method _ => True
  | .state _ _ ops => Good ops

def ServiceInstanceSnapshot.Valid (snapshot : ServiceInstanceSnapshot Ω) : Prop :=
  ∀ member ∈ snapshot.members, member.Valid Good

/-- All operations of a message are. -/
def ServiceStreamMessage.Valid : ServiceStreamMessage Ω → Prop
  | .snapshot _ _ instances => ∀ part ∈ instances, part.Valid Good
  | .state _ _ _ ops => Good ops
  | .replaced part => part.Valid Good
  | .spawned part => part.Valid Good
  | .unavailable => True
  | .closed _ => True

end

/-- The codecs are made anew. -/
def ServiceStreamMessage.resets {Ω : Type} : ServiceStreamMessage Ω → Bool
  | .snapshot .. => true
  | .unavailable => true
  | .replaced _ => true
  | _ => false

/-- `stateKey` prints both parts as one JSON text. -/
abbrev StateKey := Option ServiceInstanceAddress × String

def describeState : StateKey → String
  | (none, member) => member
  | (some address, member) => address.key ++ "@" ++ toString address.generation ++ "." ++ member

inductive StateCodecError where
  | duplicate (key : StateKey)
  | unknown (key : StateKey)
  | operation (message : String)

def StateCodecError.message : StateCodecError → String
  | .duplicate key => "Duplicate service state " ++ describeState key
  | .unknown key => "Unknown service state " ++ describeState key
  | .operation message => message

/-- How a codec starts, and what it makes of operations. -/
structure StateCodec (C A B : Type) where
  create : C
  code : C → A → Except StateCodecError (C × B)

abbrev StateCodecRegistry (C : Type) := InsertionMap StateKey C

namespace StateCodecRegistry

variable {C : Type}

def add (codecs : StateCodecRegistry C) (create : C) (key : StateKey) :
    Except StateCodecError (StateCodecRegistry C) :=
  if codecs.contains key then .error (.duplicate key) else .ok (codecs.set key create)

def get (codecs : StateCodecRegistry C) (key : StateKey) : Except StateCodecError C :=
  (codecs.get? key).elim (.error (.unknown key)) .ok

def removeInstance (codecs : StateCodecRegistry C) (address : ServiceInstanceAddress) :
    StateCodecRegistry C :=
  codecs.filter fun key _ => key.1 ≠ some address

end StateCodecRegistry

section

variable {C A B : Type} (codec : StateCodec C A B)

/-- The codec of a state takes operations. -/
def codeState (key : StateKey) (codecs : StateCodecRegistry C) (ops : A) :
    Except StateCodecError (StateCodecRegistry C × B) := do
  let state ← codecs.get key
  let (state, coded) ← codec.code state ops
  .ok (codecs.set key state, coded)

def codeMember (address : Option ServiceInstanceAddress) (codecs : StateCodecRegistry C) :
    ServiceMemberSnapshot A →
      Except StateCodecError (StateCodecRegistry C × ServiceMemberSnapshot B)
  | .method name => .ok (codecs, .method name)
  | .state name sequence ops => do
    let codecs ← codecs.add codec.create (address, name)
    (codeState codec (address, name) codecs ops).map fun done =>
      (done.1, .state name sequence done.2)

/-- `encodeInstance` and `decodeInstance`. -/
def codeInstance (codecs : StateCodecRegistry C) (snapshot : ServiceInstanceSnapshot A) :
    Except StateCodecError (StateCodecRegistry C × ServiceInstanceSnapshot B) :=
  (translate (codeMember codec snapshot.address) codecs snapshot.members).map fun done =>
    (done.1, ⟨snapshot.address, done.2⟩)

/-- `encodeSnapshot` and `encodeUpdate`, `decodeSnapshot` and `decodeUpdate`. -/
def codeMessage (codecs : StateCodecRegistry C) :
    ServiceStreamMessage A → Except StateCodecError (StateCodecRegistry C × ServiceStreamMessage B)
  | .snapshot serviceId mode instances =>
    (translate (codeInstance codec) .empty instances).map fun done =>
      (done.1, .snapshot serviceId mode done.2)
  | .state address member sequence ops =>
    (codeState codec (address, member) codecs ops).map fun done =>
      (done.1, .state address member sequence done.2)
  | .replaced snapshot =>
    (codeInstance codec .empty snapshot).map fun done => (done.1, .replaced done.2)
  | .spawned snapshot =>
    (codeInstance codec codecs snapshot).map fun done => (done.1, .spawned done.2)
  | .unavailable => .ok (.empty, .unavailable)
  | .closed address => .ok (codecs.removeInstance address, .closed address)

end

section

variable {C D A B : Type}

/-- Both ends keep codecs for the same states, related each. -/
def Mirrored (Related : C → D → Prop) (codecs : StateCodecRegistry C)
    (mirrors : StateCodecRegistry D) : Prop :=
  ∀ key, Option.Rel Related (codecs.get? key) (mirrors.get? key)

variable {Good : A → Prop} {Related : C → D → Prop} {codecs next : StateCodecRegistry C}
  {mirrors : StateCodecRegistry D}

theorem mirrored_empty : Mirrored Related (.empty : StateCodecRegistry C) .empty :=
  fun _ => .none

theorem Mirrored.set {c : C} {d : D} (mirrored : Mirrored Related codecs mirrors) (key : StateKey)
    (related : Related c d) : Mirrored Related (codecs.set key c) (mirrors.set key d) := by
  intro other
  rw [InsertionMap.get?_set, InsertionMap.get?_set]
  split_ifs
  · exact .some related
  · exact mirrored other

theorem get?_removeInstance (codecs : StateCodecRegistry C) (address : ServiceInstanceAddress)
    (key : StateKey) : (codecs.removeInstance address).get? key =
      if key.1 = some address then none else codecs.get? key := by
  unfold StateCodecRegistry.removeInstance InsertionMap.filter InsertionMap.get?
  rw [find?_filter]
  split_ifs with own
  · rw [Option.map_eq_none_iff, find?_eq_none]
    rintro ⟨other, c⟩ mem
    simp only [decide_eq_true_eq, not_and]
    rintro apart rfl
    exact apart own
  · congr 2
    funext binding
    by_cases hit : binding.1 = key
    · simp [hit, own]
    · simp [hit]

theorem Mirrored.removeInstance (mirrored : Mirrored Related codecs mirrors)
    (address : ServiceInstanceAddress) :
    Mirrored Related (codecs.removeInstance address) (mirrors.removeInstance address) := by
  intro key
  rw [get?_removeInstance, get?_removeInstance]
  split_ifs
  · exact .none
  · exact mirrored key

theorem Mirrored.contains (mirrored : Mirrored Related codecs mirrors) (key : StateKey) :
    mirrors.contains key = codecs.contains key := by
  have at_ := mirrored key
  unfold InsertionMap.contains
  revert at_
  cases codecs.get? key <;> cases mirrors.get? key <;> simp

theorem Mirrored.add (mirrored : Mirrored Related codecs mirrors) {c : C} {d : D} {key : StateKey}
    (related : Related c d) (added : codecs.add c key = .ok next) :
    ∃ mirror, mirrors.add d key = .ok mirror ∧ Mirrored Related next mirror := by
  unfold StateCodecRegistry.add at added ⊢
  rw [mirrored.contains]
  split_ifs at added ⊢
  cases added
  exact ⟨_, rfl, mirrored.set key related⟩

variable {codec : StateCodec C A B} {back : StateCodec D B A}
  (starts : Related codec.create back.create) (undoes : Undoes Good Related codec.code back.code)

section

include undoes

theorem undoes_state (key : StateKey) :
    Undoes Good (Mirrored Related) (codeState codec key) (codeState back key) := by
  constructor
  intro codecs mirrors next ops out mirrored good done
  obtain ⟨state, found, done⟩ := bind_eq_ok done
  obtain ⟨⟨after, coded⟩, took, done⟩ := bind_eq_ok done
  cases done
  have at_ := mirrored key
  unfold StateCodecRegistry.get at found
  cases own : codecs.get? key with
  | none =>
    rw [own] at found
    cases found
  | some held =>
    rw [own] at found at_
    cases found
    generalize other : mirrors.get? key = partner at at_
    cases at_ with
    | some related =>
      obtain ⟨mirror, read, related⟩ := undoes.read related good took
      refine ⟨_, ?_, mirrored.set key related⟩
      simp only [codeState, StateCodecRegistry.get, other, Option.elim_some, read, bind, Except.bind]

include starts

theorem undoes_member (address : Option ServiceInstanceAddress) :
    Undoes (ServiceMemberSnapshot.Valid Good) (Mirrored Related) (codeMember codec address)
      (codeMember back address) := by
  constructor
  intro codecs mirrors next member out mirrored good done
  cases member with
  | method name =>
    cases done
    exact ⟨mirrors, rfl, mirrored⟩
  | state name sequence ops =>
    obtain ⟨registered, added, done⟩ := bind_eq_ok done
    obtain ⟨opened, added, mirrored⟩ := mirrored.add starts added
    obtain ⟨mirror, coded, rfl, read, mirrored⟩ :=
      (undoes_state undoes (address, name)).part mirrored good done
    refine ⟨mirror, ?_, mirrored⟩
    rw [codeMember, added, ok_bind, read]
    rfl

theorem undoes_instance :
    Undoes (ServiceInstanceSnapshot.Valid Good) (Mirrored Related) (codeInstance codec)
      (codeInstance back) := by
  constructor
  intro codecs mirrors next snapshot out mirrored good done
  obtain ⟨mirror, members, rfl, read, mirrored⟩ :=
    (undoes_member starts undoes snapshot.address).translate.part mirrored good done
  refine ⟨mirror, ?_, mirrored⟩
  rw [codeInstance, read]
  rfl

/-- An end that is not related reads a message that starts anew. -/
theorem undoes_message {message : ServiceStreamMessage A} {out : ServiceStreamMessage B}
    (mirrored : message.resets = true ∨ Mirrored Related codecs mirrors)
    (good : message.Valid Good) (done : codeMessage codec codecs message = .ok (next, out)) :
    ∃ mirror, codeMessage back mirrors out = .ok (mirror, message) ∧
      Mirrored Related next mirror := by
  have parts := undoes_instance starts undoes
  cases message with
  | snapshot serviceId mode instances =>
    obtain ⟨mirror, coded, rfl, read, mirrored⟩ := parts.translate.part mirrored_empty good done
    refine ⟨mirror, ?_, mirrored⟩
    rw [codeMessage, read]
    rfl
  | state address member sequence ops =>
    obtain ⟨mirror, coded, rfl, read, mirrored⟩ := (undoes_state undoes (address, member)).part
      (mirrored.resolve_left Bool.false_ne_true) good done
    refine ⟨mirror, ?_, mirrored⟩
    rw [codeMessage, read]
    rfl
  | replaced snapshot =>
    obtain ⟨mirror, coded, rfl, read, mirrored⟩ := parts.part mirrored_empty good done
    refine ⟨mirror, ?_, mirrored⟩
    rw [codeMessage, read]
    rfl
  | spawned snapshot =>
    obtain ⟨mirror, coded, rfl, read, mirrored⟩ :=
      parts.part (mirrored.resolve_left Bool.false_ne_true) good done
    refine ⟨mirror, ?_, mirrored⟩
    rw [codeMessage, read]
    rfl
  | unavailable =>
    cases done
    exact ⟨_, rfl, mirrored_empty⟩
  | closed address =>
    cases done
    exact ⟨_, rfl, (mirrored.resolve_left Bool.false_ne_true).removeInstance address⟩

/-- From any message on that starts anew, what was coded is read. -/
theorem coded_read {before after : List (ServiceStreamMessage A)}
    {out : List (ServiceStreamMessage B)} (valid : ∀ message ∈ before ++ after, message.Valid Good)
    (coded : translate (codeMessage codec) codecs (before ++ after) = .ok (next, out))
    (joins : ∀ first ∈ after.head?, first.resets = true) (mirrors : StateCodecRegistry D) :
    ∃ mirror, translate (codeMessage back) mirrors (out.drop before.length) =
      .ok (mirror, after) := by
  induction before generalizing codecs out with
  | nil =>
    cases after with
    | nil =>
      cases coded
      exact ⟨mirrors, rfl⟩
    | cons first rest =>
      obtain ⟨⟨middle, head⟩, stepped, coded⟩ := bind_eq_ok coded
      obtain ⟨⟨last, others⟩, later, coded⟩ := bind_eq_ok coded
      cases coded
      have others_ : Undoes (ServiceStreamMessage.Valid Good) (Mirrored Related)
          (codeMessage codec) (codeMessage back) :=
        ⟨fun mirrored => undoes_message starts undoes (.inr mirrored)⟩
      obtain ⟨opened, read, mirrored⟩ : ∃ mirror, codeMessage back mirrors head =
          .ok (mirror, first) ∧ Mirrored Related middle mirror :=
        undoes_message starts undoes (.inl (joins first rfl)) (valid first mem_cons_self) stepped
      obtain ⟨mirror, reread, -⟩ := others_.translate.read mirrored
        (fun other mem => valid other (mem_cons_of_mem _ mem)) later
      refine ⟨mirror, ?_⟩
      simp only [length_nil, drop_zero, Library.translate, read, reread, bind, Except.bind]
  | cons message rest ih =>
    obtain ⟨⟨middle, head⟩, stepped, coded⟩ := bind_eq_ok coded
    obtain ⟨⟨last, others⟩, later, coded⟩ := bind_eq_ok coded
    cases coded
    exact ih (fun other mem => valid other (mem_cons_of_mem _ mem)) later

end

end

variable {N : Type} [JsonNumber N]

/-- `createServiceStateEncoder`. -/
def serviceStateEncoder : StateCodec Encoder (List (Op (Json N))) (List (WireOp N)) where
  create := encoder
  code state ops := .ok (state.encode ops)

/-- `createServiceStateDecoder`. -/
def serviceStateDecoder : StateCodec Decoder (List (WireOp N)) (List (Op (Json N))) where
  create := decoder
  code state wire := (state.decode wire).mapError fun error => .operation error.message

theorem undoes_operations :
    Undoes (∀ op ∈ ·, op.Valid) (IdsAgree N) (@serviceStateEncoder N _).code
      serviceStateDecoder.code := by
  constructor
  intro state mirror next ops wire agree valid done
  obtain ⟨last, read, agree⟩ := agree.encode valid
  obtain ⟨rfl, rfl⟩ := Prod.mk.inj (Except.ok.inj done)
  refine ⟨last, ?_, agree⟩
  change ((mirror.decode (state.encode ops).2).mapError _) = _
  rw [read]
  rfl

/-- A decoder that joins a subscription where its states start anew reads from there on what was
encoded, whatever it read before. -/
theorem serviceStates_decoded {before after : List (ServiceStreamMessage (List (Op (Json N))))}
    {codecs last : StateCodecRegistry Encoder}
    {wire : List (ServiceStreamMessage (List (WireOp N)))}
    (valid : ∀ message ∈ before ++ after, message.Valid (∀ op ∈ ·, op.Valid))
    (encoded : translate (codeMessage serviceStateEncoder) codecs (before ++ after) =
      .ok (last, wire))
    (joins : ∀ first ∈ after.head?, first.resets = true) (mirrors : StateCodecRegistry Decoder) :
    ∃ decoded, translate (codeMessage serviceStateDecoder) mirrors (wire.drop before.length) =
      .ok (decoded, after) := by
  exact coded_read (synced_start (N := N)).ids undoes_operations valid encoded joins mirrors

def clockStates : List (ServiceStreamMessage (List (Op (Json Int)))) :=
  [.snapshot "clock" .singleton [⟨none, [.method "now", .state "time" 0 [.r (.num 1)]]⟩],
    .state none "time" 1 [.r (.num 2)]]

theorem serviceStates_decoded_clock : ∃ wire decoded,
    translate (codeMessage serviceStateDecoder) .empty wire = .ok (decoded, clockStates) := by
  have encoded : ∃ done, translate (codeMessage serviceStateEncoder) .empty ([] ++ clockStates) =
      .ok done := ⟨_, rfl⟩
  obtain ⟨⟨last, wire⟩, encoded⟩ := encoded
  refine ⟨wire, serviceStates_decoded ?_ encoded ?_ .empty⟩
  · simp [clockStates, ServiceStreamMessage.Valid, ServiceInstanceSnapshot.Valid,
      ServiceMemberSnapshot.Valid, Op.Valid]
  · simp [clockStates, ServiceStreamMessage.resets]

end Trpi.Chord.Services
