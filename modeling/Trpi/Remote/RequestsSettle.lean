import Trpi.Remote.ClientRequests
import Trpi.Library.Machine

/-!
# A client and a server

The client, and each connection it opened with the server's end of it. What is sent arrives in
order unless its connection ends first. What belongs to a connection the client has left reaches
no other one.
-/

namespace Trpi.Remote

open Library (Machine)

structure World (S U W V E D : Type) where
  client : Client S U W V D
  links : Nat → Link S U W V E

inductive Event (S U : Type) where
  | client (event : ClientEvent)
  | data (connectionId count : Nat)
  | server (connectionId : Nat) (event : ServerEvent S U)

variable {S U W V E D : Type}

namespace World

def create : World S U W V E D where
  client := .create
  links := fun _ => .create

/-- The client's part of a step, and what it sends. -/
def afterClient (w : World S U W V E D)
    (result : Client S U W V D × Option (Nat × ClientMessage)) : World S U W V E D where
  client := result.1
  links :=
    match result.2 with
    | none => w.links
    | some (id, message) =>
      Function.update w.links id { w.links id with toServer := (w.links id).toServer ++ [message] }

def step (codec : StateCodec S U W V E D) (serverId : String) (w : World S U W V E D) :
    Event S U → Option (World S U W V E D)
  | .client event => (w.client.step codec serverId event).map w.afterClient
  | .data id count =>
    match w.client.chunk with
    | _ :: _ => none
    | [] =>
      let link := w.links id
      some {
        client := w.client.handleData id (link.toClient.take count)
        links := Function.update w.links id
          { link with toClient := link.toClient.drop count } }
  | .server id event =>
    ((w.links id).step codec serverId event).map fun link =>
      { w with links := Function.update w.links id link }

end World

/-- Every interleaving of the two. -/
def remoteMachine (codec : StateCodec S U W V E D) (serverId : String) :
    Machine (World S U W V E D) (Event S U) where
  start w := w = .create
  step := World.step codec serverId

end Trpi.Remote

/-!
## Requests settle

Each request that is pending is under way on the connection there is, and once only; so no
response comes that is not waited for, and none fails to come while the connection lasts.
-/

namespace Trpi.Remote

open Client Function Option
open Library (Machine)

variable {S U W V E D : Type}

namespace Client

variable {c : Client S U W V D}

theorem advances_step {codec : StateCodec S U W V E D} {serverId : String}
    (sound : c.Sound)
    (answers : ∀ id m later, c.connected = true → c.chunk = m :: later →
      m.isResponse id = true → (c.pendingRequests id).isSome)
    {ev : ClientEvent} {result : Client S U W V D × Option (Nat × ClientMessage)}
    (taken : c.step codec serverId ev = some result) : c.Advances result.1 result.2 := by
  have failed : ∀ reason, c.Advances (c.fail (.disconnected reason)) none :=
    fun reason => advances_fail sound (by simp)
  cases ev with
  | connect =>
    rw [step] at taken
    split_ifs at taken with disposed elsewhere
    · cases taken
      exact SameRequests.advances ⟨⟨rfl, rfl, rfl, rfl⟩, rfl, rfl, rfl, rfl⟩ sound
    · cases taken
      have disconnected : c.lifecycle = .disconnected := not_not.mp elsewhere
      have none : ∀ id, c.pendingRequests id = none := fun id => by
        by_contra present
        exact sound.connectedOf (isSome_iff_ne_none.mpr present) disconnected
      refine ⟨?_, .opens disconnected rfl rfl rfl, fun _ _ settled => settled⟩
      refine { sound with connected := ?_, current := ?_, chunk := ?_, older := ?_ }
      · intro id present
        rw [none id] at present
        cases present
      · rintro id same
        cases same
        rfl
      · rintro id (same | same) <;> cases same
      · exact Nat.le_succ_of_le sound.older
  | disconnect reason =>
    cases taken
    exact failed reason
  | dispose =>
    rw [step] at taken
    split_ifs at taken
    cases taken
    exact advances_dispose sound
  | request target call signal out =>
    cases taken
    exact advances_request sound target call signal none _
  | subscribeService target serviceId mode signal out =>
    cases taken
    exact advances_subscribeService codec sound target serviceId mode signal _
  | abort id out =>
    rw [step] at taken
    split at taken
    · cases taken
    · rename_i pending isPending
      split_ifs at taken
      cases taken
      exact advances_abort sound isPending _
  | resume sub =>
    have resumed : ∀ outcome, c.Advances (c.resume sub outcome) none := by
      intro outcome
      refine SameRequests.advances ?_ sound
      unfold resume
      dsimp only
      split
      · split_ifs
        · exact ⟨⟨rfl, rfl, rfl, rfl⟩, rfl, rfl, rfl, rfl⟩
        · exact ⟨⟨rfl, rfl, rfl, rfl⟩, rfl, rfl, rfl, rfl⟩
      · exact ⟨⟨rfl, rfl, rfl, rfl⟩, rfl, rfl, rfl, rfl⟩
    rw [step] at taken
    split at taken
    · cases taken
    · rename_i error _
      cases taken
      exact resumed (.rejected error)
    · obtain ⟨outcome, -, same⟩ := map_eq_some_iff.mp taken
      cases same
      exact resumed outcome
  | start sub =>
    rw [step] at taken
    split at taken
    · split_ifs at taken
      cases taken
      exact SameRequests.advances ⟨⟨rfl, rfl, rfl, rfl⟩, rfl, rfl, rfl, rfl⟩ sound
    · cases taken
  | disposeSubscription sub out =>
    rw [step] at taken
    split at taken
    · split_ifs at taken
      cases taken
      exact advances_disposeSubscription sound _ _ _ _
    · cases taken
  | deliver sub =>
    rw [step] at taken
    split at taken
    · cases taken
    · split at taken
      · cases taken
      · cases taken
        exact SameRequests.advances ⟨⟨rfl, rfl, rfl, rfl⟩, rfl, rfl, rfl, rfl⟩ sound
  | opened =>
    rw [step] at taken
    split at taken
    · rename_i id lifecycle idle
      cases taken
      have moved : c.Moves { c with lifecycle := .connecting id true } (some (id, .hello)) := by
        have same : Lifecycle.connection? (.connecting id true) = c.lifecycle.connection? := by
          rw [lifecycle]
          rfl
        apply Moves.stays
        · exact same
        · rfl
        · rfl
        · rfl
        · rintro conn m sent
          cases sent
          rw [lifecycle]
          rfl
        · exact fun _ => rfl
      refine ⟨?_, moved, fun _ _ settled => settled⟩
      · refine { sound with connected := ?_, current := ?_, chunk := ?_ }
        · intro other present
          have connected := sound.connected other present
          rw [Client.connected, lifecycle] at connected
          cases connected
        · rintro other same
          cases same
          exact sound.current id (by rw [lifecycle]; rfl)
        · exact fun other _ present => absurd idle present
    · cases taken
  | lost reason =>
    rw [step] at taken
    split at taken
    · cases taken
      exact failed reason
    · cases taken
  | handle =>
    obtain ⟨handled, same, pair⟩ := map_eq_some_iff.mp taken
    cases pair
    exact advances_handle codec serverId sound answers same

theorem handleData_cases (c : Client S U W V D) (id : Nat) (messages : List (ServerMessage W V)) :
    (∃ error, error ≠ .noMatchingRequest ∧ c.handleData id messages = c.fail error) ∨
    (c.lifecycle.connection? ≠ some id ∧ c.handleData id messages = c) ∨
    (c.lifecycle.connection? = some id ∧
      c.handleData id messages = { c with chunk := messages, chunkConnection := id }) := by
  unfold handleData
  split
  · rename_i disconnected
    exact .inr (.inl ⟨by rw [disconnected]; simp [Lifecycle.connection?], rfl⟩)
  · rename_i current transport connecting
    split_ifs with other closed
    · exact .inr (.inl ⟨by rw [connecting]; simpa [Lifecycle.connection?] using other, rfl⟩)
    · exact .inl ⟨_, by simp, rfl⟩
    · exact .inr (.inr ⟨by rw [connecting]; simpa [Lifecycle.connection?] using other, rfl⟩)
  · rename_i current connected
    split_ifs with other
    · exact .inr (.inl ⟨by rw [connected]; simpa [Lifecycle.connection?] using other, rfl⟩)
    · exact .inr (.inr ⟨by rw [connected]; simpa [Lifecycle.connection?] using other, rfl⟩)

theorem Sound.withData (sound : c.Sound) {id : Nat}
    (current : c.lifecycle.connection? = some id) (messages : List (ServerMessage W V)) :
    Sound { c with chunk := messages, chunkConnection := id } where
  connected := sound.connected
  issued := sound.issued
  settled := sound.settled
  unissued := sound.unissued
  current := sound.current
  chunk other same _ := by
    have own : c.lifecycle.connection? = some other := by
      rcases same with same | same <;> rw [same] <;> rfl
    exact some.inj (current.symm.trans own)
  older := Nat.le_of_eq (sound.current id current)
  matched := sound.matched

/-- Responses among the data of a connection that is being handled. -/
def inChunk (c : Client S U W V D) (conn id : Nat) : Nat :=
  if c.chunkConnection = conn then responseCount id c.chunk else 0

end Client

namespace World

/-- Nothing is under way on connections that are still to come. On the one there is, nothing is
that is not waited for, and while it lasts all is that is waited for. -/
structure Accounted (w : World S U W V E D) : Prop where
  sound : w.client.Sound
  fresh : ∀ conn, w.client.connectionSequence < conn → ∀ id, (w.links conn).underway id = 0
  expected : ∀ conn, w.client.lifecycle.connection? = some conn →
    ∀ id, (w.links conn).underway id + w.client.inChunk conn id ≤ w.client.pendingCount id
  awaited : ∀ conn, w.client.lifecycle.connection? = some conn →
    (w.links conn).isOpen = true →
    ∀ id, (w.links conn).underway id + w.client.inChunk conn id = w.client.pendingCount id

variable {w next : World S U W V E D}

theorem accounted_create : (create : World S U W V E D).Accounted where
  sound := {
    connected := fun _ absurd => nomatch absurd
    issued := fun _ absurd => nomatch absurd
    settled := fun _ positive bound => absurd bound (Nat.not_le.mpr positive)
    unissued := fun _ _ => rfl
    current := fun _ absurd => nomatch absurd
    chunk := fun _ _ nonempty => absurd rfl nonempty
    older := Nat.le_refl _
    matched := List.not_mem_nil }
  fresh _ _ _ := rfl
  expected _ absurd := nomatch absurd
  awaited _ absurd := nomatch absurd

theorem Accounted.answers (accounted : w.Accounted) {id : Nat} {m : ServerMessage W V}
    {later : List (ServerMessage W V)} (connected : w.client.connected = true)
    (waiting : w.client.chunk = m :: later)
    (response : m.isResponse id = true) : (w.client.pendingRequests id).isSome := by
  obtain ⟨conn, lifecycle⟩ := lifecycle_of_connected connected
  have nonempty : w.client.chunk ≠ [] := by simp [waiting]
  have own := accounted.sound.chunk conn (.inl lifecycle) nonempty
  have bound := accounted.expected conn (by rw [lifecycle]; rfl) id
  rw [inChunk, if_pos own, waiting, responseCount_cons, if_pos response] at bound
  by_contra absent
  rw [pendingCount_of_not_isSome absent] at bound
  omega

theorem underway_send (link : Link S U W V E) (m : ClientMessage) (id : Nat) :
    ({ link with toServer := link.toServer ++ [m] } : Link S U W V E).underway id =
      link.underway id + requestCount id [m] := by
  simp only [Link.underway, Link.unanswered, requestCount_append]
  omega

/-- What goes out on one connection. -/
def sentOn : Option (Nat × ClientMessage) → Nat → List ClientMessage
  | none, _ => []
  | some (receiver, message), conn => if receiver = conn then [message] else []

variable {out : Option (Nat × ClientMessage)} {conn : Nat}

theorem sentOn_of_goes (goes : ∀ receiver m, out = some (receiver, m) → receiver = conn) :
    sentOn out conn = (out.map Prod.snd).toList := by
  rcases out with _ | ⟨receiver, m⟩
  · rfl
  · exact if_pos (goes receiver m rfl)

theorem sentOn_of_not_goes
    (goes : ∀ receiver m, out = some (receiver, m) → receiver ≠ conn) : sentOn out conn = [] := by
  rcases out with _ | ⟨receiver, m⟩
  · rfl
  · exact if_neg (goes receiver m rfl)

section

variable (w : World S U W V E D) (result : Client S U W V D × Option (Nat × ClientMessage))

theorem isOpen_afterClient (conn : Nat) :
    ((w.afterClient result).links conn).isOpen = (w.links conn).isOpen := by
  obtain ⟨c, _ | ⟨receiver, m⟩⟩ := result
  · rfl
  · unfold afterClient
    dsimp only
    rw [update_apply]
    split_ifs with same
    · rw [same]
      rfl
    · rfl

theorem underway_afterClient (conn id : Nat) :
    ((w.afterClient result).links conn).underway id =
      (w.links conn).underway id +
        requestCount id (sentOn result.2 conn) := by
  obtain ⟨c, _ | ⟨receiver, m⟩⟩ := result
  · rfl
  · unfold afterClient
    dsimp only
    rw [update_apply]
    split_ifs with same
    · rw [underway_send, same, sentOn, if_pos rfl]
    · rw [sentOn, if_neg (Ne.symm same)]
      rfl

end

theorem accounted_of (sound : w.client.Sound)
    (fresh : ∀ conn, w.client.connectionSequence < conn → ∀ id, (w.links conn).underway id = 0)
    (current : ∀ conn, w.client.lifecycle.connection? = some conn →
      (∀ id, (w.links conn).underway id + w.client.inChunk conn id ≤
        w.client.pendingCount id) ∧
      ((w.links conn).isOpen = true →
        ∀ id, (w.links conn).underway id + w.client.inChunk conn id =
          w.client.pendingCount id)) : w.Accounted :=
  ⟨sound, fresh, fun conn same => (current conn same).1,
    fun conn same => (current conn same).2⟩

theorem Accounted.afterClient (accounted : w.Accounted) {c : Client S U W V D}
    (advances : w.client.Advances c out) : (w.afterClient (c, out)).Accounted := by
  have sound : (w.afterClient (c, out)).client.Sound := advances.sound
  have idleLinks : (∀ receiver m, out = some (receiver, m) →
        w.client.lifecycle.connection? = some receiver) →
      ∀ conn, w.client.connectionSequence < conn →
        ∀ id, ((w.afterClient (c, out)).links conn).underway id = 0 := by
    intro goes conn later id
    have silent : sentOn out conn = [] := sentOn_of_not_goes fun receiver m same => by
      have current := accounted.sound.current receiver (goes receiver m same)
      omega
    rw [underway_afterClient, accounted.fresh conn later, silent]
    rfl
  cases advances.moves with
  | ended lifecycle sequence =>
    refine accounted_of sound (fun conn later => ?_) fun conn current => ?_
    · exact accounted.fresh conn (sequence ▸ later)
    · change c.lifecycle.connection? = _ at current
      rw [lifecycle] at current
      cases current
  | opens before after sequence chunk =>
    have idle : ∀ id, c.pendingCount id = 0 := fun id =>
      pendingCount_of_not_isSome fun pending => by
        have connected := advances.sound.connected id pending
        rw [Client.connected, after] at connected
        cases connected
    refine accounted_of sound (fun conn later => ?_) fun conn current => ?_
    · change c.connectionSequence < conn at later
      exact accounted.fresh conn (by omega)
    · change c.lifecycle.connection? = _ at current
      rw [after] at current
      cases current
      have quiet : ∀ id, (w.links (w.client.connectionSequence + 1)).underway id +
          c.inChunk (w.client.connectionSequence + 1) id = c.pendingCount id := by
        intro id
        have older := accounted.sound.older
        rw [idle, accounted.fresh _ (Nat.lt_succ_self _) id, inChunk, chunk, if_neg (by omega)]
      exact ⟨fun id => Nat.le_of_eq (quiet id), fun _ => quiet⟩
  | handles conn m before after sequence origin originAfter chunk balance =>
    have taken : ∀ id, c.inChunk conn id +
        (if m.isResponse id then 1 else 0) = w.client.inChunk conn id := by
      intro id
      rw [inChunk, inChunk, if_pos origin, if_pos originAfter, chunk, responseCount_cons]
    refine accounted_of sound (fun other later => ?_) fun other current => ?_
    · exact accounted.fresh other (sequence ▸ later)
    · obtain rfl := some.inj (after.symm.trans current)
      constructor
      · intro id
        have bound := accounted.expected _ before id
        rw [← balance, ← taken] at bound
        exact Nat.le_of_add_le_add_right (Nat.le_trans (Nat.le_of_eq (Nat.add_assoc _ _ _)) bound)
      · intro isOpen id
        have same := accounted.awaited _ before isOpen id
        rw [← balance, ← taken] at same
        exact Nat.add_right_cancel ((Nat.add_assoc _ _ _).trans same)
  | stays before sequence origin chunk _ goes balance =>
    refine accounted_of sound (fun other later => ?_) fun other current => ?_
    · change c.connectionSequence < other at later
      rw [sequence] at later
      exact idleLinks goes other later
    · change c.lifecycle.connection? = some other at current
      have was := before.symm.trans current
      have own : sentOn out other = (out.map Prod.snd).toList :=
        sentOn_of_goes fun receiver m same =>
          some.inj ((goes receiver m same).symm.trans was)
      have inChunk : ∀ id, c.inChunk other id = w.client.inChunk other id := fun id => by
        rw [inChunk, inChunk, origin, chunk]
      constructor
      · intro id
        have bound := accounted.expected other was id
        change _ + c.inChunk other id ≤ c.pendingCount id
        rw [underway_afterClient, own, inChunk, balance]
        omega
      · intro isOpen id
        rw [isOpen_afterClient] at isOpen
        have same := accounted.awaited other was isOpen id
        change _ + c.inChunk other id = c.pendingCount id
        rw [underway_afterClient, own, inChunk, balance]
        omega

theorem Accounted.server (accounted : w.Accounted) {link : Link S U W V E}
    (keeps : (w.links conn).Keeps link) :
    Accounted { w with links := update w.links conn link } := by
  refine accounted_of accounted.sound (fun other later id => ?_) fun other current => ?_
  · dsimp only
    rw [update_apply]
    split_ifs with same
    · have le := keeps.le id
      rw [← same, accounted.fresh other later] at le
      omega
    · exact accounted.fresh other later id
  · dsimp only
    rw [update_apply]
    split_ifs with same
    · subst same
      constructor
      · intro id
        have le := keeps.le id
        have bound := accounted.expected _ current id
        change link.underway id + w.client.inChunk other id ≤ w.client.pendingCount id
        omega
      · intro isOpen id
        obtain ⟨wasOpen, eq⟩ := keeps.eq isOpen
        have same := accounted.awaited _ current wasOpen id
        have kept := eq id
        change link.underway id + w.client.inChunk other id = w.client.pendingCount id
        omega
    · exact ⟨accounted.expected other current, accounted.awaited other current⟩

theorem Accounted.data (accounted : w.Accounted) (conn count : Nat) (idle : w.client.chunk = []) :
    Accounted {
      client := w.client.handleData conn
        ((w.links conn).toClient.take count)
      links := update w.links conn
        { w.links conn with
          toClient := (w.links conn).toClient.drop count } } := by
  generalize split : (w.links conn).toClient.take count = arrived
  let rest : Link S U W V E := { w.links conn with
    toClient := (w.links conn).toClient.drop count }
  have parts : ∀ id, rest.underway id + responseCount id arrived = (w.links conn).underway id := by
    intro id
    have both : responseCount id arrived + responseCount id rest.toClient =
        responseCount id (w.links conn).toClient := by
      rw [← responseCount_append, ← split, List.take_append_drop]
    have same : rest.underway id = requestCount id (w.links conn).toServer +
        requestCount id (w.links conn).deferred +
        (w.links conn).unanswered id + responseCount id rest.toClient := rfl
    rw [same, Link.underway]
    omega
  have fresh : ∀ other, w.client.connectionSequence < other →
      ∀ id, (update w.links conn rest other).underway id = 0 := by
    intro other later id
    have nothing := accounted.fresh other later id
    rw [update_apply]
    split_ifs with same
    · subst same
      have all := parts id
      omega
    · exact nothing
  change Accounted ⟨_, update w.links conn rest⟩
  rcases w.client.handleData_cases conn arrived with
    ⟨error, other, same⟩ | ⟨elsewhere, same⟩ | ⟨here, same⟩
  · rw [same]
    have ended := lifecycle_fail w.client error
    refine accounted_of (accounted.sound.fail other) (fun later bound => ?_) fun later current => ?_
    · change (w.client.fail error).connectionSequence < later at bound
      rw [connectionSequence_fail] at bound
      exact fresh later bound
    · change (w.client.fail error).lifecycle.connection? = some later at current
      rw [ended] at current
      cases current
  · rw [same]
    refine accounted_of accounted.sound fresh fun other current => ?_
    have apart : other ≠ conn := by
      rintro rfl
      exact elsewhere current
    dsimp only
    rw [update_of_ne apart]
    exact ⟨accounted.expected other current, accounted.awaited other current⟩
  · rw [same]
    refine accounted_of (accounted.sound.withData here arrived) fresh fun other current => ?_
    obtain rfl := some.inj (here.symm.trans current)
    have inChunk : ∀ id, inChunk
        { w.client with chunk := arrived, chunkConnection := conn } conn id =
        responseCount id arrived := fun _ => if_pos rfl
    have none : ∀ id, w.client.inChunk conn id = 0 := fun id => by
      rw [Client.inChunk, idle]
      split_ifs <;> rfl
    dsimp only
    rw [update_self]
    constructor
    · intro id
      have bound := accounted.expected _ here id
      rw [none, ← parts] at bound
      rw [inChunk]
      exact bound
    · intro isOpen id
      have same := accounted.awaited _ here isOpen id
      rw [none, ← parts] at same
      rw [inChunk]
      exact same

theorem Accounted.step {codec : StateCodec S U W V E D} {serverId : String}
    (accounted : w.Accounted) {ev : Event S U} (taken : w.step codec serverId ev = some next) :
    next.Accounted ∧ w.client.Kept next.client ∧
      (next.client.connected = false ∨
        next.client.lifecycle.connection? = w.client.lifecycle.connection?) := by
  cases ev with
  | client ev =>
    obtain ⟨⟨client, out⟩, same, rfl⟩ := map_eq_some_iff.mp taken
    have advances := advances_step accounted.sound
      (fun id m later => accounted.answers) same
    refine ⟨accounted.afterClient advances, advances.kept, ?_⟩
    change client.connected = false ∨ client.lifecycle.connection? = _
    cases advances.moves with
    | ended lifecycle sequence =>
      refine .inl ?_
      change client.lifecycle = _ at lifecycle
      rw [connected, lifecycle]
    | opens before after sequence chunk =>
      refine .inl ?_
      change client.lifecycle = _ at after
      rw [connected, after]
    | handles conn m before after sequence origin originAfter chunk balance =>
      exact .inr (after.trans before.symm)
    | stays before sequence origin chunk _ goes balance => exact .inr before
  | data conn count =>
    rw [World.step] at taken
    split at taken
    · cases taken
    · rename_i idle
      cases taken
      refine ⟨accounted.data conn count idle, ?_⟩
      rcases w.client.handleData_cases conn
        ((w.links conn).toClient.take count) with
        ⟨error, other, same⟩ | ⟨elsewhere, same⟩ | ⟨here, same⟩
      · dsimp only
        rw [same]
        refine ⟨kept_fail error, .inl ?_⟩
        rw [connected, lifecycle_fail]
      · dsimp only
        rw [same]
        exact ⟨fun _ _ settled => settled, .inr rfl⟩
      · dsimp only
        rw [same]
        exact ⟨fun _ _ settled => settled, .inr rfl⟩
  | server conn ev =>
    obtain ⟨link, same, rfl⟩ := map_eq_some_iff.mp taken
    exact ⟨accounted.server (Link.keeps_step same), fun _ _ settled => settled, .inr rfl⟩

/-- Nothing is left to receive, to dispatch or to answer, and the client has heard of the end of
a connection that ended. -/
structure Quiet (w : World S U W V E D) : Prop where
  chunk : w.client.chunk = []
  isOpen : ∀ conn, w.client.lifecycle.connection? = some conn → (w.links conn).isOpen = true
  idle : ∀ conn, w.client.lifecycle.connection? = some conn →
    (w.links conn).toServer = [] ∧ (w.links conn).deferred = [] ∧
    (w.links conn).toClient = [] ∧
    ∀ id handler, (w.links conn).activeRequests id = some handler → handler.stage ≠ .invoking

theorem Quiet.underway (quiet : w.Quiet)
    (current : w.client.lifecycle.connection? = some conn) (id : Nat) :
    (w.links conn).underway id + w.client.inChunk conn id = 0 := by
  obtain ⟨received, dispatched, arrived, answered⟩ := quiet.idle conn current
  have none : (w.links conn).unanswered id = 0 := by
    cases active : (w.links conn).activeRequests id with
    | none => exact Link.unanswered_of_none active
    | some handler => exact Link.unanswered_of_answered active (answered id handler active)
  have handled : w.client.inChunk conn id = 0 := by
    rw [inChunk, quiet.chunk]
    split_ifs <;> rfl
  rw [Link.underway, received, dispatched, arrived, none, handled]
  rfl

end World

theorem inductive_accounted (codec : StateCodec S U W V E D) (serverId : String) :
    (remoteMachine codec serverId).Inductive (fun _ _ => True) World.Accounted where
  start _ initial := initial ▸ World.accounted_create
  step _ _ _ accounted _ taken := (accounted.step taken).1

/-- A request that was issued is settled or waits on the connection there is, where nothing ends
before it is answered; its promise is settled once. No response is one too many. -/
theorem requests_settle_once (codec : StateCodec S U W V E D) (serverId : String)
    {w : World S U W V E D}
    (reached : (remoteMachine codec serverId).Reached (fun _ _ => True) w) :
    (∀ id, 0 < id → id ≤ w.client.requestSequence →
      (w.client.promises id).isSome ∨ (w.client.pendingRequests id).isSome) ∧
    (w.client.connected = false → ∀ id, w.client.pendingRequests id = none) ∧
    (w.Quiet → ∀ id, 0 < id → id ≤ w.client.requestSequence →
      (w.client.promises id).isSome) ∧
    (∀ ev next, w.step codec serverId ev = some next →
      (∀ id outcome, w.client.promises id = some outcome →
        next.client.promises id = some outcome) ∧
      (next.client.lifecycle.connection? ≠ w.client.lifecycle.connection? →
        ∀ id, next.client.pendingRequests id = none)) ∧
    ClientError.noMatchingRequest ∉ w.client.failures := by
  have accounted := (inductive_accounted codec serverId).reached reached
  have idle : ∀ {s : World S U W V E D}, s.Accounted → s.client.connected = false →
      ∀ id, s.client.pendingRequests id = none := by
    intro s known apart id
    by_contra present
    have connected := known.sound.connected id (Option.isSome_iff_ne_none.mpr present)
    rw [apart] at connected
    cases connected
  refine ⟨accounted.sound.settled, idle accounted, ?_, ?_, accounted.sound.matched⟩
  · intro quiet id positive issued
    rcases accounted.sound.settled id positive issued with settled | pending
    · exact settled
    · -- Its request or its response would still be under way.
      obtain ⟨conn, lifecycle⟩ :=
        Client.lifecycle_of_connected (accounted.sound.connected id pending)
      have current : w.client.lifecycle.connection? = some conn := by
        rw [lifecycle]
        rfl
      have awaited := accounted.awaited conn current (quiet.isOpen _ current) id
      rw [quiet.underway current, Client.pendingCount_of_isSome pending] at awaited
      cases awaited
  · intro ev next taken
    obtain ⟨known, kept, ended | same⟩ := accounted.step taken
    · exact ⟨kept, fun _ => idle known ended⟩
    · exact ⟨kept, fun changed => absurd same changed⟩

def homeTarget : RpcTarget where
  serverId := "home"
  session := none

def handshake (conn : Nat) : List (Event S U) := [
  .client .connect,
  .client .opened,
  .server conn (.receive true),
  .server conn (.attached true), .server conn .ready, .data conn 1, .client .handle]

/-- A request is cancelled while it is answered, a second one when its connection ends. -/
def cancelledRun : List (Event Nat Nat) :=
  handshake 1 ++ [
    .client (.request homeTarget (.other "files" "read") .live .sent),
    .server 1 (.receive true),
    .client (.abort 1 .sent),
    .server 1 (.returns 1 .value true),
    .server 1 (.receive true),
    .data 1 1,
    .client .handle,
    .server 1 (.sent 1 true),
    .client (.request homeTarget (.other "files" "write") .live .sent),
    .client (.disconnect "Reconnecting")] ++ handshake 2

theorem requests_settle_once_sample : ∃ w : World Nat Nat Nat Nat Unit Unit,
    (remoteMachine .plain "home").Reached (fun _ _ => True) w ∧
    w.client.requestSequence = 2 ∧ w.client.lifecycle = .connected 2 ∧
    (w.client.promises 1).isSome ∧ (w.client.promises 2).isSome ∧
    ClientError.noMatchingRequest ∉ w.client.failures := by
  have started : (remoteMachine (.plain : StateCodec Nat Nat Nat Nat Unit Unit) "home").Reached
      (fun _ _ => True) .create := .start rfl
  have ran : ((remoteMachine (.plain : StateCodec Nat Nat Nat Nat Unit Unit) "home").exec
      (fun _ _ => True) .create cancelledRun).isSome := by decide
  obtain ⟨w, last⟩ := Option.isSome_iff_exists.mp ran
  have held : ((remoteMachine (.plain : StateCodec Nat Nat Nat Nat Unit Unit) "home").exec
      (fun _ _ => True) .create cancelledRun).map (fun w =>
        (w.client.requestSequence, w.client.lifecycle,
          w.client.pendingRequests 1, w.client.pendingRequests 2)) =
      some (2, .connected 2, none, none) := by decide
  rw [last, Option.map_some, Option.some_inj] at held
  simp only [Prod.mk.injEq] at held
  obtain ⟨issued, lifecycle, first, second⟩ := held
  have reached := started.exec last
  obtain ⟨settled, -, -, -, matched⟩ := requests_settle_once .plain "home" reached
  refine ⟨w, reached, issued, lifecycle, ?_, ?_, matched⟩
  · exact (settled 1 (by decide) (by omega)).resolve_right (by simp [first])
  · exact (settled 2 (by decide) (by omega)).resolve_right (by simp [second])

end Trpi.Remote
