import Trpi.Ai.CodexWebSockets
import Trpi.Library.JsonInt

/-!
# What a continued request stands for

A connection remembers a request and the items of its answer under the id that the answer has on
its socket. What is left of the next input is what does not follow from that id.
-/

namespace Trpi.Ai

open Library List Option

variable {N : Type} {responses : List (ServerResponse N)} {fullBody : RequestBody N}

section

variable {responses : List (ServerResponse N)} {id : String} {input : List (Json N)}
  {body : RequestBody N} {socket : Option Nat}

theorem contextOf_append {socket : Nat} {context : List (Json N)}
    (known : contextOf responses socket id = some context) (more : List (ServerResponse N)) :
    contextOf (responses ++ more) socket id = some context := by
  obtain ⟨response, found, rfl⟩ := map_eq_some_iff.mp known
  rw [contextOf, find?_append, found]
  rfl

theorem contextOf_new (fresh : id ∉ responses.map ServerResponse.id) (socket : Nat)
    (context : List (Json N)) :
    contextOf (responses ++ [({ socket, id, context } : ServerResponse N)]) socket id =
      some context := by
  have none : (responses.find? fun response =>
      response.socket == socket && response.id == id) = none := by
    rw [find?_eq_none]
    intro response inside
    have other : response.id ≠ id := by
      rintro rfl
      exact fresh (mem_map_of_mem inside)
    simp [other]
  rw [contextOf, find?_append, none]
  simp

theorem denotes_append (stands : denotes responses socket body = some input)
    (more : List (ServerResponse N)) : denotes (responses ++ more) socket body = some input := by
  unfold denotes at stands ⊢
  cases named : body.previousResponseId with
  | none =>
    rw [named] at stands
    exact stands
  | some id =>
    rw [named] at stands
    cases socket with
    | none => cases stands
    | some socket =>
      obtain ⟨context, known, rfl⟩ := map_eq_some_iff.mp stands
      exact map_eq_some_iff.mpr ⟨context, contextOf_append known more, rfl⟩

theorem denotes_own (stands : denotes responses socket body = some input)
    (named : body.previousResponseId = some id) :
    ∃ response ∈ responses, socket = some response.socket ∧ response.id = id := by
  unfold denotes at stands
  rw [named] at stands
  cases socket with
  | none => cases stands
  | some socket =>
    obtain ⟨context, known, -⟩ := map_eq_some_iff.mp stands
    obtain ⟨response, found, -⟩ := map_eq_some_iff.mp known
    have own := find?_some found
    simp only [Bool.and_eq_true, beq_iff_eq] at own
    exact ⟨response, mem_of_find?_eq_some found, by rw [own.1], own.2⟩

end

section

variable [JsonNumber N]

theorem responseInputsEqual_iff {a b : Option (List (Json N))} :
    responseInputsEqual a b = true ↔ a.getD [] = b.getD [] := by
  rw [responseInputsEqual, beq_iff_eq]
  constructor
  · intro same
    exact Json.arr.inj (Json.stringifyChars_inj same)
  · intro same
    rw [same]

theorem delta_cut {body : RequestBody N} {continuation : CachedWebSocketContinuationState N}
    {delta : List (Json N)} (cut : getCachedWebSocketInputDelta body continuation = some delta) :
    body.input.getD [] =
      continuation.lastRequestBody.input.getD [] ++ continuation.lastResponseItems ++ delta := by
  unfold getCachedWebSocketInputDelta at cut
  dsimp only at cut
  split at cut
  · cases cut
  · split at cut
    · cases cut
    · split at cut
      · cases cut
      · rename_i equal
        cases cut
        rw [Bool.not_eq_true', Bool.not_eq_false] at equal
        have same := responseInputsEqual_iff.mp equal
        rw [getD_some, getD_some] at same
        calc body.input.getD []
            = (body.input.getD []).take (continuation.lastRequestBody.input.getD [] ++
                  continuation.lastResponseItems).length ++
                (body.input.getD []).drop (continuation.lastRequestBody.input.getD [] ++
                  continuation.lastResponseItems).length := (take_append_drop _ _).symm
          _ = _ := by rw [same]

end

/-- What a connection remembers is of a response on its own socket. -/
def Remembers (responses : List (ServerResponse N)) (connection : CachedWebSocketConnection N) :
    Prop :=
  ∀ continuation, connection.continuation = some continuation →
    contextOf responses connection.socket continuation.lastResponseId =
      some (continuation.lastRequestBody.input.getD [] ++ continuation.lastResponseItems)

theorem Remembers.append {connection : CachedWebSocketConnection N}
    (remembers : Remembers responses connection)
    (more : List (ServerResponse N)) : Remembers (responses ++ more) connection :=
  fun continuation kept => contextOf_append (remembers continuation kept) more

theorem Remembers.nothing (responses : List (ServerResponse N)) (socket : Nat) (busy : Bool) :
    Remembers responses { socket, busy, continuation := none } := by
  intro continuation kept
  cases kept

/-- A body that was sent stands for the input of the full body, and is the same otherwise. -/
structure Faithful (responses : List (ServerResponse N)) (socket : Option Nat)
    (requestBody fullBody : RequestBody N) : Prop where
  input : denotes responses socket requestBody = some (fullBody.input.getD [])
  fields : requestBody.fields = fullBody.fields
  own : ∀ id, requestBody.previousResponseId = some id →
    ∃ response ∈ responses, socket = some response.socket ∧ response.id = id

theorem Faithful.append {socket : Option Nat} {requestBody : RequestBody N}
    (faithful : Faithful responses socket requestBody fullBody) (more : List (ServerResponse N)) :
    Faithful (responses ++ more) socket requestBody fullBody where
  input := denotes_append faithful.input more
  fields := faithful.fields
  own id named :=
    let ⟨response, inside, same⟩ := faithful.own id named
    ⟨response, mem_append_left _ inside, same⟩

theorem Faithful.full (responses : List (ServerResponse N)) (socket : Option Nat)
    (alone : fullBody.previousResponseId = none) : Faithful responses socket fullBody fullBody where
  input := by rw [denotes, alone]
  fields := rfl
  own id named := by
    rw [alone] at named
    cases named

section

variable [JsonNumber N]

theorem build_after (e : CachedWebSocketConnection N) (body : RequestBody N) :
    (buildCachedWebSocketRequestBody e body).2 = e ∨
      (buildCachedWebSocketRequestBody e body).2 = { e with continuation := none } := by
  unfold buildCachedWebSocketRequestBody
  split
  · exact .inl rfl
  · split
    · exact .inr rfl
    · split
      · exact .inr rfl
      · exact .inl rfl

theorem build_faithful {responses : List (ServerResponse N)}
    {e : CachedWebSocketConnection N} (remembers : Remembers responses e)
    {body : RequestBody N} (alone : body.previousResponseId = none) :
    Faithful responses (some e.socket) (buildCachedWebSocketRequestBody e body).1 body := by
  unfold buildCachedWebSocketRequestBody
  split
  · exact .full _ _ alone
  · rename_i continuation kept
    split
    · exact .full _ _ alone
    · rename_i delta cut
      split
      · exact .full _ _ alone
      · have known := remembers continuation kept
        have stands : denotes responses (some e.socket)
            { body with
              previousResponseId := some continuation.lastResponseId, input := some delta } =
            some (body.input.getD []) := by
          simp only [denotes, known, map_some, getD_some]
          rw [delta_cut cut]
        exact ⟨stands, rfl, fun id named => denotes_own stands named⟩

end

section

variable {connections after : List (CachedWebSocketConnection N)}
  {responses : List (ServerResponse N)}

/-- The connection of a call is over the socket of the call. -/
def OverSocket (connections : List (CachedWebSocketConnection N)) (socket : Nat)
    (entry : Option Nat) : Prop :=
  ∀ place, entry = some place →
    ∃ connection, connections[place]? = some connection ∧ connection.socket = socket

/-- A call has a connection over its socket, and what it has sent stands for its input. -/
def StageSound (connections : List (CachedWebSocketConnection N))
    (responses : List (ServerResponse N)) (fullBody : RequestBody N) : StreamStage N → Prop
  | .connecting _ => True
  | .acquired socket entry => OverSocket connections socket entry
  | .streaming socket entry requestBody =>
    OverSocket connections socket entry ∧
      denotes responses (some socket) requestBody = some (fullBody.input.getD [])
  | .done => True

structure CallSound (connections : List (CachedWebSocketConnection N))
    (responses : List (ServerResponse N)) (call : StreamCall N) : Prop where
  alone : call.fullBody.previousResponseId = none
  stage : StageSound connections responses call.fullBody call.stage

/-- The connections stay where they are, over their sockets. -/
def SocketsStay (before after : List (CachedWebSocketConnection N)) : Prop :=
  ∀ (place : Nat) (connection : CachedWebSocketConnection N), before[place]? = some connection →
    ∃ later : CachedWebSocketConnection N,
      after[place]? = some later ∧ later.socket = connection.socket

theorem SocketsStay.modify (connections : List (CachedWebSocketConnection N)) (e : Nat)
    {change : CachedWebSocketConnection N → CachedWebSocketConnection N}
    (stays : ∀ connection, connections[e]? = some connection →
      (change connection).socket = connection.socket) :
    SocketsStay connections (connections.modify e change) := by
  intro place connection at_
  rw [getElem?_modify, at_]
  by_cases same : e = place
  · subst same
    exact ⟨change connection, by simp, stays connection at_⟩
  · exact ⟨connection, by simp [same], rfl⟩

theorem SocketsStay.append (connections more : List (CachedWebSocketConnection N)) :
    SocketsStay connections (connections ++ more) := by
  intro place connection at_
  exact ⟨connection, List.getElem?_append_left (List.getElem?_eq_some_iff.mp at_).1 ▸ at_, rfl⟩

theorem OverSocket.later {socket : Nat} {entry : Option Nat}
    (held : OverSocket connections socket entry)
    (stay : SocketsStay connections after) : OverSocket after socket entry := by
  intro place named
  obtain ⟨connection, at_, same⟩ := held place named
  obtain ⟨later, there, stays⟩ := stay place connection at_
  exact ⟨later, there, stays.trans same⟩

theorem CallSound.later {call : StreamCall N} (sound : CallSound connections responses call)
    (stay : SocketsStay connections after)
    (more : List (ServerResponse N)) : CallSound after (responses ++ more) call where
  alone := sound.alone
  stage := by
    have before := sound.stage
    revert before
    cases call.stage with
    | connecting caches => exact id
    | acquired socket e => exact fun held => OverSocket.later held stay
    | streaming socket e requestBody =>
      exact fun held => ⟨held.1.later stay, denotes_append held.2 more⟩
    | done => exact id

/-- Every connection remembers what its socket knows, every call has its own connection, and
everything that was sent stands for the full input. -/
structure Sound (s : CodexSession N) : Prop where
  remembers : ∀ connection ∈ s.connections, Remembers s.responses connection
  calls : ∀ call ∈ s.calls, CallSound s.connections s.responses call
  sent : ∀ body ∈ s.sent, Faithful s.responses body.socket body.requestBody body.fullBody

end

namespace Sound

variable {s : CodexSession N}

variable {i socket : Nat} {after : CodexSession N} {responseId : Option String}
  {responseItems : List (Json N)}

section

variable (sound : Sound s) {call : StreamCall N} {entry : Option Nat}

include sound

theorem forget (e : Nat) : Sound (s.forget e) where
  remembers := sound.remembers
  calls := sound.calls
  sent := sound.sent

theorem modifyEntry (e : Nat)
    {change : CachedWebSocketConnection N → CachedWebSocketConnection N}
    (keeps : ∀ connection, s.connections[e]? = some connection →
      (change connection).socket = connection.socket ∧
        Remembers s.responses (change connection)) : Sound (s.modifyEntry e change) where
  remembers := by
    intro connection inside
    obtain ⟨place, at_⟩ := mem_iff_getElem?.mp inside
    rw [CodexSession.modifyEntry, getElem?_modify] at at_
    by_cases same : e = place
    · obtain ⟨before, there, rfl⟩ := map_eq_some_iff.mp at_
      rw [if_pos same]
      exact (keeps before (same ▸ there)).2
    · obtain ⟨before, there, rfl⟩ := map_eq_some_iff.mp at_
      rw [if_neg same]
      exact sound.remembers before (mem_of_getElem? there)
  calls call inside := by
    have stay := SocketsStay.modify s.connections e fun connection at_ =>
      (keeps connection at_).1
    have later := (sound.calls call inside).later stay []
    rw [append_nil] at later
    exact later
  sent := sound.sent

theorem move (i : Nat) (stage : StreamStage N)
    (fits : ∀ call, s.calls[i]? = some call →
      StageSound s.connections s.responses call.fullBody stage) : Sound (s.move i stage) where
  remembers := sound.remembers
  calls := by
    intro call inside
    obtain ⟨place, at_⟩ := mem_iff_getElem?.mp inside
    rw [CodexSession.move, getElem?_modify] at at_
    obtain ⟨before, there, rfl⟩ := map_eq_some_iff.mp at_
    have held := sound.calls before (mem_of_getElem? there)
    by_cases same : i = place
    · rw [if_pos same]
      exact ⟨held.alone, fits before (same ▸ there)⟩
    · rw [if_neg same]
      exact held
  sent := sound.sent

theorem release (entry : Option Nat) (keep reusable : Bool) :
    Sound (s.release entry keep reusable) := by
  cases entry with
  | none => exact sound
  | some entry =>
    rw [CodexSession.release]
    split
    · exact sound.forget entry
    · exact sound.modifyEntry entry fun connection at_ =>
        ⟨rfl, sound.remembers connection (mem_of_getElem? at_)⟩

theorem acquired (caches : Bool) (accountId : String)
    (expired reusable : Bool) (fullBody : RequestBody N) :
    Sound (s.acquireWebSocket caches accountId expired reusable).1 ∧
      StageSound (s.acquireWebSocket caches accountId expired reusable).1.connections
        (s.acquireWebSocket caches accountId expired reusable).1.responses fullBody
        (s.acquireWebSocket caches accountId expired reusable).2 := by
  unfold CodexSession.acquireWebSocket
  split
  · exact ⟨sound, trivial⟩
  · split
    · exact ⟨sound, trivial⟩
    · rename_i e kept
      split
      · exact ⟨sound, trivial⟩
      · rename_i cached at_
        have marked : Sound (s.modifyEntry e ({ · with busy := true })) :=
          sound.modifyEntry e fun connection there =>
            ⟨rfl, sound.remembers connection (mem_of_getElem? there)⟩
        split
        · exact ⟨sound.forget e, trivial⟩
        · split
          · refine ⟨marked, ?_⟩
            intro place named
            cases named
            exact ⟨{ cached with busy := true }, by simp [CodexSession.modifyEntry, at_], rfl⟩
          · split
            · exact ⟨sound, trivial⟩
            · exact ⟨sound.forget e, trivial⟩

theorem connected (taken : s.connected i = some after) : Sound after := by
  unfold CodexSession.connected at taken
  split at taken
  · cases taken
    have moved := sound.move i (.acquired s.sockets none) fun call _ place named => by
      cases named
    exact ⟨moved.remembers, moved.calls, moved.sent⟩
  · cases taken
    have opened : Sound { s with
        connections := s.connections ++
          [{ socket := s.sockets, busy := true, continuation := none }] } := by
      refine ⟨?_, ?_, sound.sent⟩
      · intro connection inside
        rcases mem_append.mp inside with before | new
        · exact sound.remembers connection before
        · rw [mem_singleton.mp new]
          exact .nothing _ _ _
      · intro call inside
        have stay := SocketsStay.append s.connections
          [{ socket := s.sockets, busy := true, continuation := none }]
        have later := (sound.calls call inside).later stay []
        rw [append_nil] at later
        exact later
    have moved := opened.move i
      (.acquired s.sockets (some s.connections.length)) fun call _ place named => by
        cases named
        exact ⟨_, getElem?_concat_length, rfl⟩
    exact ⟨moved.remembers, moved.calls, moved.sent⟩
  · cases taken

theorem failed (taken : s.failed i = some after) : Sound after := by
  unfold CodexSession.failed at taken
  split at taken
  · rename_i e _ _
    have moved := sound.move i .done fun _ _ => trivial
    cases e with
    | none =>
      cases taken
      exact moved
    | some e =>
      cases taken
      have forgot : Sound ((s.move i .done).modifyEntry e
          ({ · with continuation := none })) :=
        moved.modifyEntry e fun connection _ => ⟨rfl, .nothing _ _ _⟩
      exact forgot.release _ _ _
  · cases taken

/-- The answer of a call follows from what the call sent, and is known by its own id. -/
theorem answered {requestBody : RequestBody N}
    (taken : s.answered socket requestBody responseId responseItems = some after)
    {input : List (Json N)} (stands : denotes s.responses (some socket) requestBody = some input) :
    Sound after ∧ after.connections = s.connections ∧ after.calls = s.calls ∧
      ∀ id, responseId = some id →
        contextOf after.responses socket id = some (input ++ responseItems) := by
  unfold CodexSession.answered at taken
  split at taken
  · cases taken
  · cases taken
    exact ⟨sound, rfl, rfl, fun id named => by cases named⟩
  · rename_i known id denoted
    cases denoted.symm.trans stands
    split at taken
    · cases taken
    · rename_i fresh
      cases taken
      refine ⟨⟨?_, ?_, ?_⟩, rfl, rfl, ?_⟩
      · exact fun connection inside => (sound.remembers connection inside).append _
      · intro call inside
        have stay : SocketsStay s.connections s.connections :=
          fun _ connection at_ => ⟨connection, at_, rfl⟩
        exact (sound.calls call inside).later stay _
      · exact fun body inside => (sound.sent body inside).append _
      · intro id named
        cases named
        exact contextOf_new fresh socket _

theorem continueWith
    (held : OverSocket s.connections socket entry) (known : ∀ id, responseId = some id →
      contextOf s.responses socket id = some (call.fullBody.input.getD [] ++ responseItems))
    (aborted : Bool) : Sound (s.continueWith call entry responseId responseItems aborted) := by
  unfold CodexSession.continueWith
  split
  · rename_i entry id
    split
    · refine sound.modifyEntry entry fun connection at_ => ⟨rfl, ?_⟩
      obtain ⟨own, there, same⟩ := held entry rfl
      cases at_.symm.trans there
      intro continuation kept
      cases kept
      have context := known id rfl
      rw [← same] at context
      exact context
    · exact sound
  · exact sound

theorem completed {aborted reusable : Bool}
    (taken : s.completed i responseId responseItems aborted reusable = some after) :
    Sound after := by
  unfold CodexSession.completed at taken
  split at taken
  · rename_i call at_
    split at taken
    · rename_i socket e requestBody stage
      obtain ⟨s', answer, rfl⟩ := map_eq_some_iff.mp taken
      have own := sound.calls call (mem_of_getElem? at_)
      have fits := own.stage
      rw [stage] at fits
      obtain ⟨kept, connections, -, known⟩ := sound.answered answer fits.2
      have held : OverSocket s'.connections socket e := connections ▸ fits.1
      have continued := kept.continueWith held known aborted
      exact (continued.move i .done fun _ _ => trivial).release _ _ _
    · cases taken
  · cases taken

variable [JsonNumber N]

theorem requestBody (alone : call.fullBody.previousResponseId = none)
    (held : OverSocket s.connections socket entry) :
    Sound (s.requestBody call entry).2 ∧
      OverSocket (s.requestBody call entry).2.connections socket entry ∧
      (s.requestBody call entry).2.responses = s.responses ∧
      Faithful s.responses (some socket) (s.requestBody call entry).1
        call.fullBody := by
  unfold CodexSession.requestBody
  split
  · rename_i entry cached
    obtain ⟨connection, at_, same⟩ := held entry rfl
    rw [at_]
    have remembers := sound.remembers connection (mem_of_getElem? at_)
    have keeps : (buildCachedWebSocketRequestBody connection call.fullBody).2.socket =
          connection.socket ∧
        Remembers s.responses (buildCachedWebSocketRequestBody connection call.fullBody).2 := by
      rcases build_after connection call.fullBody with kept | forgot
      · rw [kept]
        exact ⟨rfl, remembers⟩
      · rw [forgot]
        exact ⟨rfl, .nothing _ _ _⟩
    refine ⟨sound.modifyEntry entry ?_, held.later (SocketsStay.modify _ entry ?_), rfl, ?_⟩
    · intro before there
      cases at_.symm.trans there
      exact keeps
    · intro before there
      cases at_.symm.trans there
      exact keeps.1
    · rw [← same]
      exact build_faithful remembers alone
  · exact ⟨sound, held, rfl, .full _ _ alone⟩

theorem send (taken : s.send i = some after) : Sound after := by
  unfold CodexSession.send at taken
  split at taken
  · rename_i call at_
    split at taken
    · rename_i socket e stage
      cases taken
      have own := sound.calls call (mem_of_getElem? at_)
      have held : OverSocket s.connections socket e := by
        have fits := own.stage
        rw [stage] at fits
        exact fits
      obtain ⟨kept, held, known, faithful⟩ := sound.requestBody own.alone held
      rw [← known] at faithful
      have calls : (s.requestBody call e).2.calls = s.calls := by
        unfold CodexSession.requestBody
        split
        · split <;> rfl
        · rfl
      have moved := kept.move i
        (.streaming socket e (s.requestBody call e).1) fun other there => by
          rw [calls, at_] at there
          cases there
          exact ⟨held, faithful.input⟩
      refine ⟨moved.remembers, moved.calls, ?_⟩
      intro body inside
      rcases mem_append.mp inside with before | new
      · exact moved.sent body before
      · rw [mem_singleton.mp new]
        exact faithful
    · cases taken
  · cases taken

theorem step {ev : CodexEvent N} (taken : s.step ev = some after) : Sound after := by
  cases ev with
  | stream transport caches accountId input fields expired reusable =>
    unfold CodexSession.step at taken
    dsimp only at taken
    split at taken
    · cases taken
      refine ⟨sound.remembers, sound.calls, ?_⟩
      intro body inside
      rcases mem_append.mp inside with before | new
      · exact sound.sent body before
      · rw [mem_singleton.mp new]
        exact .full _ _ rfl
    · cases taken
      obtain ⟨kept, fits⟩ := sound.acquired caches accountId expired reusable
        { input, previousResponseId := none, fields }
      refine ⟨kept.remembers, ?_, kept.sent⟩
      intro call inside
      rcases mem_append.mp inside with before | new
      · exact kept.calls call before
      · rw [mem_singleton.mp new]
        exact ⟨rfl, fits⟩
  | connected i => exact sound.connected taken
  | refused i =>
    unfold CodexSession.step at taken
    dsimp only at taken
    split at taken
    · cases taken
      exact sound.move i .done fun _ _ => trivial
    · cases taken
  | send i => exact sound.send taken
  | failed i => exact sound.failed taken
  | completed i responseId responseItems aborted reusable => exact sound.completed taken
  | idleTimeout e =>
    unfold CodexSession.step at taken
    dsimp only at taken
    split at taken
    · cases taken
      split
      · exact sound
      · exact sound.forget e
    · cases taken
  | closeSessions =>
    cases taken
    exact ⟨sound.remembers, sound.calls, sound.sent⟩

end

end Sound

variable [JsonNumber N]

theorem sound_inductive :
    (codexMachine : Machine (CodexSession N) (CodexEvent N)).Inductive (fun _ _ => True) Sound where
  start s initial := by
    rw [show s = .new from initial]
    exact ⟨nofun, nofun, nofun⟩
  step _ _ _ sound _ taken := sound.step taken

/-- Whatever a session sends stands for the input of the full body, is the same otherwise, and
names no response of another socket. -/
theorem codex_sent_faithful {s : CodexSession N}
    (reached : codexMachine.Reached (fun _ _ => True) s) {body : SentBody N}
    (sent : body ∈ s.sent) :
    Faithful s.responses body.socket body.requestBody body.fullBody :=
  (sound_inductive.reached reached).sent body sent

/-- Two requests over one connection; the second continues the first. -/
def continuedEvents : List (CodexEvent Int) :=
  [.stream .auto true "account" (some [.str "first"]) [] false true, .connected 0, .send 0,
    .completed 0 (some "response") [.str "answer"] false true,
    .stream .auto true "account" (some [.str "first", .str "answer", .str "second"]) [] false true,
    .send 1]

def continuedBody : SentBody Int where
  socket := some 0
  requestBody :=
    { input := some [.str "second"], previousResponseId := some "response", fields := [] }
  fullBody :=
    { input := some [.str "first", .str "answer", .str "second"], previousResponseId := none
      fields := [] }

theorem codex_sent_sample : ∃ s : CodexSession Int,
    codexMachine.Reached (fun _ _ => True) s ∧ s.sent[1]? = some continuedBody ∧
      Faithful s.responses continuedBody.socket continuedBody.requestBody
        continuedBody.fullBody := by
  have ran : (codexMachine.exec (fun _ _ => True) .new continuedEvents).isSome = true := rfl
  obtain ⟨s, last⟩ := Option.isSome_iff_exists.mp ran
  have sent : ((codexMachine.exec (fun _ _ => True) .new continuedEvents).bind fun s =>
      s.sent[1]?) = some continuedBody := rfl
  rw [last, Option.bind_some] at sent
  have reached := Machine.Reached.exec (.start rfl) last
  exact ⟨s, reached, sent, codex_sent_faithful reached (List.mem_of_getElem? sent)⟩

end Trpi.Ai
