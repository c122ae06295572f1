import Trpi.Remote.HeldClient

/-!
# Subscriptions a server holds: steps of the server

The server's steps keep how far each subscription is, so a run of which every step is tidy leaves
no subscription behind.
-/

namespace Trpi.Remote

open Link List
open Library (Machine)

variable {S U W V E D : Type}

namespace Link

variable {link next rest : Link S U W V E} {id : Nat}

theorem asks_setHandler (link : Link S U W V E) (id : Nat) {handler : Option Handler}
    (stage : ∀ current, handler = some current → current.stage ≠ .invoking) (other : Nat)
    (target : RpcTarget) (call : ServiceCall) :
    (link.setHandler id handler).Asks other target call ↔
      .request other target call ∈ link.waiting ∨
      other ≠ id ∧ ∃ current, link.activeRequests other = some current ∧
        current.key = (target, call, .invoking) := by
  rw [Asks, waiting_setHandler, activeRequests_setHandler]
  refine or_congr_right ?_
  by_cases same : other = id
  · rw [if_pos same]
    refine ⟨?_, fun absurd => False.elim (absurd.1 same)⟩
    rintro ⟨current, active, key⟩
    exact absurd (congrArg (fun parts => parts.2.2) key) (stage current active)
  · rw [if_neg same]
    exact ⟨fun asks => ⟨same, asks⟩, fun asks => asks.2⟩

theorem asks_setHandler_answered {handler : Handler} {after : Option Handler}
    (active : link.activeRequests id = some handler) (answered : handler.stage ≠ .invoking)
    (stage : ∀ current, after = some current → current.stage ≠ .invoking) (other : Nat)
    (target : RpcTarget) (call : ServiceCall) :
    (link.setHandler id after).Asks other target call ↔ link.Asks other target call := by
  rw [asks_setHandler link id stage, Asks]
  refine or_congr_right ⟨fun asks => asks.2, fun asks => ⟨?_, asks⟩⟩
  rintro rfl
  obtain ⟨current, isActive, key⟩ := asks
  rw [active] at isActive
  cases isActive
  exact answered (congrArg (fun parts => parts.2.2) key)

theorem Hushed.asks (same : link.Hushed next) (isOpen : next.isOpen = true) (id : Nat)
    (target : RpcTarget) (call : ServiceCall) :
    next.Asks id target call ↔ link.Asks id target call := by
  have handlers := same.handlers id
  constructor
  · rintro (waits | ⟨handler, active, key⟩)
    · exact .inl (same.fewer _ waits)
    · rw [active, Option.map_some] at handlers
      obtain ⟨before, was, kept⟩ := Option.map_eq_some_iff.mp handlers.symm
      exact .inr ⟨before, was, kept.trans key⟩
  · rintro (waits | ⟨handler, active, key⟩)
    · exact .inl (same.same isOpen id target call waits)
    · rw [active, Option.map_some] at handlers
      obtain ⟨later, is, kept⟩ := Option.map_eq_some_iff.mp handlers
      exact .inr ⟨later, is, kept.trans key⟩

theorem Without.mem {m : ClientMessage} (taken : link.Without rest m)
    {other : ClientMessage} : other ∈ link.waiting ↔ other = m ∨ other ∈ rest.waiting := by
  obtain ⟨front, back, before, after⟩ := taken.waiting
  rw [before, after, mem_append, mem_cons, mem_append]
  tauto

variable {target : RpcTarget} {call : ServiceCall}

theorem asks_newHandler (taken : link.Without rest (.request id target call))
    (free : link.activeRequests id = none) (other : Nat) (asker : RpcTarget)
    (otherCall : ServiceCall) :
    (rest.setHandler id (some (newHandler target call))).Asks other asker otherCall ↔
      link.Asks other asker otherCall := by
  rw [Asks, Asks, waiting_setHandler, activeRequests_setHandler, taken.handlers, taken.mem]
  by_cases same : other = id
  · subst same
    simp [free, newHandler, Handler.key]
    tauto
  · simp [same]

theorem asks_refused (taken : link.Without rest (.request id target call))
    (handler : Option Handler)
    (stage : ∀ current, handler = some current → current.stage ≠ .invoking) :
    (∀ other asker otherCall, (rest.setHandler id handler).Asks other asker otherCall →
      link.Asks other asker otherCall) ∧
    ∀ other asker otherCall, link.Asks other asker otherCall → other ≠ id →
      (rest.setHandler id handler).Asks other asker otherCall := by
  constructor
  · intro other asker otherCall asks
    rw [asks_setHandler rest id stage, taken.handlers] at asks
    exact asks.imp (taken.fewer _) fun active => active.2
  · intro other asker otherCall asks apart
    rw [asks_setHandler rest id stage, taken.handlers]
    refine asks.imp (fun waits => (taken.mem.mp waits).resolve_left ?_) fun active => ⟨apart, active⟩
    intro same
    cases same
    exact apart rfl

theorem asks_answered (once : ∀ target call, .request id target call ∉ link.waiting)
    (handler : Option Handler)
    (stage : ∀ current, handler = some current → current.stage ≠ .invoking) :
    (∀ other asker otherCall, (link.setHandler id handler).Asks other asker otherCall →
      other ≠ id ∧ link.Asks other asker otherCall) ∧
    ∀ other asker otherCall, link.Asks other asker otherCall → other ≠ id →
      (link.setHandler id handler).Asks other asker otherCall := by
  constructor
  · intro other asker otherCall asks
    rw [asks_setHandler link id stage] at asks
    rcases asks with waits | ⟨apart, active⟩
    · refine ⟨?_, .inl waits⟩
      rintro rfl
      exact once asker otherCall waits
    · exact ⟨apart, .inr active⟩
  · intro other asker otherCall asks apart
    rw [asks_setHandler link id stage]
    exact asks.imp_right fun active => ⟨apart, active⟩

theorem asks_unique (bound : requestCount id link.waiting + link.unanswered id ≤ 1)
    {other : RpcTarget} {otherCall : ServiceCall} (asks : link.Asks id target call)
    (again : link.Asks id other otherCall) : other = target ∧ otherCall = call := by
  have apart : ∀ {asker asked handler}, .request id asker asked ∈ link.waiting →
      link.activeRequests id = some handler → handler.stage = .invoking → False := by
    intro asker asked handler waits active invoking
    have some := requestCount_pos waits
    rw [unanswered_of_invoking active invoking] at bound
    omega
  rcases asks with waits | ⟨handler, active, key⟩ <;>
    rcases again with waitsAgain | ⟨handlerAgain, activeAgain, keyAgain⟩
  · have few : (link.waiting.filter fun m => m.isRequest id).length ≤ 1 := by
      rw [← countP_eq_length_filter]
      exact Nat.le_trans (Nat.le_add_right _ _) bound
    have first := mem_filter.mpr ⟨waits, show ClientMessage.isRequest id _ = true by
      simp [ClientMessage.isRequest]⟩
    have second := mem_filter.mpr ⟨waitsAgain, show ClientMessage.isRequest id _ = true by
      simp [ClientMessage.isRequest]⟩
    generalize link.waiting.filter (ClientMessage.isRequest id) = requests at few first second
    rcases requests with _ | ⟨only, _ | ⟨more, rest⟩⟩
    · cases first
    · cases (mem_singleton.mp first).trans (mem_singleton.mp second).symm
      exact ⟨rfl, rfl⟩
    · simp at few
  · exact False.elim (apart waits activeAgain (congrArg (fun parts => parts.2.2) keyAgain))
  · exact False.elim (apart waitsAgain active (congrArg (fun parts => parts.2.2) key))
  · rw [active] at activeAgain
    cases activeAgain
    rw [key] at keyAgain
    cases keyAgain
    exact ⟨rfl, rfl⟩

end Link

section

variable {serverId : String} {conn : Nat} {c : Client S U W V D} {link next : Link S U W V E}

theorem mem_flow_append {sent : List (ServerMessage W V)}
    (toClient : next.toClient = link.toClient ++ sent) {m : ServerMessage W V}
    (mem : m ∈ c.flow conn next) : m ∈ c.flow conn link ∨ m ∈ sent := by
  unfold Client.flow at mem ⊢
  rw [toClient, ← append_assoc] at mem
  exact mem_append.mp mem

variable {target : RpcTarget}

section

variable (tracked : Tracked serverId none conn c link) {id : Nat}

include tracked

/-- Nothing is answered. -/
theorem Tracked.unanswered
    (asks : ∀ id target call, next.Asks id target call ↔ link.Asks id target call)
    {sent : List (ServerMessage W V)} (toClient : next.toClient = link.toClient ++ sent)
    (silent : ∀ id result, .response id result ∉ sent)
    (holds : ∀ sub, next.holds sub = link.holds sub) :
    Tracked serverId none conn c next :=
  tracked.mono rfl rfl ⟨rfl, rfl, fun _ => rfl, rfl⟩ asks
    (fun id result mem => (mem_flow_append toClient mem).resolve_right (silent id result))
    holds

/-- A request is answered, and no subscription is granted or ended by it. -/
theorem Tracked.answer {call : ServiceCall} (asked : link.Asks id target call)
    (unique : ∀ other otherCall, link.Asks id other otherCall → other = target ∧ otherCall = call)
    {result : Except ProtocolError (Reply W)} (bare : ∀ wire, result ≠ .ok (.snapshot wire))
    (released : ∀ sub, call = .unsubscribe sub →
      target.serverId = serverId → link.holds sub = false)
    (fewer : ∀ other asker otherCall, next.Asks other asker otherCall →
      link.Asks other asker otherCall)
    (kept : ∀ other asker otherCall, link.Asks other asker otherCall → other ≠ id →
      next.Asks other asker otherCall)
    (toClient : next.toClient = link.toClient ++ [.response id result])
    (holds : ∀ sub, next.holds sub = link.holds sub) : Tracked serverId none conn c next where
  asked other asker sub serviceId mode isAsked := by
    rw [holds]
    exact tracked.asked _ _ _ _ _ (fewer _ _ _ isAsked)
  kind other asker otherCall pending sub isAsked :=
    tracked.kind _ _ _ _ _ (fewer _ _ _ isAsked)
  released other asker sub isAsked := tracked.released _ _ _ (fewer _ _ _ isAsked)
  answered other wire pending sub mem isPending own := by
    rw [holds]
    rcases mem_flow_append toClient mem with old | new
    · exact tracked.answered _ _ _ _ old isPending own
    · cases mem_singleton.mp new
      exact absurd rfl (bare wire)
  refused other error pending sub mem isPending own := by
    rw [holds]
    rcases mem_flow_append toClient mem with old | new
    · exact tracked.refused _ _ _ _ old isPending own
    · cases mem_singleton.mp new
      obtain ⟨serviceId, mode, rfl⟩ := tracked.kind _ _ _ _ _ asked isPending own
      exact (tracked.asked _ _ _ _ _ asked).1
  aborted other pending sub isPending own isAborted := by
    rw [holds]
    exact tracked.aborted _ _ _ isPending own isAborted
  waits := tracked.waits
  own := tracked.own
  resolved other answer sub sent settled := by
    rw [holds]
    exact tracked.resolved _ _ _ sent settled
  rejected other error sub sent settled := by
    rw [holds]
    exact tracked.rejected _ _ _ sent settled
  failed error sub sent := by
    rw [holds]
    exact tracked.failed _ _ sent
  obtained sub isSome listening := by
    rw [holds]
    exact tracked.obtained _ isSome listening
  held sub leaves isHeld := by
    rw [holds] at isHeld
    rcases tracked.held sub leaves isHeld with listening | ⟨other, asker, isAsked, here⟩
    · exact .inl listening
    · refine .inr ⟨other, asker, kept _ _ _ isAsked ?_, here⟩
      rintro rfl
      obtain ⟨rfl, rfl⟩ := unique _ _ isAsked
      rw [released sub rfl here] at isHeld
      cases isHeld
  bound sub later := by
    rw [holds]
    exact tracked.bound _ later

theorem Tracked.unsubscribed
    {sub : Nat} (asked : link.Asks id target (.unsubscribe sub))
    (unique : ∀ other otherCall, link.Asks id other otherCall → otherCall = .unsubscribe sub)
    {reply : Reply W} (bare : ∀ wire, reply ≠ .snapshot wire)
    (fewer : ∀ other asker otherCall, next.Asks other asker otherCall →
      link.Asks other asker otherCall)
    (kept : ∀ other asker otherCall, link.Asks other asker otherCall → other ≠ id →
      next.Asks other asker otherCall)
    (toClient : next.toClient = link.toClient ++ [.response id (.ok reply)])
    (holds : ∀ other, next.holds other =
      if other = sub then false else link.holds other) :
    Tracked serverId none conn c next := by
  obtain ⟨deaf, idle, -⟩ := tracked.released _ _ _ asked
  have free : ∀ {other}, link.holds other = false → next.holds other = false := by
    intro other vacant
    rw [holds, vacant, ite_self]
  have still : ∀ {other}, other ≠ sub → link.holds other = true → next.holds other = true := by
    intro other apart isHeld
    rw [holds, if_neg apart, isHeld]
  constructor
  · intro other asker asId serviceId mode isAsked
    obtain ⟨vacant, rest⟩ := tracked.asked _ _ _ _ _ (fewer _ _ _ isAsked)
    exact ⟨free vacant, rest⟩
  · exact fun other asker otherCall pending asId isAsked =>
      tracked.kind _ _ _ _ _ (fewer _ _ _ isAsked)
  · exact fun other asker asId isAsked => tracked.released _ _ _ (fewer _ _ _ isAsked)
  · intro other wire pending asId mem isPending own
    rcases mem_flow_append toClient mem with old | new
    · have isHeld := tracked.answered _ _ _ _ old isPending own
      refine still ?_ isHeld
      rintro rfl
      -- A call that was granted is not cancelled, so it is still waited for.
      have live : pending.aborted = false := by
        by_contra isAborted
        have vacant := tracked.aborted _ _ _ isPending own (by simpa using isAborted)
        rw [vacant] at isHeld
        cases isHeld
      have sent := (tracked.waits _ _ _ isPending own live).2.1
      rw [idle] at sent
      cases sent
    · cases mem_singleton.mp new
      exact absurd rfl (bare wire)
  · intro other error pending asId mem isPending own
    rcases mem_flow_append toClient mem with old | new
    · exact free (tracked.refused _ _ _ _ old isPending own)
    · cases mem_singleton.mp new
  · exact fun other pending asId isPending own isAborted =>
      free (tracked.aborted _ _ _ isPending own isAborted)
  · exact tracked.waits
  · exact tracked.own
  · intro other answer asId sent settled
    obtain ⟨isHeld, vacant⟩ := tracked.resolved _ _ _ sent settled
    refine ⟨fun listening => still ?_ (isHeld listening), fun none => free (vacant none)⟩
    rintro rfl
    rw [idle] at sent
    cases sent
  · exact fun other error asId sent settled => free (tracked.rejected _ _ _ sent settled)
  · exact fun error asId sent => free (tracked.failed _ _ sent)
  · intro asId isSome listening
    refine still ?_ (tracked.obtained _ isSome listening)
    rintro rfl
    rw [deaf] at listening
    cases listening
  · intro asId leaves isHeld
    rw [holds] at isHeld
    split_ifs at isHeld with same
    rcases tracked.held asId leaves isHeld with listening | ⟨other, asker, isAsked, here⟩
    · exact .inl listening
    · refine .inr ⟨other, asker, kept _ _ _ isAsked ?_, here⟩
      rintro rfl
      cases unique _ _ isAsked
      exact same rfl
  · exact fun asId later => free (tracked.bound _ later)

theorem Tracked.installed
    (paired : c.Paired) {sub : Nat} {serviceId : String}
    {mode : Trpi.Chord.Services.ServiceMode}
    (asked : link.Asks id target (.subscribe sub serviceId mode))
    (unique : ∀ other otherCall, link.Asks id other otherCall →
      otherCall = .subscribe sub serviceId mode)
    (silent : ∀ result, .response id result ∉ c.flow conn link)
    (live : ∀ pending, c.pendingRequests id = some pending →
      pending.subscriptionId = some sub → pending.aborted = false)
    (fewer : ∀ other asker otherCall, next.Asks other asker otherCall →
      other ≠ id ∧ link.Asks other asker otherCall)
    (kept : ∀ other asker otherCall, link.Asks other asker otherCall → other ≠ id →
      next.Asks other asker otherCall)
    {wire : W} (toClient : next.toClient = link.toClient ++ [.response id (.ok (.snapshot wire))])
    (holds : ∀ other, next.holds other =
      if other = sub then true else link.holds other) :
    Tracked serverId none conn c next := by
  obtain ⟨vacant, pending, isPending, own⟩ := tracked.asked _ _ _ _ _ asked
  obtain ⟨listening, sent, unsettled⟩ :=
    tracked.waits id pending sub isPending own (live pending isPending own)
  obtain ⟨active, isActive, issuer, -⟩ := paired.pending id pending sub isPending own
  have still : ∀ {other}, link.holds other = true → next.holds other = true := by
    intro other isHeld
    rw [holds, isHeld, ite_self]
  have free : ∀ {other}, other ≠ sub → link.holds other = false → next.holds other = false := by
    intro other apart lacking
    rw [holds, if_neg apart, lacking]
  -- Only this request is the subscription's.
  have issued : ∀ {other request}, c.pendingRequests other = some request →
      request.subscriptionId = some sub → other = id := by
    intro other request isRequest ownRequest
    obtain ⟨same, isSame, otherIssuer, -⟩ :=
      paired.pending other request sub isRequest ownRequest
    rw [isActive] at isSame
    cases isSame
    exact otherIssuer.symm.trans issuer
  constructor
  · intro other asker asId otherService otherMode isAsked
    obtain ⟨apart, before⟩ := fewer _ _ _ isAsked
    obtain ⟨lacking, request, isRequest, ownRequest⟩ := tracked.asked _ _ _ _ _ before
    refine ⟨free ?_ lacking, request, isRequest, ownRequest⟩
    rintro rfl
    exact apart (issued isRequest ownRequest)
  · exact fun other asker otherCall request asId isAsked =>
      tracked.kind _ _ _ _ _ (fewer _ _ _ isAsked).2
  · exact fun other asker asId isAsked => tracked.released _ _ _ (fewer _ _ _ isAsked).2
  · intro other otherWire request asId mem isRequest ownRequest
    rcases mem_flow_append toClient mem with old | new
    · exact still (tracked.answered _ _ _ _ old isRequest ownRequest)
    · cases mem_singleton.mp new
      rw [isPending] at isRequest
      cases isRequest
      rw [own] at ownRequest
      cases ownRequest
      rw [holds, if_pos rfl]
  · intro other error request asId mem isRequest ownRequest
    rcases mem_flow_append toClient mem with old | new
    · refine free ?_ (tracked.refused _ _ _ _ old isRequest ownRequest)
      rintro rfl
      cases issued isRequest ownRequest
      exact silent _ old
    · cases mem_singleton.mp new
  · intro other request asId isRequest ownRequest isAborted
    refine free ?_ (tracked.aborted _ _ _ isRequest ownRequest isAborted)
    rintro rfl
    cases issued isRequest ownRequest
    rw [live request isRequest ownRequest] at isAborted
    cases isAborted
  · exact tracked.waits
  · exact tracked.own
  · intro other answer asId isSent settled
    obtain ⟨isHeld, lacking⟩ := tracked.resolved _ _ _ isSent settled
    refine ⟨fun listens => still (isHeld listens), fun none => free ?_ (lacking none)⟩
    rintro rfl
    rw [sent] at isSent
    cases isSent
    rw [unsettled] at settled
    cases settled
  · intro other error asId isSent settled
    refine free ?_ (tracked.rejected _ _ _ isSent settled)
    rintro rfl
    rw [sent] at isSent
    cases isSent
    rw [unsettled] at settled
    cases settled
  · intro error asId isSent
    refine free ?_ (tracked.failed _ _ isSent)
    rintro rfl
    rw [sent] at isSent
    cases isSent
  · exact fun asId isSome listens => still (tracked.obtained _ isSome listens)
  · intro asId leaves isHeld
    by_cases same : asId = sub
    · rw [same]
      exact .inl listening
    · rw [holds, if_neg same] at isHeld
      rcases tracked.held asId leaves isHeld with listens | ⟨other, asker, isAsked, here⟩
      · exact .inl listens
      · refine .inr ⟨other, asker, kept _ _ _ isAsked ?_, here⟩
        rintro rfl
        cases unique _ _ isAsked
  · intro asId later
    refine free ?_ (tracked.bound _ later)
    rintro rfl
    rw [(paired.bound _ later).1] at listening
    cases listening

end

end

section

variable {codec : StateCodec S U W V E D} {serverId : String} {w : World S U W V E D}
  {conn : Nat} {next : Link S U W V E}

theorem holds_setEncoder (link : Link S U W V E) (sub : Nat) (encoder : Option E)
    (other : Nat) : (link.setEncoder sub encoder).holds other =
      if other = sub then encoder.isSome else link.holds other := by
  rw [holds, encoders_setEncoder, holds]
  split_ifs <;> rfl

theorem holds_encoded {link : Link S U W V E} {sub : Nat} {encoder after : E}
    (installed : link.serviceStateEncoders sub = some encoder) (other : Nat) :
    (link.setEncoder sub (some after)).holds other = link.holds other := by
  rw [holds_setEncoder]
  split_ifs with same
  · rw [same, holds, installed]
    rfl
  · rfl

theorem Tracked.server (ordered : w.Ordered serverId) (on : w.On conn) {ev : ServerEvent S U}
    (ok : w.Tidy codec (.server conn ev))
    (taken : (w.links conn).step codec serverId ev = some next) (stays : next.isOpen = true)
    (tracked : Tracked serverId none conn w.client (w.links conn)) :
    Tracked serverId none conn w.client next := by
  obtain ⟨⟨based, onces⟩, homed⟩ := ordered
  have paired := based.paired
  have expected := based.accounted.expected conn on.current
  have alive : next.stage ≠ .closed := by
    intro closed
    rw [isOpen, closed] at stays
    cases stays
  have serves := serves_of_step taken alive
  clear taken
  have once := onces conn on.current (alive_of_serves serves alive)
  generalize linked : w.links conn = link at tracked serves once expected
  have bound : ∀ id, requestCount id link.waiting + link.unanswered id ≤ 1 := by
    intro id
    have le := expected id
    have one := w.client.pendingCount_le_one id
    rw [underway] at le
    rw [requestCount_waiting]
    omega
  have asksOf : ∀ {id handler}, link.activeRequests id = some handler →
      handler.stage = .invoking → link.Asks id handler.target handler.call := fun active invoking =>
    .inr ⟨_, active, by rw [Handler.key, invoking]⟩
  have goneOf : ∀ {id handler}, link.activeRequests id = some handler →
      ∀ target call, .request id target call ∉ link.waiting := fun active target call =>
    once.gone _ target call (.inl (by rw [active]; rfl))
  have refusal : ∀ (error : ProtocolError) (wire : W),
      (.error error : Except ProtocolError (Reply W)) ≠ .ok (.snapshot wire) := by
    intro _ _ absurd
    cases absurd
  cases serves with
  | hushed same =>
    obtain ⟨sent, toClient, plain⟩ := same.toClient
    refine tracked.unanswered (same.asks stays) toClient (fun id result mem => ?_) fun other => ?_
    · have absurd := plain _ mem
      cases absurd
    · rw [holds, same.encoders, holds]
  | repeated id target call taken busy =>
    exact absurd (taken.mem.mpr (.inl rfl)) (once.gone id target call (.inl busy))
  | @refused _ rest id target call error taken free why =>
    have asks : link.Asks id target call := .inl (taken.mem.mpr (.inl rfl))
    obtain ⟨fewer, kept⟩ := asks_refused taken
      (some { newHandler target call with stage := .failing }) fun current same => by
        cases same
        intro absurd
        cases absurd
    have sent : (rest.failing id (newHandler target call) error).toClient =
        link.toClient ++ [.response id (.error error)] := by
      rw [← taken.toClient]
      rfl
    refine tracked.answer asks (fun _ _ => asks_unique (bound id) asks) (refusal error)
      (fun sub unsubscribes here => ?_) fewer kept sent fun other => ?_
    · rcases why with elsewhere | ⟨other, serviceId, mode, subscribes, -⟩
      · exact absurd here elsewhere
      · rw [unsubscribes] at subscribes
        cases subscribes
    · exact congrArg (fun encoders => (encoders other).isSome) taken.encoders
  | @accepted _ rest id target call taken free here plain =>
    exact tracked.unanswered (asks_newHandler taken free)
      (taken.toClient.trans (append_nil _).symm) (fun _ _ absurd => by cases absurd)
      fun other => congrArg (fun encoders => (encoders other).isSome) taken.encoders
  | @subscribing _ rest id target sub serviceId mode taken free here vacant =>
    exact tracked.unanswered (asks_newHandler taken free)
      (taken.toClient.trans (append_nil _).symm) (fun _ _ absurd => by cases absurd)
      fun other => congrArg (fun encoders => (encoders other).isSome) taken.encoders
  | failed id handler result error active invoking why =>
    obtain ⟨fewer, kept⟩ := asks_answered (goneOf active)
      (some { handler with stage := .failing }) fun current same => by
        cases same
        intro absurd
        cases absurd
    refine tracked.answer (asksOf active invoking)
      (fun _ _ => asks_unique (bound id) (asksOf active invoking)) (refusal error)
      (fun sub unsubscribes _ => ?_) (fun _ _ _ asks => (fewer _ _ _ asks).2) kept
      rfl fun _ => rfl
    rcases why with ⟨reason, rfl⟩ | ⟨other, serviceId, mode, subscribes⟩
    · rw [← linked]
      exact ok rfl on handler sub (by rw [linked]; exact active) unsubscribes
    · rw [unsubscribes] at subscribes
      cases subscribes
  | replied id handler result reply active invoking bare plain =>
    obtain ⟨fewer, kept⟩ := asks_answered (goneOf active)
      (some { handler with stage := .responding }) fun current same => by
        cases same
        intro absurd
        cases absurd
    obtain ⟨serviceId, mem, calls⟩ := plain
    refine tracked.answer (asksOf active invoking)
      (fun _ _ => asks_unique (bound id) (asksOf active invoking)) (fun wire same => ?_)
      (fun sub unsubscribes _ => ?_) (fun _ _ _ asks => (fewer _ _ _ asks).2) kept
      rfl fun _ => rfl
    · exact bare wire (Except.ok.inj same)
    · rw [calls] at unsubscribes
      cases unsubscribes
  | unsubscribed id handler result reply sub active invoking bare call =>
    obtain ⟨fewer, kept⟩ := asks_answered (goneOf active)
      (some { handler with stage := .responding }) fun current same => by
        cases same
        intro absurd
        cases absurd
    have asks := asksOf active invoking
    rw [call] at asks
    exact tracked.unsubscribed asks
      (fun _ _ again => (asks_unique (bound id) asks again).2) bare
      (fun _ _ _ asks => (fewer _ _ _ asks).2) kept rfl (holds_setEncoder link sub none)
  | installed id handler sub serviceId mode snapshot encoder wire active invoking call
      encoded =>
    obtain ⟨fewer, kept⟩ := asks_answered (goneOf active)
      (some { handler with stage := .responding }) fun current same => by
        cases same
        intro absurd
        cases absurd
    have asks := asksOf active invoking
    rw [call] at asks
    refine tracked.installed paired asks
      (fun _ _ again => (asks_unique (bound id) asks again).2)
      (fun result arrived => (arrived_pending expected arrived).2 _ _ asks)
      (fun pending isPending own => ?_) fewer kept rfl
      (holds_setEncoder link sub (some encoder))
    exact ok (by rw [encoded]; rfl) rfl on pending sub isPending own
  | ended id handler fits active answered why =>
    exact tracked.unanswered
      (asks_setHandler_answered active answered fun _ absurd => by cases absurd)
      (append_nil _).symm (fun _ _ absurd => by cases absurd) fun _ => rfl
  | drained id handler publisher fits active answered going publishes empty =>
    exact tracked.unanswered
      (asks_setHandler_answered active answered fun _ absurd => by cases absurd)
      (append_nil _).symm (fun _ _ absurd => by cases absurd) fun _ => rfl
  | skipped id handler publisher fits update later active answered going publishes held vacant =>
    refine tracked.unanswered (asks_setHandler_answered active answered fun current same => ?_)
      (append_nil _).symm (fun _ _ absurd => by cases absurd) fun _ => rfl
    cases same
    intro absurd
    cases absurd
  | forwarded id handler publisher update later encoder after wire active answered going publishes
      held installed encoded =>
    refine tracked.unanswered (asks_setHandler_answered active answered fun current same => ?_)
      rfl (fun _ _ mem => ?_) (holds_encoded installed)
    · cases same
      intro absurd
      cases absurd
    · cases mem_singleton.mp mem
  | held id publisher update fits publishes early =>
    exact tracked.unanswered (fun _ _ _ => Iff.rfl) (append_nil _).symm
      (fun _ _ absurd => by cases absurd) fun _ => rfl
  | unheard id publisher update fits publishes ready vacant =>
    exact tracked.unanswered (fun _ _ _ => Iff.rfl) (append_nil _).symm
      (fun _ _ absurd => by cases absurd) fun _ => rfl
  | lost id publisher update fits encoder after m publishes ready installed refused =>
    exact tracked.unanswered (fun _ _ _ => Iff.rfl) (append_nil _).symm
      (fun _ _ absurd => by cases absurd) (holds_encoded installed)
  | published id publisher update encoder after wire publishes ready installed encoded =>
    refine tracked.unanswered (fun _ _ _ => Iff.rfl) rfl (fun _ _ mem => ?_)
      (holds_encoded installed)
    cases mem_singleton.mp mem

end

end Trpi.Remote
