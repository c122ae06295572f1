import Trpi.Remote.Dispatch

/-!
# A client stays with its server

The server a client has said hello to, and the server of the session it is attached to, are the
one it is for; a client that was disposed of is not connected.
-/

namespace Trpi.Remote

open Library (Machine)

variable {S U W V E D : Type}

namespace Client

structure Homed (serverId : String) (c : Client S U W V D) : Prop where
  disposed : c.disposed = true → c.lifecycle = .disconnected
  hello : ∀ name, c.hello = some name → name = serverId
  attachment : ∀ target, c.attachment = some target → target.serverId = serverId

section

variable {serverId : String} {c next : Client S U W V D}

theorem homed_create : (create : Client S U W V D).Homed serverId where
  disposed absurd := nomatch absurd
  hello _ absurd := nomatch absurd
  attachment _ absurd := nomatch absurd

section

variable (homed : c.Homed serverId)

include homed

theorem Homed.serverId_of_current {target : RpcTarget}
    (current : c.targetIsCurrent target = true) : target.serverId = serverId := by
  unfold targetIsCurrent at current
  split at current
  · exact homed.hello target.serverId (by simpa using current)
  · exact homed.attachment target (by simpa using current)

theorem Homed.fail (error : ClientError) : (c.fail error).Homed serverId := by
  unfold Client.fail
  split_ifs
  · exact homed
  · exact ⟨fun _ => rfl, (fun _ absurd => nomatch absurd), fun _ absurd => nomatch absurd⟩

theorem Homed.send (m : ClientMessage) (out : Outgoing) : (c.send m out).1.Homed serverId := by
  unfold Client.send
  split
  · split
    · exact homed
    · exact homed.fail _
    · exact homed.fail _
  · exact homed

theorem Homed.register (pending : PendingRequest) :
    (c.registerRequest pending).Homed serverId :=
  ⟨homed.disposed, homed.hello, homed.attachment⟩

theorem Homed.settle (id : Nat) (outcome : Outcome S) : (c.settle id outcome).Homed serverId :=
  ⟨homed.disposed, homed.hello, homed.attachment⟩

theorem Homed.take (id : Nat) : (c.takePendingRequest id).Homed serverId :=
  ⟨homed.disposed, homed.hello, homed.attachment⟩

theorem Homed.setActive (sub : Nat) (active : ActiveServiceListener U V D) :
    (c.setActive sub active).Homed serverId :=
  ⟨homed.disposed, homed.hello, homed.attachment⟩

theorem Homed.request (target : RpcTarget) (call : ServiceCall)
    (signal : Signal) (sub : Option Nat) (out : Outgoing) :
    (c.request target call signal sub out).1.1.Homed serverId := by
  unfold Client.request
  split_ifs
  · exact homed
  · exact homed
  · exact homed
  · dsimp only
    split
    · exact ((homed.register _).take _).settle _ _
    · exact (homed.register _).send _ _

theorem Homed.resume (sub : Nat) (outcome : Outcome S) : (c.resume sub outcome).Homed serverId := by
  unfold Client.resume
  dsimp only
  split
  · split_ifs
    · exact ⟨homed.disposed, homed.hello, homed.attachment⟩
    · exact ⟨homed.disposed, homed.hello, homed.attachment⟩
  · exact ⟨homed.disposed, homed.hello, homed.attachment⟩

end

theorem Homed.handleMessage (codec : StateCodec S U W V E D) (homed : c.Homed serverId)
    (m : ServerMessage W V) : (c.handleMessage codec serverId m).Homed serverId := by
  unfold Client.handleMessage
  split
  · exact homed
  · rename_i id transport opening
    split
    · exact homed.fail _
    · rename_i name
      split_ifs with other early
      · exact homed.fail _
      · exact homed.fail _
      · refine ⟨fun disposed => ?_, fun said same => ?_, homed.attachment⟩
        · have apart := homed.disposed disposed
          rw [opening] at apart
          cases apart
        · cases same
          exact not_not.mp other
    · exact homed.fail _
  · split
    · exact homed.fail _
    · exact homed.fail _
    · unfold Client.handleEnvelope
      split
      · rename_i attachment _ _
        split_ifs with other
        · exact homed.fail _
        · refine ⟨homed.disposed, homed.hello, fun target same => ?_⟩
          change attachment = some target at same
          rw [same] at other
          simpa using other
      · unfold Client.handleUpdate
        split
        · split_ifs
          · exact homed.setActive _ _
          · split
            · exact homed.fail _
            · exact homed.setActive _ _
        · exact homed
      · split
        · exact homed.fail _
        · split
          · exact (homed.take _).settle _ _
          · unfold Client.resolveRequest
            split
            · exact (homed.take _).settle _ _
            · split
              · split
                · exact ((homed.take _).fail _).settle _ _
                · exact ((homed.take _).setActive _ _).settle _ _
              · exact ((homed.take _).fail _).settle _ _
      · exact homed

theorem homed_dispose (c : Client S U W V D) : c.dispose.Homed serverId := by
  refine ⟨fun _ => ?_, (fun _ absurd => nomatch absurd), fun _ absurd => nomatch absurd⟩
  unfold Client.dispose
  exact lifecycle_fail _ _

theorem Homed.step {codec : StateCodec S U W V E D} (homed : c.Homed serverId)
    {ev : ClientEvent} {result : Client S U W V D × Option (Nat × ClientMessage)}
    (taken : c.step codec serverId ev = some result) : result.1.Homed serverId := by
  cases ev with
  | connect =>
    rw [Client.step] at taken
    split_ifs at taken with disposed elsewhere
    · cases taken
      exact ⟨homed.disposed, (fun _ absurd => by cases absurd), homed.attachment⟩
    · cases taken
      exact ⟨fun absurd => False.elim (disposed absurd), (fun _ absurd => by cases absurd),
        homed.attachment⟩
  | disconnect reason =>
    cases taken
    exact homed.fail _
  | dispose =>
    rw [Client.step] at taken
    split_ifs at taken
    cases taken
    exact homed_dispose c
  | request target call signal out =>
    cases taken
    exact homed.request target call signal none out
  | subscribeService target serviceId mode signal out =>
    cases taken
    have listening : (c.listen codec target).Homed serverId :=
      ⟨homed.disposed, homed.hello, homed.attachment⟩
    have requested := listening.request target
      (.subscribe (c.serviceSubscriptionSequence + 1) serviceId mode) signal
      (some (c.serviceSubscriptionSequence + 1)) out
    exact ⟨requested.disposed, requested.hello, requested.attachment⟩
  | abort id out =>
    rw [Client.step] at taken
    split at taken
    · cases taken
    · rename_i pending isPending
      split_ifs at taken
      cases taken
      have marked : (c.markAborted id pending).Homed serverId :=
        ⟨homed.disposed, homed.hello, homed.attachment⟩
      exact (marked.settle _ _).send _ _
  | resume sub =>
    rw [Client.step] at taken
    split at taken
    · cases taken
    · rename_i error _
      cases taken
      exact homed.resume sub (.rejected error)
    · obtain ⟨outcome, -, same⟩ := Option.map_eq_some_iff.mp taken
      cases same
      exact homed.resume sub outcome
  | start sub =>
    rw [Client.step] at taken
    split at taken
    · split_ifs at taken
      cases taken
      exact homed.setActive _ _
    · cases taken
  | disposeSubscription sub out =>
    rw [Client.step] at taken
    split at taken
    · rename_i subscription active _ _
      split_ifs at taken
      cases taken
      have closed : (c.closeSubscription sub subscription active).Homed serverId :=
        ⟨homed.disposed, homed.hello, homed.attachment⟩
      unfold Client.disposeSubscription
      dsimp only
      split_ifs
      · exact closed.request _ _ _ _ _
      · exact closed
    · cases taken
  | deliver sub =>
    rw [Client.step] at taken
    split at taken
    · cases taken
    · split at taken
      · cases taken
      · cases taken
        exact homed.setActive _ _
  | opened =>
    rw [Client.step] at taken
    split at taken
    · rename_i id lifecycle idle
      cases taken
      refine ⟨fun disposed => ?_, homed.hello, homed.attachment⟩
      have apart := homed.disposed disposed
      rw [lifecycle] at apart
      cases apart
    · cases taken
  | lost reason =>
    rw [Client.step] at taken
    split at taken
    · cases taken
      exact homed.fail _
    · cases taken
  | handle =>
    obtain ⟨handled, same, pair⟩ := Option.map_eq_some_iff.mp taken
    cases pair
    unfold Client.handle at same
    split at same
    · cases same
    · rename_i m later waiting
      have rest : ∀ chunk, (c.withChunk chunk).Homed serverId := fun _ =>
        ⟨homed.disposed, homed.hello, homed.attachment⟩
      split_ifs at same
      · cases same
        exact rest []
      · cases same
        exact (rest later).handleMessage codec m

end

end Client

theorem inductive_homed (codec : StateCodec S U W V E D) (serverId : String)
    (allowed : World S U W V E D → Event S U → Prop) :
    (remoteMachine codec serverId).Inductive allowed fun w => w.client.Homed serverId where
  start w initial := by
    obtain rfl : w = .create := initial
    exact Client.homed_create
  step w ev next homed _ taken := by
    cases ev with
    | client ev =>
      obtain ⟨result, same, rfl⟩ := Option.map_eq_some_iff.mp taken
      exact homed.step same
    | data receiver count =>
      simp only [remoteMachine, World.step] at taken
      split at taken
      · cases taken
      · cases taken
        dsimp only
        rcases w.client.handleData_cases receiver
          ((w.links receiver).toClient.take count) with
          ⟨error, -, same⟩ | ⟨-, same⟩ | ⟨-, same⟩
        · rw [same]
          exact homed.fail error
        · rw [same]
          exact homed
        · rw [same]
          exact ⟨homed.disposed, homed.hello, homed.attachment⟩
    | server receiver ev =>
      obtain ⟨link, -, rfl⟩ := Option.map_eq_some_iff.mp taken
      exact homed

end Trpi.Remote
