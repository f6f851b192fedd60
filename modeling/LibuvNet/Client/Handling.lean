import LibuvNet.Client.Fresh
import LibuvNet.Endpoint.Outgoing

/-!
# A client program on one connection

A client with its application takes whole steps: the handlers run inside them, and the packets of
a chunk are handled one after the other.  What its handlers were called with can be read off the
chunks it received.  And what it writes stays on the connection it is on, as long as no handler
asks for another one.
-/

namespace LibuvNet

open Foundation

namespace Client

variable {W X K : Type*} {app : Application W X K} {client next : Receiver (Core W) K}
  {event : Event}

/-- The bytes an event brings. -/
def Event.received? : Event → Option Bytes
  | .onRead nread base => if 0 < nread then some base else none
  | _ => none

theorem received?_onRead {nread : ℤ} {base : Bytes} (hnread : 0 < nread) :
    (Event.onRead nread base).received? = some base :=
  if_pos hnread

theorem received?_eq_some {base : Bytes} (hreceived : event.received? = some base) :
    ∃ nread, 0 < nread ∧ event = .onRead nread base := by
  cases event with
  | onRead nread bytes =>
    simp only [Event.received?, Option.ite_none_right_eq_some, Option.some.injEq] at hreceived
    obtain ⟨hnread, rfl⟩ := hreceived
    exact ⟨nread, hnread, rfl⟩
  | _ => cases hreceived

/-! ## What the handlers are called with -/

/-- The calls of packet handlers for some packets. -/
def Application.invocations (app : Application W X K) (packets : List Packet) :
    List (K × Packet) :=
  packets.flatMap fun packet ↦ Obs.invocations (app.program.invoked packet)

/-- Handlers are called with packets that were received, in order and at most once each. -/
theorem Application.invocations_sublist (app : Application W X K) (packets : List Packet) :
    ((app.invocations packets).map Prod.snd).Sublist packets := by
  induction packets with
  | nil => exact List.Sublist.refl _
  | cons packet packets ih =>
    have hone : ((Obs.invocations (app.program.invoked packet)).map Prod.snd).Sublist [packet] := by
      unfold Program.invoked
      split
      · exact List.Sublist.refl _
      · exact List.nil_sublist _
    rw [invocations, List.flatMap_cons, List.map_append]
    exact hone.append ih

theorem Application.invocations_emits (app : Application W X K) (packets : List Packet) :
    Obs.invocations (packets.flatMap (emits app.program)) = app.invocations packets := by
  rw [Obs.invocations, List.filterMap_flatMap]
  rfl

theorem Application.invocations_append (app : Application W X K) (first second : List Packet) :
    app.invocations (first ++ second) = app.invocations first ++ app.invocations second :=
  List.flatMap_append

/-- Without a chunk no packet handler is called, and the buffer stays. -/
theorem step_of_received?_none (hreceived : event.received? = none)
    (hstep : step app client event = some next) :
    next.buffer = client.buffer ∧ Obs.invocations next.trace = Obs.invocations client.trace := by
  unfold step at hstep
  split at hstep
  · rw [Outcome.returned?_eq_some] at hstep
    cases event with
    | onConnect status readResult =>
      simp only [handle, onConnect] at hstep
      split_ifs at hstep
      · cases hstep
        exact ⟨rfl, rfl⟩
      · cases hstep
        exact ⟨rfl, rfl⟩
      · obtain ⟨core, -, rfl⟩ := Outcome.map_eq_returned hstep
        refine ⟨rfl, ?_⟩
        change Obs.invocations (client.trace ++ [.connected]) = Obs.invocations client.trace
        rw [Obs.invocations_append]
        exact List.append_nil _
    | onClose =>
      obtain ⟨core, -, rfl⟩ := Outcome.map_eq_returned hstep
      exact ⟨rfl, rfl⟩
    | onRead nread base =>
      have hnread : ¬ 0 < nread := fun hnread ↦ by
        rw [received?_onRead hnread] at hreceived
        cases hreceived
      simp only [handle, onRead] at hstep
      split_ifs at hstep
      · cases hstep
        exact ⟨rfl, rfl⟩
      · cases hstep
        exact ⟨rfl, rfl⟩
      · omega
    | start | stop | call | onWrite | onHeartbeatTimer | transmit | elapse =>
      cases hstep
      exact ⟨rfl, rfl⟩
  · cases hstep

/-- With a chunk the handlers are called for the packets that can be taken out of the buffer. -/
theorem step_of_received?_some {base : Bytes} (hreceived : event.received? = some base)
    (hstep : step app client event = some next) :
    next.buffer = (wireDecoder app.host).kept (client.buffer ++ base) ∧
      Obs.invocations next.trace = Obs.invocations client.trace ++
        app.invocations ((wireDecoder app.host).parse (client.buffer ++ base)).values := by
  obtain ⟨nread, hnread, rfl⟩ := received?_eq_some hreceived
  unfold step at hstep
  split at hstep
  · rw [Outcome.returned?_eq_some] at hstep
    simp only [handle, onRead] at hstep
    rw [if_neg (by omega), if_neg (by omega)] at hstep
    obtain ⟨hbuffer, htrace⟩ := (receiveLoop app.host app.program).append_returned hstep
    have hdecode : (wireDecoder app.host).decode [base] client.buffer =
        (((wireDecoder app.host).parse (client.buffer ++ base)).values,
          (wireDecoder app.host).kept (client.buffer ++ base)) := by
      simp [FrameDecoder.decode]
    rw [hdecode] at hbuffer htrace
    refine ⟨hbuffer, ?_⟩
    have hreceivedTrace : Obs.invocations (client.trace ++ [.received base]) =
        Obs.invocations client.trace := by
      rw [Obs.invocations_append]
      exact List.append_nil _
    rw [htrace, Obs.invocations_append, hreceivedTrace]
    exact congrArg _ (app.invocations_emits _)
  · cases hstep

/-! ## What it writes -/

/-- The call asks for no other connection. -/
def Call.Stays : Call → Prop
  | .connect _ _ => False
  | .disconnect | .send _ _ => True

/-- No handler asks for another connection. -/
structure Application.Stays (app : Application W X K) : Prop where
  packet : ∀ handler packet core, ∀ call ∈ (app.onPacket handler packet core).calls, call.Stays
  connect : ∀ handler ∈ app.connectHandler, ∀ core, ∀ call ∈ (handler core).calls, call.Stays
  disconnect : ∀ handler ∈ app.disconnectHandler, ∀ core, ∀ call ∈ (handler core).calls, call.Stays

namespace Sending

variable {start : UvTcp} {core after : Core W}

theorem call (hsending : Sending app.host start core) {call : Call} (hstays : call.Stays) :
    Sending app.host start (call.run app.host core) := by
  cases call with
  | connect initResult connectResult => exact hstays.elim
  | disconnect => exact hsending.disconnect
  | send packet write => exact hsending.send packet write

theorem react (hsending : Sending app.host start core) {reaction : Reaction W}
    (hstays : ∀ call ∈ reaction.calls, call.Stays)
    (hreact : app.react reaction core = .returned after) : Sending app.host start after := by
  have hcalls (calls : List Call) (hstays : ∀ call ∈ calls, call.Stays) {core : Core W}
      (hsending : Sending app.host start core) :
      Sending app.host start (calls.foldl (Call.run app.host) core) := by
    induction calls generalizing core with
    | nil => exact hsending
    | cons call calls ih =>
      obtain ⟨hfirst, hlater⟩ := List.forall_mem_cons.mp hstays
      exact ih hlater (hsending.call hfirst)
  unfold Application.react at hreact
  split at hreact
  · cases hreact
    exact (hcalls reaction.calls hstays hsending).congr rfl rfl
  · cases hreact

theorem callHandler (hsending : Sending app.host start core)
    {handler : Option (Core W → Reaction W)}
    (hstays : ∀ called ∈ handler, ∀ core, ∀ call ∈ (called core).calls, call.Stays)
    (hcalled : app.callHandler handler core = .returned after) :
    Sending app.host start after := by
  cases handler with
  | none =>
    cases hcalled
    exact hsending
  | some handler => exact hsending.react (hstays handler rfl core) hcalled

/-- A whole step, handlers included, writes on the connection it began on. -/
theorem step (hsending : Sending app.host start client.state) (hstays : app.Stays)
    (hrestarts : ¬ event.Restarts client.state) (hqueue : client.state.socket.writer.queue = [])
    (hstep : Client.step app client event = some next) :
    Sending app.host start next.state := by
  have heffect := hsending.effect (due_of_step hstep) hrestarts hqueue
  unfold Client.step at hstep
  split at hstep
  · rw [Outcome.returned?_eq_some] at hstep
    cases event with
    | onConnect status readResult =>
      simp only [handle, Client.onConnect] at hstep
      simp only [Event.effect] at heffect
      split_ifs at hstep heffect
      · cases hstep
        exact heffect
      · cases hstep
        exact heffect
      · obtain ⟨core, hcalled, rfl⟩ := Outcome.map_eq_returned hstep
        exact heffect.callHandler hstays.connect hcalled
    | onClose =>
      obtain ⟨core, hcalled, rfl⟩ := Outcome.map_eq_returned hstep
      exact heffect.callHandler hstays.disconnect hcalled
    | onRead nread base =>
      simp only [handle, Client.onRead] at hstep
      simp only [Event.effect] at heffect
      split_ifs at hstep heffect
      · cases hstep
        exact heffect
      · cases hstep
        exact heffect
      · apply (receiveLoop app.host app.program).append_preserves (fun hholds ↦ hholds) _ _ hstep
        · exact fun hholds hinvoke ↦ hholds.react (hstays.packet _ _ _) hinvoke
        · exact heffect
    | start | stop | call | onWrite | onHeartbeatTimer | transmit | elapse =>
      cases hstep
      exact heffect
  · cases hstep

end Sending

end Client

end LibuvNet
