import LibuvNet.Endpoint.Receive

/-!
# Client and Session as one receiver

The two receive loops are written differently and dispatch differently.  With the same tables and
the same chunks they nevertheless hold the same bytes, and apart from the `HEARTBEAT` packets,
which only the client hands to its handlers, they call the same handlers for the same packets.
-/

namespace LibuvNet

open Foundation

variable {σ τ V H : Type*}

/-- The same interceptors, packet handlers and default handler are installed. -/
structure Program.SameTables (client : Program σ V H) (session : Program τ V H) : Prop where
  interceptorManager : client.interceptorManager = session.interceptorManager
  packetHandlers : client.packetHandlers = session.packetHandlers
  defaultPacketHandler : client.defaultPacketHandler = session.defaultPacketHandler

namespace Program.SameTables

variable {client : Program σ V H} {session : Program τ V H}

theorem intercept_eq (htables : client.SameTables session) (packet : Packet) :
    client.intercept packet = session.intercept packet := by
  have hfind (type : PacketType) : client.findHandler type = session.findHandler type := by
    simp only [Program.findHandler, htables.packetHandlers, htables.defaultPacketHandler]
  simp only [Program.intercept, htables.interceptorManager, hfind]

theorem invoked_eq (htables : client.SameTables session) (packet : Packet) :
    client.invoked packet = session.invoked packet := by
  simp only [Program.invoked, htables.intercept_eq packet]

end Program.SameTables

namespace Obs

/-- The invocations with a packet that is not a heartbeat. -/
def withoutHeartbeats (calls : List (H × Packet)) : List (H × Packet) :=
  calls.filter fun call ↦ call.2.type ≠ .heartbeat

@[simp]
theorem withoutHeartbeats_append (first second : List (H × Packet)) :
    withoutHeartbeats (first ++ second) = withoutHeartbeats first ++ withoutHeartbeats second :=
  List.filter_append ..

/-- One packet adds the same invocations on both sides, or is a heartbeat. -/
theorem invocations_emits {client : Program σ V H} {session : Program τ V H}
    (htables : client.SameTables session) (packet : Packet) :
    withoutHeartbeats (invocations (Client.emits client packet)) =
      invocations (Session.emits session packet) := by
  rw [Client.invocations_emits, htables.invoked_eq packet]
  by_cases htype : packet.type = .heartbeat
  · rw [Session.emits, if_pos htype]
    unfold Program.invoked
    split <;> simp [invocations, withoutHeartbeats, htype]
  · rw [Session.emits_of_ne session htype, Client.invocations_emits]
    unfold Program.invoked
    split <;> simp [invocations, withoutHeartbeats, htype]

theorem invocations_flatMap_emits {client : Program σ V H} {session : Program τ V H}
    (htables : client.SameTables session) (packets : List Packet) :
    withoutHeartbeats (invocations (packets.flatMap (Client.emits client))) =
      invocations (packets.flatMap (Session.emits session)) := by
  induction packets with
  | nil => rfl
  | cons packet packets ih =>
    calc withoutHeartbeats (invocations ((packet :: packets).flatMap (Client.emits client)))
        = withoutHeartbeats (invocations (Client.emits client packet)) ++
            withoutHeartbeats (invocations (packets.flatMap (Client.emits client))) := by
          rw [List.flatMap_cons, invocations_append, withoutHeartbeats_append]
      _ = invocations (Session.emits session packet) ++
            invocations (packets.flatMap (Session.emits session)) := by
          rw [invocations_emits htables, ih]
      _ = invocations ((packet :: packets).flatMap (Session.emits session)) := by
          rw [List.flatMap_cons, invocations_append]

end Obs

/-- **One receiver.** Fed the same chunks from empty buffers, a client and a session with the same
tables end with the same buffer, and their handler invocations agree once the heartbeats of the
client are removed. -/
theorem client_session_equivalent (host : Host) (client : Program σ V H)
    (session : Program τ V H) (htables : client.SameTables session)
    (hclient : ∀ packet, client.Returns packet) (hsession : ∀ packet, session.Returns packet)
    (state : σ) (state' : τ) (chunks : List Bytes) :
    ∃ first second, Client.feed host client chunks (.start state) = .returned first ∧
      Session.feed host session chunks (.start state') = .returned second ∧
      first.buffer = second.buffer ∧
      Obs.withoutHeartbeats (Obs.invocations first.trace) = Obs.invocations second.trace := by
  obtain ⟨first, hfirst⟩ : ∃ next,
      Client.feed host client chunks (.start state) = .returned next :=
    (Client.receiveLoop host client).feed_returns fun packet _ ↦ hclient packet
  obtain ⟨second, hsecond⟩ : ∃ next,
      Session.feed host session chunks (.start state') = .returned next :=
    (Session.receiveLoop host session).feed_returns fun packet _ ↦ hsession packet
  obtain ⟨hbuffer, htrace⟩ := (Client.receiveLoop host client).feed_returned hfirst
  obtain ⟨hbuffer', htrace'⟩ := (Session.receiveLoop host session).feed_returned hsecond
  refine ⟨first, second, hfirst, hsecond, hbuffer.trans hbuffer'.symm, ?_⟩
  rw [htrace, htrace']
  exact Obs.invocations_flatMap_emits htables _

namespace Program

/-- An interceptor that finds a value in JSON payloads of one byte only. -/
def singleByte : Interceptor UInt8 where
  serialize data := .ok data.toList
  deserialize data := .ok (if data.length = 1 then data.head? else none)
  getType := .json

/-- A program with that interceptor, handlers for three types and a default handler, all of which
count their calls. -/
def registered : Program ℕ UInt8 String where
  interceptorManager := InterceptorManager.empty.addInterceptor singleByte
  packetHandlers type :=
    if type = .text then some "text"
    else if type = .heartbeat then some "heartbeat"
    else if type = .json then some "json"
    else none
  defaultPacketHandler := some "default"
  heartbeat count := count
  invoke _ _ count := .returned (count + 1)

theorem registered_returns (packet : Packet) : registered.Returns packet := by
  have hinvoke (handler : Option String) : ∀ found ∈ handler, ∀ count, ∃ next,
      registered.invoke found packet count = .returned next :=
    fun _ _ count ↦ ⟨count + 1, rfl⟩
  by_cases htype : packet.type = .json
  · have hinterceptor :
        registered.interceptorManager.getInterceptor packet.type = some singleByte :=
      htype ▸ InterceptorManager.getInterceptor_addInterceptor .empty singleByte
    exact ⟨_, by rw [intercept, hinterceptor]; rfl, hinvoke _⟩
  · have hnone : registered.interceptorManager.getInterceptor packet.type = none :=
      Function.update_of_ne htype _ _
    exact ⟨_, by rw [intercept, hnone], hinvoke _⟩

end Program

/-- A text, a heartbeat, two JSON packets of which the interceptor takes the first, a packet of no
known type and the beginning of another, cut within headers and before payloads. -/
def mixedChunks : List Bytes :=
  [[1, 0, 0, 0, 1, 0, 0, 0, 0, 0, 0, 0, 104, 1, 4],
    [0, 0, 0, 0, 0, 0, 0, 0, 0, 0, 1, 5, 0, 0, 1],
    [0, 0, 0, 0, 0, 0, 0, 7, 1, 5, 0, 0, 0, 0, 0, 0, 0, 0, 0, 0],
    [1, 9, 0, 0, 1, 0, 0, 0, 0, 0, 0, 0],
    [33, 1]]

theorem client_session_equivalent_registered :
    ∃ first second,
      Client.feed (.wide .little) Program.registered mixedChunks (.start 0) = .returned first ∧
      Session.feed (.wide .little) Program.registered mixedChunks (.start 0) = .returned second ∧
      (first.buffer = second.buffer ∧
        Obs.withoutHeartbeats (Obs.invocations first.trace) = Obs.invocations second.trace) ∧
      first.buffer = [1] ∧
      Obs.invocations first.trace =
        [("text", ⟨.text, [104], 0⟩), ("heartbeat", ⟨.heartbeat, [], 0⟩),
          ("json", ⟨.json, [7], 0⟩), ("default", ⟨⟨9⟩, [33], 0⟩)] ∧
      Obs.invocations second.trace =
        [("text", ⟨.text, [104], 0⟩), ("json", ⟨.json, [7], 0⟩), ("default", ⟨⟨9⟩, [33], 0⟩)] := by
  obtain ⟨first, second, hfirst, hsecond, hequivalent⟩ :=
    client_session_equivalent (.wide .little) Program.registered Program.registered ⟨rfl, rfl, rfl⟩
      Program.registered_returns Program.registered_returns 0 0 mixedChunks
  refine ⟨first, second, hfirst, hsecond, hequivalent, ?_⟩
  cases hfirst
  cases hsecond
  exact ⟨rfl, rfl, rfl⟩

end LibuvNet
