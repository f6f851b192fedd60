import LibuvNet.Endpoint.Transfer
import LibuvNet.Foundation.Routing
import LibuvNet.Session.Life

/-!
# Delivery after a close

`send` looks at `is_connected_` or `is_closing_` before it does anything; the receive loops look at
neither.  A handler that closes its endpoint returns into a loop that goes on with the frames
behind.  So nothing is delivered after a close exactly as long as no packet that has a handler is
found behind the packet whose handler closes the endpoint.

Both loops hand packets over by a `Router`.  The account it keeps of a close is part of the state
user code runs on, so the loops themselves are the ones of the source.
-/

namespace LibuvNet

open Foundation

variable {σ V H : Type*}

/-- The endpoint without the account. -/
def Endpoint.forget (endpoint : Endpoint (Watched σ Packet) H) : Endpoint σ H :=
  ⟨endpoint.state.state, endpoint.trace⟩

namespace Program

variable (program : Program σ V H) (closes : H → Packet → σ → Bool)

/-- The program with an account of the handlers that closed the endpoint. -/
def watch : Program (Watched σ Packet) V H where
  interceptorManager := program.interceptorManager
  packetHandlers := program.packetHandlers
  defaultPacketHandler := program.defaultPacketHandler
  heartbeat := Watched.map program.heartbeat
  invoke := Watched.invoke closes program.invoke

variable {closes} in
/-- The account does not disturb user code. -/
theorem watch_call (handler : Option H) (packet : Packet)
    (endpoint : Endpoint (Watched σ Packet) H) :
    program.call handler packet endpoint.forget =
      ((program.watch closes).call handler packet endpoint).map Endpoint.forget := by
  cases handler with
  | none => rfl
  | some handler =>
    have hinvoke := endpoint.state.invoke_state closes program.invoke handler packet
    change (program.invoke handler packet endpoint.state.state).map _ =
      ((Watched.invoke closes program.invoke handler packet endpoint.state).map _).map _
    rw [← hinvoke]
    cases endpoint.state.invoke closes program.invoke handler packet with
    | returned next => rfl
    | threw error next => rfl

end Program

/-! ## The routers of the two endpoints -/

namespace Client

variable (program : Program σ V H)

/-- How a client hands packets over. -/
def router : Router Exn σ Packet H where
  route := program.intercept
  pass _ state := state
  invoke := program.invoke

theorem dispatch_router (packet : Packet) (endpoint : Endpoint σ H) :
    (dispatch program packet endpoint).map Endpoint.state =
      (router program).dispatch packet endpoint.state := by
  cases hroute : program.intercept packet with
  | error error =>
    rw [Router.dispatch_of_error (show (router program).route packet = _ from hroute), dispatch_eq,
      hroute]
    rfl
  | ok found =>
    rw [dispatch_eq, hroute]
    cases found with
    | none =>
      rw [Router.dispatch_of_none (show (router program).route packet = _ from hroute)]
      rfl
    | some handler =>
      rw [Router.dispatch_of_some (show (router program).route packet = _ from hroute)]
      change ((program.invoke handler packet endpoint.state).map _).map _ =
        program.invoke handler packet endpoint.state
      cases program.invoke handler packet endpoint.state with
      | returned next => rfl
      | threw error next => rfl

theorem dispatch_forget {closes : H → Packet → σ → Bool} (packet : Packet)
    (endpoint : Endpoint (Watched σ Packet) H) :
    dispatch program packet endpoint.forget =
      (dispatch (program.watch closes) packet endpoint).map Endpoint.forget := by
  have hintercept : (program.watch closes).intercept packet = program.intercept packet := rfl
  rw [dispatch_eq, dispatch_eq, hintercept]
  cases program.intercept packet with
  | error error => rfl
  | ok handler => exact program.watch_call handler packet (endpoint.observe (.decoded packet))

end Client

namespace Session

variable (program : Program σ V H)

/-- How a session hands packets over. -/
def router : Router Exn σ Packet H where
  route packet := if packet.type = .heartbeat then .ok none else program.intercept packet
  pass packet state := if packet.type = .heartbeat then program.heartbeat state else state
  invoke := program.invoke

theorem handlePacket_router (packet : Packet) (endpoint : Endpoint σ H) :
    (handlePacket program packet endpoint).map Endpoint.state =
      (router program).dispatch packet endpoint.state := by
  by_cases htype : packet.type = .heartbeat
  · have hroute : (router program).route packet = .ok none := if_pos htype
    rw [handlePacket_of_heartbeat program htype, Router.dispatch_of_none hroute]
    exact congrArg Outcome.returned (if_pos htype).symm
  · have hroute : (router program).route packet = (Client.router program).route packet :=
      if_neg htype
    have hpass : (router program).pass packet = (Client.router program).pass packet := by
      funext state
      exact if_neg htype
    rw [handlePacket_of_ne program htype, Client.dispatch_router, Router.dispatch, Router.dispatch,
      hroute, hpass]
    rfl

theorem handlePacket_forget {closes : H → Packet → σ → Bool} (packet : Packet)
    (endpoint : Endpoint (Watched σ Packet) H) :
    handlePacket program packet endpoint.forget =
      (handlePacket (program.watch closes) packet endpoint).map Endpoint.forget := by
  by_cases htype : packet.type = .heartbeat
  · rw [handlePacket_of_heartbeat _ htype, handlePacket_of_heartbeat _ htype]
    rfl
  · rw [handlePacket_of_ne _ htype, handlePacket_of_ne _ htype]
    exact Client.dispatch_forget program packet endpoint

/-- Keeping an account of the program is keeping an account of its router. -/
theorem router_watch (closes : H → Packet → σ → Bool) :
    router (program.watch closes) = (router program).watch closes := by
  have hpass : (router (program.watch closes)).pass = ((router program).watch closes).pass := by
    funext packet watched
    change (if packet.type = .heartbeat then watched.map program.heartbeat else watched) =
      watched.map fun state ↦ if packet.type = .heartbeat then program.heartbeat state else state
    by_cases htype : packet.type = .heartbeat
    · simp only [if_pos htype]
    · simp only [if_neg htype]
      rfl
  exact congrArg (fun pass ↦ Router.mk _ pass _) hpass

end Session

/-! ## Calls of a receive loop -/

namespace Receiver

/-- The receiver without the account. -/
def forget (receiver : Receiver (Watched σ Packet) H) : Receiver σ H :=
  ⟨receiver.toEndpoint.forget, receiver.buffer⟩

/-- The receiver with an account that starts now. -/
def watched (receiver : Receiver σ H) : Receiver (Watched σ Packet) H :=
  ⟨⟨.start receiver.state, receiver.trace⟩, receiver.buffer⟩

/-- The packets that are complete once a chunk has arrived. -/
def complete (host : Host) (receiver : Receiver σ H) (chunk : Bytes) : List Packet :=
  ((wireDecoder host).parse (receiver.buffer ++ chunk)).values

end Receiver

namespace ReceiveLoop

variable {host : Host} {program : Program σ V H}

/-- One call, by somebody who catches what it throws. -/
def call (loop : ReceiveLoop host program) (receiver : Receiver σ H) (chunk : Bytes) :
    Option (Receiver σ H) :=
  some (loop.append chunk receiver).last

/-- However a call ends, it leaves the state that handing over the complete packets leaves. -/
theorem append_last_state (loop : ReceiveLoop host program) {router : Router Exn σ Packet H}
    (hrouter : ∀ packet endpoint, (loop.dispatch packet endpoint).map Endpoint.state =
      router.dispatch packet endpoint.state) (chunk : Bytes) (receiver : Receiver σ H) :
    (loop.append chunk receiver).last.state =
      (Outcome.forEach router.dispatch (receiver.complete host chunk) receiver.state).last := by
  have happend := loop.append_eq chunk (receiver.buffer, receiver.toEndpoint)
  have hdrain := (wireDecoder host).drain_last loop.dispatch (receiver.buffer ++ chunk)
    receiver.toEndpoint
  have hforEach := Outcome.forEach_map Endpoint.state
    (fun packet endpoint ↦ (hrouter packet endpoint).symm) (receiver.complete host chunk)
    receiver.toEndpoint
  calc (loop.append chunk receiver).last.state
      = ((wireDecoder host).drain loop.dispatch (receiver.buffer ++ chunk)
          receiver.toEndpoint).last.2.state := by
        change (loop.append chunk (.ofPair (receiver.buffer, receiver.toEndpoint))).last.state = _
        rw [happend, Outcome.last_map]
        rfl
    _ = (Outcome.forEach loop.dispatch (receiver.complete host chunk)
          receiver.toEndpoint).last.state := by rw [hdrain]; rfl
    _ = (Outcome.forEach router.dispatch (receiver.complete host chunk) receiver.state).last := by
        rw [hforEach, Outcome.last_map]

variable {closes : H → Packet → σ → Bool}

/-- The loop that keeps an account does what the loop does. -/
theorem append_forget (loop : ReceiveLoop host program)
    (watching : ReceiveLoop host (program.watch closes))
    (hdispatch : ∀ packet endpoint, loop.dispatch packet (Endpoint.forget endpoint) =
      (watching.dispatch packet endpoint).map Endpoint.forget)
    (chunk : Bytes) (receiver : Receiver (Watched σ Packet) H) :
    loop.append chunk receiver.forget = (watching.append chunk receiver).map Receiver.forget := by
  have hplain := loop.append_eq chunk (receiver.buffer, receiver.toEndpoint.forget)
  have hwatching := watching.append_eq chunk (receiver.buffer, receiver.toEndpoint)
  have hdrain := (wireDecoder host).drain_map watching.dispatch Endpoint.forget hdispatch
    (receiver.buffer ++ chunk) receiver.toEndpoint
  calc loop.append chunk receiver.forget
      = ((wireDecoder host).drain loop.dispatch (receiver.buffer ++ chunk)
          receiver.toEndpoint.forget).map .ofPair := hplain
    _ = (((wireDecoder host).drain watching.dispatch (receiver.buffer ++ chunk)
          receiver.toEndpoint).map .ofPair).map Receiver.forget := by
        rw [hdrain, Outcome.map_map, Outcome.map_map]
        rfl
    _ = (watching.append chunk receiver).map Receiver.forget :=
        congrArg (Outcome.map Receiver.forget) hwatching.symm

/-- No handler has been called behind the call of a handler that closed the endpoint. -/
def Punctual (receiver : Receiver (Watched σ Packet) H) : Prop :=
  receiver.state.late = []

instance (receiver : Receiver (Watched σ Packet) H) : Decidable (Punctual receiver) :=
  inferInstanceAs (Decidable (receiver.state.late = []))

/-- No handler is called after the call of a handler that closed the endpoint. -/
def StopsDelivery (watching : ReceiveLoop host (program.watch closes)) (chunks : List Bytes)
    (receiver : Receiver σ H) : Prop :=
  ∃ last, runFrom watching.call chunks receiver.watched = some last ∧ Punctual last

/-- In no call is a packet that has a handler complete behind a packet whose handler closes the
endpoint. -/
def ClosesLast (watching : ReceiveLoop host (program.watch closes))
    (router : Router Exn σ Packet H) (chunks : List Bytes) (receiver : Receiver σ H) : Prop :=
  Along watching.call
    (fun receiver chunk _ ↦ router.Quiet closes (receiver.complete host chunk) receiver.state)
    chunks receiver.watched

theorem stopsDelivery_iff (watching : ReceiveLoop host (program.watch closes))
    {router : Router Exn σ Packet H}
    (hrouter : ∀ packet endpoint, (watching.dispatch packet endpoint).map Endpoint.state =
      (router.watch closes).dispatch packet endpoint.state)
    (chunks : List Bytes) (receiver : Receiver σ H) :
    watching.StopsDelivery chunks receiver ↔ watching.ClosesLast router chunks receiver := by
  have hcall {receiver next : Receiver (Watched σ Packet) H} {chunk : Bytes}
      (hcalled : watching.call receiver chunk = some next) :
      next.state = (Outcome.forEach (router.watch closes).dispatch (receiver.complete host chunk)
        receiver.state).last := by
    rw [← Option.some.inj hcalled]
    exact watching.append_last_state hrouter chunk receiver
  have hquiet {receiver : Receiver (Watched σ Packet) H} {chunk : Bytes}
      {next : Receiver (Watched σ Packet) H} (hlate : Punctual receiver)
      (hcalled : watching.call receiver chunk = some next) :
      router.Quiet closes (receiver.complete host chunk) receiver.state ↔ Punctual next := by
    rw [Punctual, hcall hcalled]
    exact (Router.late_nil_iff_quiet hlate).symm
  have hstay {receiver : Receiver (Watched σ Packet) H} {chunk : Bytes}
      {next : Receiver (Watched σ Packet) H} (hlate : ¬ Punctual receiver)
      (hcalled : watching.call receiver chunk = some next) : ¬ Punctual next := by
    intro hnext
    have hgrows : receiver.state.late <+: next.state.late := by
      rw [hcall hcalled]
      exact Router.late_isPrefix (receiver.complete host chunk) receiver.state
    rw [hnext] at hgrows
    exact hlate (List.prefix_nil.mp hgrows)
  exact Along.exists_last_iff hquiet hstay rfl

end ReceiveLoop

/-! ## The handlers that close their endpoint -/

namespace Client.Application

variable {U : Type*} (app : Application U V H)

/-- The handler calls `Client::disconnect`. -/
def disconnects (handler : H) (packet : Packet) (core : Core U) : Bool :=
  .disconnect ∈ (app.onPacket handler packet core).calls

/-- The receive loop of the client, with an account of the calls of `disconnect`. -/
def watchingLoop : ReceiveLoop app.host (app.program.watch app.disconnects) :=
  receiveLoop app.host (app.program.watch app.disconnects)

theorem watchingLoop_router (packet : Packet) (endpoint : Endpoint (Watched (Core U) Packet) H) :
    (app.watchingLoop.dispatch packet endpoint).map Endpoint.state =
      ((router app.program).watch app.disconnects).dispatch packet endpoint.state :=
  dispatch_router (app.program.watch app.disconnects) packet endpoint

/-- Apart from the account it is `Client::append_to_buffer`. -/
theorem watchingLoop_forget (chunk : Bytes) (client : Receiver (Watched (Core U) Packet) H) :
    appendToBuffer app.host app.program chunk client.forget =
      (app.watchingLoop.append chunk client).map Receiver.forget :=
  (receiveLoop app.host app.program).append_forget app.watchingLoop
    (dispatch_forget app.program) chunk client

end Client.Application

namespace Session.Application

variable {U : Type*} (app : Application U V H)

/-- The handler calls `Session::close`. -/
def closes (handler : H) (packet : Packet) (life : Life U) : Bool :=
  .close ∈ (app.onPacket handler packet life).calls

/-- The receive loop of the session, with an account of the calls of `close`. -/
def watchingLoop : ReceiveLoop app.host (app.program.watch app.closes) :=
  receiveLoop app.host (app.program.watch app.closes)

theorem watchingLoop_router (packet : Packet) (endpoint : Endpoint (Watched (Life U) Packet) H) :
    (app.watchingLoop.dispatch packet endpoint).map Endpoint.state =
      ((router app.program).watch app.closes).dispatch packet endpoint.state := by
  rw [← router_watch]
  exact handlePacket_router (app.program.watch app.closes) packet endpoint

/-- Apart from the account it is `Session::append_to_buffer`. -/
theorem watchingLoop_forget (chunk : Bytes) (session : Receiver (Watched (Life U) Packet) H) :
    appendToBuffer app.host app.program chunk session.forget =
      (app.watchingLoop.append chunk session).map Receiver.forget :=
  (receiveLoop app.host app.program).append_forget app.watchingLoop
    (handlePacket_forget app.program) chunk session

end Session.Application

/-- **Delivery after a close.** Whatever arrives in whatever chunks, no handler is called once a
handler has called `disconnect` or `close` and returned, if and only if in no call a packet that
has a handler is complete behind one whose handler does so; for `Client` and `Session` alike. -/
theorem closing_stops_delivery_iff {U : Type*} (clientApp : Client.Application U V H)
    (sessionApp : Session.Application U V H) (chunks : List Bytes)
    (client : Receiver (Client.Core U) H) (session : Receiver (Session.Life U) H) :
    (clientApp.watchingLoop.StopsDelivery chunks client ↔
        clientApp.watchingLoop.ClosesLast (Client.router clientApp.program) chunks client) ∧
      (sessionApp.watchingLoop.StopsDelivery chunks session ↔
        sessionApp.watchingLoop.ClosesLast (Session.router sessionApp.program) chunks session) :=
  ⟨clientApp.watchingLoop.stopsDelivery_iff clientApp.watchingLoop_router chunks client,
    sessionApp.watchingLoop.stopsDelivery_iff sessionApp.watchingLoop_router chunks session⟩

/-- A client whose handler disconnects it. -/
def hangingUp : Client.Application Unit Unit Unit :=
  { Client.quiet with onPacket := fun _ _ _ ↦ ⟨[.disconnect], (), none⟩ }

/-- A session whose handler closes it. -/
def closingDown : Session.Application Unit Unit Unit :=
  { Session.quiet with onPacket := fun _ _ _ ↦ ⟨[.close], (), none⟩ }

/-- Two text packets in one piece. -/
def twoFrames : Bytes :=
  [1, 0, 0, 0, 1, 0, 0, 0, 7, 0, 0, 0, 104] ++ [1, 0, 0, 0, 1, 0, 0, 0, 8, 0, 0, 0, 105]

/-- The second of two frames is delivered although the handler of the first closed the endpoint. -/
theorem delivered_after_close :
    ¬ hangingUp.watchingLoop.StopsDelivery [twoFrames] connectedClient ∧
      ¬ closingDown.watchingLoop.StopsDelivery [twoFrames] (.start (.accepted 0 ())) := by
  constructor
  · rintro ⟨last, hrun, hlast⟩
    cases hrun
    exact absurd hlast (by decide)
  · rintro ⟨last, hrun, hlast⟩
    cases hrun
    exact absurd hlast (by decide)

end LibuvNet
