import LibuvNet.Client.Lifecycle

/-!
# The connections of one client

A trace falls into connections at its `connected` observations.  Isolation says that during each
of them the handlers are called exactly as if its bytes had been received into an empty buffer.
`buffer_` is a member of the client that nothing clears when a connection ends or begins, so the
first bytes of a connection are read behind whatever the previous one left unfinished: isolation
holds in every run in which no connection begins with bytes in the buffer.
-/

namespace LibuvNet

open Foundation

variable {U V H : Type*}

namespace Obs

/-- Add observations to the newest connection, which stands first. -/
def extend (later : List (Obs H)) : List (List (Obs H)) → List (List (Obs H))
  | [] => []
  | current :: earlier => (current ++ later) :: earlier

/-- A connection begins, or an observation belongs to the newest one. -/
def record (connections : List (List (Obs H))) : Obs H → List (List (Obs H))
  | connected => [] :: connections
  | obs => extend [obs] connections

/-- The observations of each connection of a trace, newest connection first. -/
def connections (trace : List (Obs H)) : List (List (Obs H)) :=
  trace.foldl record []

/-- The chunks received in a trace. -/
def chunks (trace : List (Obs H)) : List Bytes :=
  trace.filterMap fun
    | received chunk => some chunk
    | _ => none

@[simp]
theorem chunks_append (first second : List (Obs H)) :
    chunks (first ++ second) = chunks first ++ chunks second :=
  List.filterMap_append

@[simp]
theorem connections_connected (trace : List (Obs H)) :
    connections (trace ++ [connected]) = [] :: connections trace := by
  unfold connections
  rw [List.foldl_append]
  rfl

theorem extend_extend (first second : List (Obs H)) (connections : List (List (Obs H))) :
    extend second (extend first connections) = extend (first ++ second) connections := by
  cases connections with
  | nil => rfl
  | cons current earlier => rw [extend, extend, extend, List.append_assoc]

/-- Other observations belong to the newest connection. -/
theorem connections_append {trace later : List (Obs H)} (hlater : connected ∉ later) :
    connections (trace ++ later) = extend later (connections trace) := by
  induction later generalizing trace with
  | nil =>
    rw [List.append_nil]
    cases connections trace with
    | nil => rfl
    | cons current earlier => rw [extend, List.append_nil]
  | cons obs later ih =>
    obtain ⟨hobs, hrest⟩ := not_or.mp (List.mem_cons.not.mp hlater)
    have hsnoc : connections (trace ++ [obs]) = extend [obs] (connections trace) := by
      unfold connections
      rw [List.foldl_append]
      cases obs with
      | connected => exact absurd rfl hobs
      | received chunk => rfl
      | decoded packet => rfl
      | invoked handler packet => rfl
    calc connections (trace ++ obs :: later)
        = connections (trace ++ [obs] ++ later) := by rw [List.append_assoc, List.singleton_append]
      _ = extend later (extend [obs] (connections trace)) := by rw [ih hrest, hsnoc]
      _ = extend (obs :: later) (connections trace) := by
          rw [extend_extend, List.singleton_append]

end Obs

namespace Client

variable (app : Application U V H)

/-- What the handlers are to be called with when the chunks arrive in an empty buffer. -/
def delivery (chunks : List Bytes) : List (H × Packet) :=
  Obs.invocations (((wireDecoder app.host).decode chunks []).1.flatMap (emits app.program))

/-- During every connection the handlers are called as for its own bytes alone. -/
def Isolated (trace : List (Obs H)) : Prop :=
  ∀ connection ∈ Obs.connections trace,
    Obs.invocations connection = delivery app (Obs.chunks connection)

instance [DecidableEq H] (trace : List (Obs H)) : Decidable (Isolated app trace) := by
  unfold Isolated
  infer_instance

/-- Isolation, and the newest connection alone has filled the buffer. -/
structure Separate (client : Receiver (Core U) H) : Prop where
  isolated : Isolated app client.trace
  buffer : ∀ current ∈ (Obs.connections client.trace).head?,
    ((wireDecoder app.host).decode (Obs.chunks current) []).2 = client.buffer

/-- The event does not begin a connection while bytes are in the buffer. -/
def BeginsEmpty (client : Receiver (Core U) H) (event : Event) (_ : Receiver (Core U) H) : Prop :=
  match event with
  | .onConnect status readResult => 0 ≤ status → readResult = 0 → client.buffer = []
  | _ => True

instance (client : Receiver (Core U) H) (event : Event) (next : Receiver (Core U) H) :
    Decidable (BeginsEmpty client event next) :=
  match event with
  | .onConnect status readResult =>
    inferInstanceAs (Decidable (0 ≤ status → readResult = 0 → client.buffer = []))
  | .start | .stop | .call _ | .onClose | .onRead _ _ | .onWrite _ | .onHeartbeatTimer _
  | .transmit _ | .elapse _ => isTrue trivial

variable {app}

/-- What a step can do to the trace and to the buffer. -/
theorem step_cases {client next : Receiver (Core U) H} {event : Event}
    (hstep : step app client event = some next) :
    (next.trace = client.trace ∧ next.buffer = client.buffer) ∨
    (∃ status, event = .onConnect status 0 ∧ 0 ≤ status ∧
      next.trace = client.trace ++ [.connected] ∧ next.buffer = client.buffer) ∨
    (∃ base, appendToBuffer app.host app.program base
      { client with trace := client.trace ++ [.received base] } = .returned next) := by
  unfold step at hstep
  split at hstep
  · rw [Outcome.returned?_eq_some] at hstep
    cases event with
    | start => cases hstep; exact .inl ⟨rfl, rfl⟩
    | stop => cases hstep; exact .inl ⟨rfl, rfl⟩
    | call call => cases hstep; exact .inl ⟨rfl, rfl⟩
    | onWrite status => cases hstep; exact .inl ⟨rfl, rfl⟩
    | onHeartbeatTimer write => cases hstep; exact .inl ⟨rfl, rfl⟩
    | transmit count => cases hstep; exact .inl ⟨rfl, rfl⟩
    | elapse milliseconds => cases hstep; exact .inl ⟨rfl, rfl⟩
    | onClose =>
      obtain ⟨core, -, rfl⟩ := Outcome.map_eq_returned hstep
      exact .inl ⟨rfl, rfl⟩
    | onRead nread base =>
      simp only [handle, onRead] at hstep
      split_ifs at hstep
      · cases hstep; exact .inl ⟨rfl, rfl⟩
      · cases hstep; exact .inl ⟨rfl, rfl⟩
      · exact .inr (.inr ⟨base, hstep⟩)
    | onConnect status readResult =>
      simp only [handle, onConnect] at hstep
      split_ifs at hstep with hstatus hread
      · cases hstep; exact .inl ⟨rfl, rfl⟩
      · cases hstep; exact .inl ⟨rfl, rfl⟩
      · obtain ⟨core, -, rfl⟩ := Outcome.map_eq_returned hstep
        rw [not_not] at hread
        exact .inr (.inl ⟨status, by rw [hread], not_lt.mp hstatus, rfl, rfl⟩)
  · cases hstep

theorem connected_not_mem_emits (program : Program (Core U) V H) (packets : List Packet) :
    Obs.connected ∉ packets.flatMap (emits program) := by
  rw [List.mem_flatMap]
  rintro ⟨packet, -, hemits⟩
  rcases List.mem_cons.mp hemits with hdecoded | hinvoked
  · cases hdecoded
  · unfold Program.invoked at hinvoked
    split at hinvoked
    · cases List.mem_singleton.mp hinvoked
    · cases hinvoked

theorem chunks_emits (program : Program (Core U) V H) (packets : List Packet) :
    Obs.chunks (packets.flatMap (emits program)) = [] := by
  induction packets with
  | nil => rfl
  | cons packet packets ih =>
    rw [List.flatMap_cons, Obs.chunks_append, ih, List.append_nil]
    change Obs.chunks (program.invoked packet) = []
    unfold Program.invoked
    split <;> rfl

/-- Receiving a chunk delivers what its connection alone calls for, if that is so far the case. -/
theorem Separate.received {client next : Receiver (Core U) H} {base : Bytes}
    (hseparate : Separate app client)
    (happend : appendToBuffer app.host app.program base
      { client with trace := client.trace ++ [.received base] } = .returned next) :
    Separate app next := by
  have hnext : next.buffer = ((wireDecoder app.host).decode [base] client.buffer).2 ∧
      next.trace = (client.trace ++ [.received base]) ++
        ((wireDecoder app.host).decode [base] client.buffer).1.flatMap (emits app.program) :=
    (receiveLoop app.host app.program).append_returned happend
  obtain ⟨hbuffer, htrace⟩ := hnext
  set delivered := ((wireDecoder app.host).decode [base] client.buffer).1.flatMap
    (emits app.program) with hdelivered
  have hconnections : Obs.connections next.trace =
      Obs.extend (.received base :: delivered) (Obs.connections client.trace) := by
    rw [htrace, List.append_assoc, List.singleton_append, Obs.connections_append]
    rw [List.mem_cons, not_or]
    exact ⟨nofun, connected_not_mem_emits _ _⟩
  have hchunks : Obs.chunks (.received base :: delivered) = [base] := by
    change base :: Obs.chunks delivered = [base]
    rw [hdelivered, chunks_emits]
  obtain ⟨hisolated, hcurrent⟩ := hseparate
  unfold Isolated at hisolated
  cases hsplit : Obs.connections client.trace with
  | nil =>
    rw [hsplit] at hconnections
    constructor
    · rw [Isolated, hconnections]
      exact nofun
    · rw [hconnections]
      exact nofun
  | cons current earlier =>
    rw [hsplit] at hconnections hisolated hcurrent
    have hheld := hcurrent current rfl
    have hdecode := (wireDecoder app.host).decode_append (Obs.chunks current) [base] []
    rw [hheld] at hdecode
    constructor
    · rw [Isolated, hconnections, Obs.extend, List.forall_mem_cons]
      refine ⟨?_, (List.forall_mem_cons.mp hisolated).2⟩
      calc Obs.invocations (current ++ .received base :: delivered)
          = Obs.invocations current ++ Obs.invocations delivered := Obs.invocations_append ..
        _ = delivery app (Obs.chunks current) ++ Obs.invocations delivered := by
            rw [(List.forall_mem_cons.mp hisolated).1]
        _ = delivery app (Obs.chunks current ++ [base]) := by
            rw [delivery, delivery, hdecode, List.flatMap_append, Obs.invocations_append]
        _ = delivery app (Obs.chunks (current ++ .received base :: delivered)) := by
            rw [Obs.chunks_append, hchunks]
    · rw [hconnections]
      rintro _ ⟨⟩
      rw [Obs.chunks_append, hchunks, hdecode, hbuffer]

theorem Separate.step {client next : Receiver (Core U) H} {event : Event}
    (hseparate : Separate app client) (hstep : step app client event = some next)
    (hbegins : BeginsEmpty client event next) : Separate app next := by
  rcases step_cases hstep with ⟨htrace, hbuffer⟩ | ⟨status, rfl, hstatus, htrace, hbuffer⟩ |
    ⟨base, happend⟩
  · constructor
    · rw [Isolated, htrace]
      exact hseparate.isolated
    · rw [htrace, hbuffer]
      exact hseparate.buffer
  · have hempty : client.buffer = [] := hbegins hstatus rfl
    constructor
    · rw [Isolated, htrace, Obs.connections_connected, List.forall_mem_cons]
      exact ⟨rfl, hseparate.isolated⟩
    · rw [htrace, hbuffer, hempty, Obs.connections_connected]
      rintro _ ⟨⟩
      rfl
  · exact hseparate.received happend

/-- **Isolation of connections.** In every run of a new client in which no connection begins with
bytes in the buffer, every connection is delivered as its own bytes alone call for. -/
theorem connections_isolated (app : Application U V H) (active closing : Bool) (memory : U)
    (events : List Event)
    (hbegins : Along (Client.step app) BeginsEmpty events
      (.start (.initial active closing memory)))
    (last : Receiver (Core U) H)
    (hrun : runFrom (Client.step app) events (.start (.initial active closing memory)) =
      some last) :
    Isolated app last.trace := by
  have hstart : Separate app (.start (.initial active closing memory)) :=
    ⟨nofun, nofun⟩
  exact (hbegins.invariant Separate.step hstart hrun).isolated

/-- A connection that receives these chunks and then the end of the stream. -/
def connectionEvents (chunks : List Bytes) : List Event :=
  [.call (.connect 0 0), .onConnect 0 0] ++
    chunks.map (fun chunk ↦ .onRead chunk.length chunk) ++ [.onRead (-4095) [], .onClose]

/-- The frame of a text packet of two bytes. -/
def helloFrame : Bytes := [1, 0, 0, 255, 2, 0, 0, 0, 7, 0, 0, 0, 104, 105]

theorem connections_isolated_whole :
    ∃ last, runFrom (Client.step quiet)
        (.start :: connectionEvents [helloFrame] ++ connectionEvents [helloFrame])
        (.start (.initial false false ())) = some last ∧ Isolated quiet last.trace :=
  ⟨_, rfl, connections_isolated quiet false false ()
    (.start :: connectionEvents [helloFrame] ++ connectionEvents [helloFrame]) (by decide) _ rfl⟩

/-- One byte left over from the first connection hides the frame of the second. -/
theorem connection_not_isolated :
    ∃ last, runFrom (Client.step quiet)
        (.start :: connectionEvents [[1]] ++ connectionEvents [helloFrame])
        (.start (.initial false false ())) = some last ∧ ¬ Isolated quiet last.trace :=
  ⟨_, rfl, by decide⟩

end Client

end LibuvNet
