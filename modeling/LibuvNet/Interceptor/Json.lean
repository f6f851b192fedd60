import LibuvNet.Endpoint.Receive

/-!
# JSON frames and exceptions

`JsonInterceptor` over the parts of the JSON library it calls.  `parse` ends in one of three ways:
a value, a `parse_error`, or an `out_of_range` for a number no `double` can hold.  The interceptor
catches the second only.  The third leaves it, and nothing between it and the libuv callback
catches it either: a JSON frame is processed like any other unless its payload is out of range.
-/

namespace LibuvNet

open Foundation

/-- How `nlohmann::json::parse` ends. -/
inductive ParseResult (J : Type*) where
  | value (json : J)
  | parseError
  | outOfRange
  deriving DecidableEq

/-- The calls of `nlohmann::json` the library makes; `dump` throws on strings that are not
UTF-8. -/
structure JsonLibrary (J : Type*) where
  dump : J → Except Exn Bytes
  parse : Bytes → ParseResult J

/-- The values a program puts into a `std::any`. -/
inductive Payload (J M : Type*) where
  | json (value : J)
  | message (value : M)
  | foreign
  deriving DecidableEq

namespace JsonInterceptor

variable {J M : Type*} (library : JsonLibrary J)

/-- `JsonInterceptor::serialize`: a value of another type is a caught `bad_any_cast`. -/
def serialize (data : StdAny (Payload J M)) : Except Exn Bytes :=
  match data with
  | some (.json value) => library.dump value
  | _ => .ok []

/-- `JsonInterceptor::deserialize`: only `parse_error` is caught. -/
def deserialize (data : Bytes) : Except Exn (StdAny (Payload J M)) :=
  match library.parse data with
  | .value value => .ok (some (.json value))
  | .parseError => .ok none
  | .outOfRange => .error .outOfRange

end JsonInterceptor

/-- `class JsonInterceptor`. -/
def jsonInterceptor {J : Type*} (M : Type*) (library : JsonLibrary J) :
    Interceptor (Payload J M) where
  serialize := JsonInterceptor.serialize library
  deserialize := JsonInterceptor.deserialize library
  getType := .json

variable {σ J M H : Type*}

/-- From this endpoint a frame is processed and gone, however it is cut: the call that completes
it returns with the given events, and what comes with the frame or after it is received as by an
endpoint that never saw the frame. -/
def PassesFrame (feed : List Bytes → Receiver σ H → Outcome Exn (Receiver σ H))
    (endpoint : Endpoint σ H) (frame : Bytes) (events : List (Obs H)) : Prop :=
  ∀ front back : Bytes, front ++ back = frame → back ≠ [] →
    ∃ next : Endpoint σ H, next.trace = endpoint.trace ++ events ∧
      feed [back] ⟨endpoint, front⟩ = .returned ⟨next, []⟩ ∧
      ∀ (rest : Bytes) (later : List Bytes),
        feed ((back ++ rest) :: later) ⟨endpoint, front⟩ = feed (rest :: later) ⟨next, []⟩ ∧
        ∀ after plain : Receiver σ H,
          feed (rest :: later) ⟨next, []⟩ = .returned after →
          feed (rest :: later) ⟨endpoint, []⟩ = .returned plain →
          after.buffer = plain.buffer ∧ ∃ added : List (Obs H),
            after.trace = next.trace ++ added ∧ plain.trace = endpoint.trace ++ added

namespace ReceiveLoop

variable {V : Type*} {host : Host} {program : Program σ V H} (loop : ReceiveLoop host program)

theorem passesFrame {packet : Packet} {frame : Bytes}
    (hscan : ∀ rest, scanFrame host (frame ++ rest) = .frame packet frame.length)
    {endpoint next : Endpoint σ H} (hdispatch : loop.dispatch packet endpoint = .returned next) :
    PassesFrame loop.feed endpoint frame (loop.emits packet) := by
  rintro front back rfl -
  have happend (rest : Bytes) :
      loop.append (back ++ rest) ⟨endpoint, front⟩ = loop.append rest ⟨next, []⟩ := by
    have hframe : scanFrame host (front ++ (back ++ rest)) =
        .frame packet (front ++ back).length := by
      rw [← List.append_assoc]
      exact hscan rest
    have hbehind := loop.append_frame hframe hdispatch
    rwa [← List.append_assoc, List.drop_left] at hbehind
  refine ⟨next, loop.dispatch_returned hdispatch, ?_, fun rest later ↦ ⟨?_, ?_⟩⟩
  · have hback := happend []
    rw [List.append_nil, loop.append_nil] at hback
    rw [feed, Outcome.forEach, hback]
    rfl
  · rw [feed, Outcome.forEach, happend]
    rfl
  · intro after plain hafter hplain
    obtain ⟨hbuffer, htrace⟩ := loop.feed_returned hafter
    obtain ⟨hbuffer', htrace'⟩ := loop.feed_returned hplain
    exact ⟨hbuffer.trans hbuffer'.symm, _, htrace, htrace'⟩

theorem not_passesFrame_of_threw {packet : Packet} {frame : Bytes}
    (hscan : scanFrame host frame = .frame packet frame.length)
    {error : Exn} {endpoint next : Endpoint σ H}
    (hdispatch : loop.dispatch packet endpoint = .threw error next) (events : List (Obs H)) :
    ¬ PassesFrame loop.feed endpoint frame events := by
  intro hpasses
  have hframe : frame ≠ [] := by
    rintro rfl
    cases hscan.symm.trans (wireDecoder host).scan_nil
  obtain ⟨after, -, hfeed, -⟩ := hpasses [] frame rfl hframe
  rw [← List.nil_append frame] at hscan
  have hthrew := loop.append_frame_threw hscan hdispatch
  rw [feed, Outcome.forEach, hthrew] at hfeed
  cases hfeed

end ReceiveLoop

/-! ## Programs with a `JsonInterceptor` -/

section JsonFrames

variable {library : JsonLibrary J} {program : Program σ (Payload J M) H}

/-- What processing a JSON packet shows: it is decoded, and if its payload has a value the handler
for JSON packets is called. -/
def jsonEvents (library : JsonLibrary J) (program : Program σ (Payload J M) H)
    (packet : Packet) : List (Obs H) :=
  .decoded packet ::
    match library.parse packet.data, program.findHandler .json with
    | .value _, some handler => [.invoked handler packet]
    | _, _ => []

/-- The program has a `JsonInterceptor`. -/
def HasJsonInterceptor (library : JsonLibrary J) (program : Program σ (Payload J M) H) : Prop :=
  program.interceptorManager.getInterceptor .json = some (jsonInterceptor M library)

theorem intercept_json (hinstalled : HasJsonInterceptor library program) {packet : Packet}
    (htype : packet.type = .json) :
    program.intercept packet =
      match library.parse packet.data with
      | .value _ => .ok (program.findHandler .json)
      | .parseError => .ok none
      | .outOfRange => .error .outOfRange := by
  unfold Program.intercept
  rw [htype, show program.interceptorManager.getInterceptor .json = _ from hinstalled]
  simp only [jsonInterceptor, JsonInterceptor.deserialize]
  cases library.parse packet.data <;> rfl

theorem emits_json (hinstalled : HasJsonInterceptor library program) {packet : Packet}
    (htype : packet.type = .json) :
    Client.emits program packet = jsonEvents library program packet := by
  unfold Client.emits Program.invoked jsonEvents
  rw [intercept_json hinstalled htype]
  cases library.parse packet.data with
  | value json => cases program.findHandler .json <;> rfl
  | parseError => rfl
  | outOfRange => rfl

theorem Client.dispatch_json_returns (hinstalled : HasJsonInterceptor library program)
    {packet : Packet} (htype : packet.type = .json)
    (hhandler : ∀ handler ∈ program.findHandler .json, ∀ state, ∃ next,
      program.invoke handler packet state = .returned next)
    (hparse : library.parse packet.data ≠ .outOfRange) (endpoint : Endpoint σ H) :
    ∃ next, Client.dispatch program packet endpoint = .returned next := by
  apply Client.dispatch_returns
  have hintercept := intercept_json hinstalled htype
  cases hresult : library.parse packet.data with
  | outOfRange => exact absurd hresult hparse
  | parseError =>
    rw [hresult] at hintercept
    exact ⟨none, hintercept, fun _ hfound ↦ nomatch hfound⟩
  | value json =>
    rw [hresult] at hintercept
    exact ⟨_, hintercept, hhandler⟩

theorem Client.dispatch_json_threw (hinstalled : HasJsonInterceptor library program)
    {packet : Packet} (htype : packet.type = .json)
    (hparse : library.parse packet.data = .outOfRange) (endpoint : Endpoint σ H) :
    Client.dispatch program packet endpoint =
      .threw .outOfRange (endpoint.observe (.decoded packet)) := by
  rw [Client.dispatch_eq, intercept_json hinstalled htype, hparse]

/-- A loop that dispatches JSON packets as the client does passes those that are in range. -/
theorem ReceiveLoop.passesFrame_json_iff {order : ByteOrder}
    (loop : ReceiveLoop (.wide order) program) (hinstalled : HasJsonInterceptor library program)
    {message : WirePacket} (htype : message.packet.type = .json)
    (hdispatch : ∀ endpoint,
      loop.dispatch message.packet endpoint = Client.dispatch program message.packet endpoint)
    (hemits : loop.emits message.packet = Client.emits program message.packet)
    (hhandler : ∀ handler ∈ program.findHandler .json, ∀ state, ∃ next,
      program.invoke handler message.packet state = .returned next)
    (endpoint : Endpoint σ H) :
    PassesFrame loop.feed endpoint ((wireCodec order).encode message)
        (jsonEvents library program message.packet) ↔
      library.parse message.packet.data ≠ .outOfRange := by
  have hscan := (wireCodec order).scan_encode_append message
  constructor
  · intro hpasses hparse
    have hthrew := Client.dispatch_json_threw hinstalled htype hparse endpoint
    rw [← hdispatch] at hthrew
    have hwhole := hscan []
    rw [List.append_nil] at hwhole
    exact loop.not_passesFrame_of_threw hwhole hthrew _ hpasses
  · intro hparse
    obtain ⟨next, hreturned⟩ :=
      Client.dispatch_json_returns hinstalled htype hhandler hparse endpoint
    rw [← hdispatch] at hreturned
    rw [← emits_json hinstalled htype, ← hemits]
    exact loop.passesFrame hscan hreturned

theorem Client.passesFrame_json_iff (order : ByteOrder)
    (hinstalled : HasJsonInterceptor library program)
    {message : WirePacket} (htype : message.packet.type = .json)
    (hhandler : ∀ handler ∈ program.findHandler .json, ∀ state, ∃ next,
      program.invoke handler message.packet state = .returned next)
    (endpoint : Endpoint σ H) :
    PassesFrame (Client.feed (.wide order) program) endpoint ((wireCodec order).encode message)
        (jsonEvents library program message.packet) ↔
      library.parse message.packet.data ≠ .outOfRange :=
  (Client.receiveLoop (.wide order) program).passesFrame_json_iff hinstalled htype
    (fun _ ↦ rfl) rfl hhandler endpoint

theorem Session.passesFrame_json_iff (order : ByteOrder)
    (hinstalled : HasJsonInterceptor library program)
    {message : WirePacket} (htype : message.packet.type = .json)
    (hhandler : ∀ handler ∈ program.findHandler .json, ∀ state, ∃ next,
      program.invoke handler message.packet state = .returned next)
    (endpoint : Endpoint σ H) :
    PassesFrame (Session.feed (.wide order) program) endpoint ((wireCodec order).encode message)
        (jsonEvents library program message.packet) ↔
      library.parse message.packet.data ≠ .outOfRange := by
  have hheartbeat : message.packet.type ≠ .heartbeat := by
    rw [htype]
    decide
  exact (Session.receiveLoop (.wide order) program).passesFrame_json_iff hinstalled htype
    (Session.handlePacket_of_ne program hheartbeat) (Session.emits_of_ne program hheartbeat)
    hhandler endpoint

/-- **JSON payloads.** A client and a session process a JSON frame, drop it or hand it to its
handler, and go on behind it as if it had not been there, exactly when the JSON library does not
find its payload out of range. -/
theorem json_frame_passes_iff (order : ByteOrder) (library : JsonLibrary J)
    (program : Program σ (Payload J M) H) (hinstalled : HasJsonInterceptor library program)
    (message : WirePacket) (htype : message.packet.type = .json)
    (hhandler : ∀ handler ∈ program.findHandler .json, ∀ state, ∃ next,
      program.invoke handler message.packet state = .returned next)
    (endpoint : Endpoint σ H) :
    (PassesFrame (Client.feed (.wide order) program) endpoint ((wireCodec order).encode message)
        (jsonEvents library program message.packet) ↔
      library.parse message.packet.data ≠ .outOfRange) ∧
    (PassesFrame (Session.feed (.wide order) program) endpoint ((wireCodec order).encode message)
        (jsonEvents library program message.packet) ↔
      library.parse message.packet.data ≠ .outOfRange) :=
  ⟨Client.passesFrame_json_iff order hinstalled htype hhandler endpoint,
    Session.passesFrame_json_iff order hinstalled htype hhandler endpoint⟩

end JsonFrames

/-! ## A program that reads booleans -/

namespace JsonLibrary

/-- The texts `true` and `false`, and one number too large for a `double`. -/
def booleans : JsonLibrary Bool where
  dump
    | true => .ok [116, 114, 117, 101]
    | false => .ok [102, 97, 108, 115, 101]
  parse text :=
    if text = [116, 114, 117, 101] then .value true
    else if text = [102, 97, 108, 115, 101] then .value false
    else if text = [49, 101, 57, 57, 57] then .outOfRange
    else .parseError

end JsonLibrary

/-- A program with a `JsonInterceptor` for booleans and a handler for JSON packets. -/
def jsonProgram : Program Unit (Payload Bool Unit) Unit where
  interceptorManager :=
    InterceptorManager.empty.addInterceptor (jsonInterceptor Unit JsonLibrary.booleans)
  packetHandlers type := if type = .json then some () else none
  defaultPacketHandler := none
  heartbeat state := state
  invoke _ _ state := .returned state

theorem jsonProgram_hasJsonInterceptor : HasJsonInterceptor JsonLibrary.booleans jsonProgram :=
  InterceptorManager.getInterceptor_addInterceptor _ (jsonInterceptor Unit JsonLibrary.booleans)

/-- The JSON packet with the payload `true`. -/
def trueMessage : WirePacket where
  packet := ⟨.json, [116, 114, 117, 101], 0⟩
  padding := ⟨0, 0⟩
  fits := by decide

/-- The JSON packet with the payload `1e999`. -/
def hugeNumberMessage : WirePacket where
  packet := ⟨.json, [49, 101, 57, 57, 57], 0⟩
  padding := ⟨0, 0⟩
  fits := by decide

theorem json_frame_passes_iff_true :
    (PassesFrame (Client.feed (.wide .little) jsonProgram) ⟨(), []⟩
        ((wireCodec .little).encode trueMessage)
        (jsonEvents JsonLibrary.booleans jsonProgram trueMessage.packet) ↔
      JsonLibrary.booleans.parse trueMessage.packet.data ≠ .outOfRange) ∧
    (PassesFrame (Session.feed (.wide .little) jsonProgram) ⟨(), []⟩
        ((wireCodec .little).encode trueMessage)
        (jsonEvents JsonLibrary.booleans jsonProgram trueMessage.packet) ↔
      JsonLibrary.booleans.parse trueMessage.packet.data ≠ .outOfRange) :=
  json_frame_passes_iff .little JsonLibrary.booleans jsonProgram jsonProgram_hasJsonInterceptor
    trueMessage rfl (fun _ _ state ↦ ⟨state, rfl⟩) ⟨(), []⟩

/-- The payload `1e999` stops the client and the session. -/
theorem json_number_stops_receiver :
    ¬ PassesFrame (Client.feed (.wide .little) jsonProgram) ⟨(), []⟩
        ((wireCodec .little).encode hugeNumberMessage)
        (jsonEvents JsonLibrary.booleans jsonProgram hugeNumberMessage.packet) ∧
      ¬ PassesFrame (Session.feed (.wide .little) jsonProgram) ⟨(), []⟩
        ((wireCodec .little).encode hugeNumberMessage)
        (jsonEvents JsonLibrary.booleans jsonProgram hugeNumberMessage.packet) := by
  have hparse : JsonLibrary.booleans.parse hugeNumberMessage.packet.data = .outOfRange := by decide
  rw [Client.passesFrame_json_iff .little jsonProgram_hasJsonInterceptor rfl
      (fun _ _ state ↦ ⟨state, rfl⟩),
    Session.passesFrame_json_iff .little jsonProgram_hasJsonInterceptor rfl
      (fun _ _ state ↦ ⟨state, rfl⟩)]
  exact ⟨not_not.mpr hparse, not_not.mpr hparse⟩

end LibuvNet
