import LibuvNet.Client.Handling
import LibuvNet.Endpoint.Posting
import LibuvNet.Interceptor.TypedMessage

/-!
# The client of `client_test.cpp`

A program that installs both interceptors, a handler for each of four packet types and a default
handler.  The handlers write to the log and note whether there is a connection; none of them calls
the client.  Neither interceptor is for text packets, so the text handler is called for each of
them and for nothing else.
-/

namespace LibuvNet

open Foundation

namespace TestClient

variable {J M D : Type*}

/-- The handlers that `main` sets. -/
inductive Handler where
  | text
  | json
  | binary
  | heartbeat
  | other
  deriving DecidableEq

structure Flags where
  isConnected : Bool
  shouldExit : Bool
  deriving DecidableEq

/-- What the handler for JSON packets throws: the interceptor is asked for the value again, and the
value is dumped for the log. -/
def jsonHandlerThrows (json : JsonLibrary J) (packet : Packet) : Option Exn :=
  match (JsonInterceptor.deserialize json packet.data :
    Except Exn (StdAny (Payload J Unit))) with
  | .error error => some error
  | .ok none => none
  | .ok (some (.json value)) =>
    match json.dump value with
    | .error error => some error
    | .ok _ => none
  | .ok (some _) => some .badAnyCast

/-- The program around the client. -/
def application (host : Host) (json : JsonLibrary J) (protobuf : ProtobufLibrary M D) :
    Client.Application Flags (Payload J M) Handler where
  host := host
  interceptorManager := (InterceptorManager.empty.addInterceptor (jsonInterceptor M json)
    ).addInterceptor (protobufInterceptor J protobuf)
  packetHandlers type :=
    if type = .text then some .text
    else if type = .json then some .json
    else if type = .binary then some .binary
    else if type = .heartbeat then some .heartbeat
    else none
  defaultPacketHandler := some .other
  onPacket handler packet core :=
    match handler with
    | .json => ⟨[], core.memory, jsonHandlerThrows json packet⟩
    | .text | .binary | .heartbeat | .other => ⟨[], core.memory, none⟩
  connectHandler := some fun core ↦ ⟨[], { core.memory with isConnected := true }, none⟩
  disconnectHandler := some fun _ ↦ ⟨[], ⟨false, true⟩, none⟩

variable (host : Host) (json : JsonLibrary J) (protobuf : ProtobufLibrary M D)

theorem stays : (application host json protobuf).Stays where
  packet handler packet core := by
    cases handler with
    | text | json | binary | heartbeat | other => exact List.forall_mem_nil _
  connect handler hhandler core := by
    cases hhandler
    exact List.forall_mem_nil _
  disconnect handler hhandler core := by
    cases hhandler
    exact List.forall_mem_nil _

/-- The packets that the text handler was called with. -/
def shown (calls : List (Handler × Packet)) : List Packet :=
  calls.filterMap fun call ↦ if call.1 = .text then some call.2 else none

theorem invoked_text {packet : Packet} (htype : packet.type = .text) :
    (application host json protobuf).program.invoked packet = [.invoked .text packet] := by
  have hnone : (application host json protobuf).interceptorManager.getInterceptor .text = none := by
    rfl
  have hintercept : (application host json protobuf).program.intercept packet =
      .ok (some .text) := by
    unfold Program.intercept
    simp only [Client.Application.program, htype, hnone]
    rfl
  rw [Program.invoked, hintercept]

theorem shown_invoked_of_ne {packet : Packet} (htype : packet.type ≠ .text) :
    shown (Obs.invocations ((application host json protobuf).program.invoked packet)) = [] := by
  have hfind (handler : Handler)
      (hhandler : (application host json protobuf).program.findHandler packet.type =
        some handler) : handler ≠ .text := by
    rintro rfl
    simp only [Program.findHandler, Client.Application.program, application, if_neg htype]
      at hhandler
    split_ifs at hhandler <;> cases hhandler
  unfold Program.invoked
  split
  · rename_i handler hintercept
    have hfound : (application host json protobuf).program.findHandler packet.type =
        some handler := by
      unfold Program.intercept at hintercept
      split at hintercept
      · split at hintercept
        · cases hintercept
        · split_ifs at hintercept
          · exact Except.ok.inj hintercept
          · cases hintercept
      · exact Except.ok.inj hintercept
    change List.filterMap (fun call : Handler × Packet ↦
      if call.1 = .text then some call.2 else none) [(handler, packet)] = []
    simp [hfind handler hfound]
  · rfl

/-- The text handler sees the text packets, all of them and in order. -/
theorem shown_invocations (packets : List Packet) :
    shown ((application host json protobuf).invocations packets) = texts packets := by
  induction packets with
  | nil => rfl
  | cons packet packets ih =>
    have hfirst : shown (Obs.invocations
        ((application host json protobuf).program.invoked packet)) = texts [packet] := by
      by_cases htype : packet.type = .text
      · rw [invoked_text host json protobuf htype, texts,
          List.filter_cons_of_pos (by simpa using htype)]
        rfl
      · rw [shown_invoked_of_ne host json protobuf htype, texts,
          List.filter_cons_of_neg (by simpa using htype)]
        rfl
    calc shown ((application host json protobuf).invocations (packet :: packets))
        = shown (Obs.invocations ((application host json protobuf).program.invoked packet)) ++
            shown ((application host json protobuf).invocations packets) :=
          List.filterMap_append
      _ = texts [packet] ++ texts packets := by rw [hfirst, ih]
      _ = texts (packet :: packets) := (texts_append [packet] packets).symm

end TestClient

end LibuvNet
