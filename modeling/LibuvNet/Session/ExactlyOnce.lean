import LibuvNet.Endpoint.Reassembly
import LibuvNet.Session.Feeding

/-!
# Every frame once

A frame is taken off `read_buffer_` only after its handler has returned.  A handler that throws
leaves it there for the next call, and the frames behind it wait; a handler that feeds its own
session meets the same frame again inside the nested call.  So every frame is handed over once
exactly if no handler feeds the session, and an exception comes where nothing that has a handler
is still to come: no frame behind, and no further call if the frame itself has one.
-/

namespace LibuvNet

open Foundation

namespace Session

variable {σ V H : Type*} {order : ByteOrder} {reentrant : ReentrantProgram σ V H}

/-- Every call of a handler was for a frame of its own, and every frame that has a handler, of the
stream and of those handlers appended, was handed to it. -/
def Once (reentrant : ReentrantProgram σ V H) (messages : List WirePacket) (last : Reader σ) :
    Prop :=
  (last.invoked.map Prod.fst).Nodup ∧
    (last.invoked.map Prod.snd).Perm (heardPackets reentrant (messages ++ last.refed))

/-- All calls come to an end, and then every frame has been handed over once. -/
def ExactlyOnce (order : ByteOrder) (reentrant : ReentrantProgram σ V H) (chunks : List Bytes)
    (messages : List WirePacket) (state : σ) : Prop :=
  ∃ fuel last, feedBy (.wide order) reentrant fuel chunks (.start state) = .ok last ∧
    Once reentrant messages last

/-- The handler of a message does not feed the session; and if the message ends by an exception,
nothing behind it has a handler, and the message itself has none or comes with the last call. -/
structure OrderlyAt (order : ByteOrder) (reentrant : ReentrantProgram σ V H)
    (chunks : List Bytes) (front : List WirePacket) (message : WirePacket)
    (behind : List WirePacket) (before : σ) : Prop where
  calm : ¬ ReentersAt reentrant message.packet before
  last : ∀ error after, (router reentrant.program).dispatch message.packet before =
      .threw error after →
    (∀ other ∈ behind, ¬ Heard reentrant other.packet) ∧
      (Heard reentrant message.packet → chunks.dropLast.flatten.length <
        ((wireCodec order).stream (front ++ [message])).length)

/-- So it is for every message, in the state in which the messages before it leave the session. -/
def Orderly (order : ByteOrder) (reentrant : ReentrantProgram σ V H) (chunks : List Bytes)
    (messages : List WirePacket) (state : σ) : Prop :=
  ∀ front message behind before, messages = front ++ message :: behind →
    Outcome.forEach (router reentrant.program).dispatch (front.map WirePacket.packet) state =
      .returned before →
    OrderlyAt order reentrant chunks front message behind before

section Once

variable {chunks : List Bytes} {messages front behind : List WirePacket} {message : WirePacket}
  {state before : σ}

/-- Where all is calm, a message is in order whatever comes behind it. -/
theorem orderlyAt_of_calm {others : List WirePacket} {after : σ}
    (hcalm : Calm reentrant (front ++ message :: others) state after)
    (hbefore : Outcome.forEach (router reentrant.program).dispatch (front.map WirePacket.packet)
      state = .returned before) :
    OrderlyAt order reentrant chunks front message behind before := by
  obtain ⟨between, hfront, next, hnext, hreenters, -⟩ := Calm.append.mp hcalm
  obtain rfl := Outcome.returned.inj (hbefore.symm.trans hfront.forEach)
  refine ⟨hreenters, ?_⟩
  intro error after hthrew
  cases hnext.symm.trans hthrew

theorem orderly_of_calm {after : σ} (hcalm : Calm reentrant messages state after) :
    Orderly order reentrant chunks messages state := by
  rintro front message behind before rfl hbefore
  exact orderlyAt_of_calm hcalm hbefore

/-- Where all is calm before a message, only that message matters if it stops the session. -/
theorem orderly_iff_of_stop (hcalm : Calm reentrant front state before)
    (hstop : ReentersAt reentrant message.packet before ∨
      ¬ ReentersAt reentrant message.packet before ∧
        ∃ error after, (router reentrant.program).dispatch message.packet before =
          .threw error after) :
    Orderly order reentrant chunks (front ++ message :: behind) state ↔
      OrderlyAt order reentrant chunks front message behind before := by
  constructor
  · intro horderly
    exact horderly front message behind before rfl hcalm.forEach
  · intro hat front' message' behind' before' hsplit hbefore'
    obtain ⟨-, error, after, hthrew⟩ := hstop.resolve_left hat.calm
    rcases append_cons_cases hsplit with ⟨between, rfl, hbehind⟩ | ⟨between, rfl, hbehind⟩
    · cases between with
      | nil =>
        obtain ⟨rfl, rfl⟩ := List.cons.inj hbehind
        rw [List.append_nil] at hcalm hat
        obtain rfl := Outcome.returned.inj (hbefore'.symm.trans hcalm.forEach)
        exact hat
      | cons first between =>
        obtain ⟨rfl, -⟩ := List.cons.inj hbehind
        exact orderlyAt_of_calm hcalm hbefore'
    · -- Nothing behind the message is reached.
      rw [List.map_append, Outcome.forEach_append, hcalm.forEach, Outcome.andThen_returned,
        List.map_cons, Outcome.forEach_cons_threw hthrew] at hbefore'
      cases hbefore'

theorem heardPackets_eq_nil :
    heardPackets reentrant behind = [] ↔ ∀ other ∈ behind, ¬ Heard reentrant other.packet := by
  simp [heardPackets, List.filter_eq_nil_iff]

/-- When some first messages have been handed over, nothing behind them must have a handler. -/
theorem once_iff {last : Reader σ} (hinvoked : last.invoked = deliveries order reentrant 0 front)
    (hrefed : last.refed = []) :
    Once reentrant (front ++ behind) last ↔ ∀ other ∈ behind, ¬ Heard reentrant other.packet := by
  have happend : heardPackets reentrant (front ++ behind) =
      heardPackets reentrant front ++ heardPackets reentrant behind := by
    simp only [heardPackets, List.map_append, List.filter_append]
  rw [Once, hinvoked, hrefed, List.append_nil, map_snd_deliveries, happend, ← heardPackets_eq_nil]
  constructor
  · rintro ⟨-, hperm⟩
    have hlength := hperm.length_eq
    rw [List.length_append] at hlength
    exact List.eq_nil_of_length_eq_zero (by omega)
  · intro hnil
    rw [hnil, List.append_nil]
    exact ⟨deliveries_nodup 0 front, .refl _⟩

/-- Two calls with the same frame. -/
theorem not_once_of_twice {last : Reader σ} {calls : List (ℕ × Packet)} {call : ℕ × Packet}
    (htwice : calls ++ [call] ++ [call] <+: last.invoked) : ¬ Once reentrant messages last := by
  rintro ⟨hnodup, -⟩
  have hsub := (htwice.map Prod.fst).sublist
  have htwo := hnodup.sublist hsub
  simp [List.nodup_append] at htwo

/-- A call inserts behind what the session holds. -/
theorem insert_behind {grow : ℕ → ℕ → ℕ} {chunk frame rest : Bytes} {reader : Reader σ}
    (hbytes : reader.buffer.bytes = frame ++ rest) :
    (reader.insert grow chunk).buffer.bytes = frame ++ (rest ++ chunk) := by
  rw [← List.append_assoc, ← hbytes]
  exact ByteVector.insert_bytes _ _ _

/-- A session whose handler throws for a frame calls it again for that frame in the next call. -/
theorem not_once_of_throw {fuel : ℕ} {chunk : Bytes} {reader last : Reader σ} {rest : Bytes}
    {calls : List (ℕ × Packet)}
    (hbytes : reader.buffer.bytes = (wireCodec order).encode message ++ rest)
    (hheard : Heard reentrant message.packet)
    (hinvoked : reader.invoked = calls ++ [(reader.removed, message.packet)])
    (hfeed : feedBy (.wide order) reentrant fuel (chunk :: chunks) reader = .ok last) :
    ¬ Once reentrant messages last := by
  obtain ⟨handler, hroute⟩ := hheard
  obtain ⟨outcome, hcall, hlater⟩ := feedBy_cons_eq_ok.mp hfeed
  have hagain := process_invokes (scan_message (insert_behind hbytes)) hroute hcall
  have htwice : reader.invoked ++ [(reader.removed, message.packet)] <+: last.invoked :=
    hagain.trans (feedBy_records hlater)
  rw [hinvoked] at htwice
  exact not_once_of_twice htwice

/-- A session whose interceptor throws for a frame is stuck: no later call changes the record. -/
theorem feedBy_stuck {fuel : ℕ} {reader : Reader σ} {rest : Bytes} {error : Exn}
    (hbytes : reader.buffer.bytes = (wireCodec order).encode message ++ rest)
    (hroute : (router reentrant.program).route message.packet = .error error) :
    ∃ last, feedBy (.wide order) reentrant (fuel + 1) chunks reader = .ok last ∧
      last.removed = reader.removed ∧ last.invoked = reader.invoked ∧
      last.refed = reader.refed := by
  induction chunks generalizing reader rest with
  | nil => exact ⟨reader, rfl, rfl, rfl, rfl⟩
  | cons chunk chunks ih =>
    have hinsert : (reader.insert reentrant.grow chunk).buffer.bytes =
        (wireCodec order).encode message ++ (rest ++ chunk) := insert_behind hbytes
    have hcall : appendBy (.wide order) reentrant (fuel + 1) chunk reader =
        .ok (.threw error (reader.insert reentrant.grow chunk)) := by
      rw [appendBy, process_of_frame fuel (scan_message hinsert), handlePacketBy_of_error hroute]
      rfl
    obtain ⟨last, hlast, hsame⟩ := ih hinsert
    exact ⟨last, feedBy_cons_eq_ok.mpr ⟨_, hcall, hlast⟩, hsame⟩

/-- A handler that feeds the session is called twice for one frame, or some call has no end. -/
theorem not_exactlyOnce_of_reenters
    (hchunks : chunks.flatten = (wireCodec order).stream (front ++ message :: behind))
    (hcalm : Calm reentrant front state before)
    (hreenters : ReentersAt reentrant message.packet before) :
    ¬ ExactlyOnce order reentrant chunks messages state := by
  rintro ⟨fuel, last, hfeed, honce⟩
  have hfeed' := feedBy_add hfeed (front.length + 1)
  have hfuel : front.length < fuel + (front.length + 1) := by omega
  obtain ⟨later, arrived, rest, fewer, hbytes, rfl, -, -, hcalls⟩ :=
    feedBy_until (scan_start state) hchunks hcalm hfuel
  rw [hfeed'] at hcalls
  obtain ⟨handler, hroute, hscript⟩ := hreenters
  cases hprocess : process (.wide order) reentrant (fewer + 1) arrived with
  | error halt =>
    rw [hprocess] at hcalls
    cases hcalls
  | ok outcome =>
    rw [hprocess] at hcalls
    have htwice := process_reenters (scan_message hbytes) hroute hscript hprocess
    exact not_once_of_twice (htwice.trans (feedBy_records hcalls.symm)) honce

/-- A session that is fed up to a message that throws: what it has recorded, and that the message
is still at the front. -/
theorem feedBy_throw {fuel : ℕ} {error : Exn} {after : σ}
    (hchunks : chunks.flatten = (wireCodec order).stream (front ++ message :: behind))
    (hcalm : Calm reentrant front state before)
    (hreenters : ¬ ReentersAt reentrant message.packet before)
    (hthrew : (router reentrant.program).dispatch message.packet before = .threw error after)
    (hfuel : front.length < fuel) :
    ∃ (later : List Bytes) (thrown : Reader σ) (rest : Bytes),
      thrown.buffer.bytes = (wireCodec order).encode message ++ rest ∧
      thrown.removed = ((wireCodec order).stream front).length ∧
      thrown.invoked = deliveries order reentrant 0 (front ++ [message]) ∧
      thrown.refed = [] ∧
      (later = [] ↔ chunks.dropLast.flatten.length <
        ((wireCodec order).stream (front ++ [message])).length) ∧
      feedBy (.wide order) reentrant fuel chunks (.start state) =
        feedBy (.wide order) reentrant fuel later thrown := by
  obtain ⟨later, arrived, rest, fewer, hbytes, rfl, hhanded, hlast, hcalls⟩ :=
    feedBy_until (scan_start state) hchunks hcalm hfuel
  have hprocess := process_message_threw fewer hbytes hreenters hthrew
  have hremoved : arrived.removed = ((wireCodec order).stream front).length :=
    hhanded.removed.trans (Nat.zero_add _)
  refine ⟨later, handOver reentrant arrived message.packet after, rest, hbytes, hremoved, ?_,
    hhanded.refed, ?_, ?_⟩
  · have hinvoked : arrived.invoked = deliveries order reentrant 0 front := hhanded.invoked
    rw [handOver, hinvoked, hremoved, deliveries_append, Nat.zero_add, deliveries, deliveries,
      List.append_nil]
  · rw [hlast]
    change 0 + _ < _ ↔ _
    rw [Nat.zero_add]
  · rw [hcalls, hprocess]
    rfl

/-- A message that ends by an exception without a handler ends by that of its interceptor. -/
theorem route_of_threw {error : Exn} {after : σ} (hheard : ¬ Heard reentrant message.packet)
    (hthrew : (router reentrant.program).dispatch message.packet before = .threw error after) :
    ∃ error, (router reentrant.program).route message.packet = .error error := by
  cases hroute : (router reentrant.program).route message.packet with
  | error error => exact ⟨error, rfl⟩
  | ok found =>
    cases found with
    | none =>
      rw [Router.dispatch_of_none hroute] at hthrew
      cases hthrew
    | some handler => exact absurd ⟨handler, hroute⟩ hheard

/-- Once a message has ended by an exception, later calls change nothing, as long as none follows
a handler that throws. -/
theorem feedBy_ended {fuel : ℕ} {error : Exn} {after : σ} {thrown : Reader σ} {rest : Bytes}
    (hthrew : (router reentrant.program).dispatch message.packet before = .threw error after)
    (hbytes : thrown.buffer.bytes = (wireCodec order).encode message ++ rest)
    (hlater : Heard reentrant message.packet → chunks = []) :
    ∃ last, feedBy (.wide order) reentrant (fuel + 1) chunks thrown = .ok last ∧
      last.removed = thrown.removed ∧ last.invoked = thrown.invoked ∧
      last.refed = thrown.refed := by
  by_cases hheard : Heard reentrant message.packet
  · rw [hlater hheard]
    exact ⟨thrown, rfl, rfl, rfl, rfl⟩
  · obtain ⟨thrownError, hroute⟩ := route_of_threw hheard hthrew
    exact feedBy_stuck hbytes hroute

/-- A message that ends by an exception is the only one that matters. -/
theorem exactlyOnce_iff_of_throw {error : Exn} {after : σ}
    (hchunks : chunks.flatten = (wireCodec order).stream (front ++ message :: behind))
    (hcalm : Calm reentrant front state before)
    (hreenters : ¬ ReentersAt reentrant message.packet before)
    (hthrew : (router reentrant.program).dispatch message.packet before = .threw error after) :
    ExactlyOnce order reentrant chunks (front ++ message :: behind) state ↔
      OrderlyAt order reentrant chunks front message behind before := by
  have honce {last : Reader σ}
      (hinvoked : last.invoked = deliveries order reentrant 0 (front ++ [message]))
      (hrefed : last.refed = []) : Once reentrant (front ++ message :: behind) last ↔
        ∀ other ∈ behind, ¬ Heard reentrant other.packet := by
    rw [List.append_cons]
    exact once_iff hinvoked hrefed
  constructor
  · rintro ⟨fuel, last, hfeed, hlast⟩
    have hfeed' := feedBy_add hfeed (front.length + 1)
    have hfuel : front.length < fuel + (front.length + 1) := by omega
    obtain ⟨later, thrown, rest, hbytes, hremoved, hinvoked, hrefed, hlater, hcalls⟩ :=
      feedBy_throw hchunks hcalm hreenters hthrew hfuel
    rw [hfeed'] at hcalls
    have hnone : Heard reentrant message.packet → later = [] := by
      intro hheard
      cases later with
      | nil => rfl
      | cons chunk later =>
        have hcall : thrown.invoked = deliveries order reentrant 0 front ++
            [(thrown.removed, message.packet)] := by
          rw [hinvoked, hremoved, deliveries_append, Nat.zero_add, deliveries, if_pos hheard]
          rfl
        exact absurd hlast (not_once_of_throw hbytes hheard hcall hcalls.symm)
    obtain ⟨last', hcalls', -, hsame, hsame'⟩ := feedBy_ended hthrew hbytes hnone
    obtain rfl := Except.ok.inj (hcalls.trans hcalls')
    refine ⟨hreenters, fun _ _ _ ↦ ⟨?_, fun hheard ↦ hlater.mp (hnone hheard)⟩⟩
    exact (honce (hsame.trans hinvoked) (hsame'.trans hrefed)).mp hlast
  · intro hat
    obtain ⟨hbehind, hheard⟩ := hat.last error after hthrew
    obtain ⟨later, thrown, rest, hbytes, -, hinvoked, hrefed, hlater, hcalls⟩ :=
      feedBy_throw hchunks hcalm hreenters hthrew (Nat.lt_succ_self _)
    obtain ⟨last, hlast, -, hsame, hsame'⟩ :=
      feedBy_ended hthrew hbytes fun hmessage ↦ hlater.mpr (hheard hmessage)
    exact ⟨_, last, hcalls.trans hlast,
      (honce (hsame.trans hinvoked) (hsame'.trans hrefed)).mpr hbehind⟩

end Once

/-- **Every frame once.** For every stream of frames in any chunks, fed by somebody who catches
what the calls throw: all calls end, and each frame of the stream and each that a handler appends
is handed to its handler exactly once, if and only if no handler feeds the session, and where a
frame ends by an exception nothing that has a handler is still to come. -/
theorem frames_once_iff (order : ByteOrder) (reentrant : ReentrantProgram σ V H)
    (messages : List WirePacket) (chunks : List Bytes)
    (hchunks : chunks.flatten = (wireCodec order).stream messages) (state : σ) :
    ExactlyOnce order reentrant chunks messages state ↔
      Orderly order reentrant chunks messages state := by
  rcases calm_or_first_stop reentrant messages state with ⟨after, hcalm⟩ |
    ⟨front, message, behind, before, rfl, hcalm, hstop⟩
  · refine iff_of_true ?_ (orderly_of_calm hcalm)
    obtain ⟨last, hlast, hhanded⟩ :=
      feedBy_calm (scan_start state) hchunks hcalm (Nat.lt_succ_self _)
    refine ⟨_, last, hlast, ?_⟩
    have honce : Once reentrant (messages ++ []) last := by
      rw [once_iff hhanded.invoked hhanded.refed]
      simp
    rwa [List.append_nil] at honce
  · rw [orderly_iff_of_stop hcalm hstop]
    rcases hstop with hreenters | ⟨hreenters, error, after, hthrew⟩
    · exact iff_of_false (not_exactlyOnce_of_reenters hchunks hcalm hreenters)
        fun hat ↦ hat.calm hreenters
    · exact exactlyOnce_iff_of_throw hchunks hcalm hreenters hthrew

/-- An application that hands every packet to one handler. -/
def singleHandler (script : Packet → Bool → Script Bool) : ReentrantProgram Bool Unit Unit where
  interceptorManager := .empty
  packetHandlers _ := none
  defaultPacketHandler := some ()
  heartbeat state := state
  script _ := script
  grow _ needed := needed

/-- The handler throws from the second time on that it is called. -/
def throwsLater : ReentrantProgram Bool Unit Unit :=
  singleHandler fun _ called ↦ .finish true (if called then some (.user 0) else none)

/-- It is called once for each of two frames, although it throws for the last one. -/
theorem frames_once_iff_thrown :
    (router throwsLater.program).dispatch greeting.packet true = .threw (.user 0) true ∧
      ExactlyOnce .little throwsLater
        [(wireCodec .little).encode greeting, (wireCodec .little).encode greeting]
        [greeting, greeting] false := by
  have hcalm (called : Bool) : ¬ ReentersAt throwsLater greeting.packet called :=
    fun ⟨_, _, hreenters⟩ ↦ hreenters
  have hfirst : Calm throwsLater [greeting] false true := ⟨true, rfl, hcalm false, rfl⟩
  have horderly : Orderly .little throwsLater
      [(wireCodec .little).encode greeting, (wireCodec .little).encode greeting]
      ([greeting] ++ greeting :: []) false :=
    (orderly_iff_of_stop hfirst (.inr ⟨hcalm true, _, _, rfl⟩)).mpr
      ⟨hcalm true, fun _ _ _ ↦ ⟨List.forall_mem_nil _, fun _ ↦ by decide⟩⟩
  exact ⟨rfl, (frames_once_iff .little throwsLater [greeting, greeting] _ (by decide) false).mpr
    horderly⟩

/-- The handler throws the first time it is called. -/
def throwsOnce : ReentrantProgram Bool Unit Unit :=
  singleHandler fun _ called ↦ .finish true (if called then none else some (.user 0))

/-- The handler appends a frame to its session the first time it is called. -/
def feedsOnce : ReentrantProgram Bool Unit Unit :=
  singleHandler fun _ called ↦
    if called then .finish true none
    else .append true [greeting] fun _ state ↦ .finish state none

/-- Both are called twice for the first frame, or some call has no end. -/
theorem frame_handled_twice :
    ¬ ExactlyOnce .little throwsOnce
        [(wireCodec .little).encode greeting, (wireCodec .little).encode greeting]
        [greeting, greeting] false ∧
      ¬ ExactlyOnce .little feedsOnce [(wireCodec .little).encode greeting] [greeting] false := by
  constructor
  · intro honce
    have hcalm : Calm throwsOnce [] false false := rfl
    have hreenters : ¬ ReentersAt throwsOnce greeting.packet false := fun ⟨_, _, h⟩ ↦ h
    have hat := (exactlyOnce_iff_of_throw (by decide) hcalm hreenters rfl).mp honce
    exact (hat.last _ _ rfl).1 greeting List.mem_cons_self ⟨(), rfl⟩
  · have hchunks : [(wireCodec .little).encode greeting].flatten =
        (wireCodec .little).stream ([] ++ greeting :: []) := by decide
    have hcalm : Calm feedsOnce [] false false := rfl
    have hreenters : ReentersAt feedsOnce greeting.packet false := ⟨(), rfl, trivial⟩
    exact not_exactlyOnce_of_reenters hchunks hcalm hreenters

end Session

end LibuvNet
