import LibuvNet.Endpoint.Posting
import LibuvNet.Server.Handling

/-!
# The server of `server_test.cpp`

A program that sets a handler for each of three packet types and a default handler, before it
starts its loop and listens, and makes no other call of the library but the one in its text
handler: that answers each text packet, on the session it came from, by a text packet with a
prefix before the text and a zero byte behind it.  What is posted on a session is then made of
heartbeats and of the answers to the text packets that were heard there.
-/

namespace LibuvNet

open Foundation

namespace TestServer

open Server

variable {V : Type*}

/-- The handlers that `main` sets. -/
inductive Handler where
  | text
  | binary
  | heartbeat
  | other
  deriving DecidableEq

/-- The bytes of `"服务器已收到消息: "`. -/
def responsePrefix : Bytes :=
  [0xE6, 0x9C, 0x8D, 0xE5, 0x8A, 0xA1, 0xE5, 0x99, 0xA8, 0xE5, 0xB7, 0xB2, 0xE6, 0x94, 0xB6,
    0xE5, 0x88, 0xB0, 0xE6, 0xB6, 0x88, 0xE6, 0x81, 0xAF, 0x3A, 0x20]

/-- The packet that answers a text packet. -/
def responsePacket (packet : Packet) : Packet :=
  ⟨.text, responsePrefix ++ packet.data ++ [0], 0⟩

/-- The program around the server, given what `uv_write` makes of each answer. -/
def application (host : Host) (write : ℕ → Packet → World Unit V Handler → WriteCall) :
    Application Unit V Handler where
  host := host
  connectHandler _ _ := ⟨[], (), none⟩
  closeHandler _ _ := ⟨[], (), none⟩
  onPacket handler id packet world :=
    match handler with
    | .text => ⟨[.send id (responsePacket packet) (write id packet world)], (), none⟩
    | .binary | .heartbeat | .other => ⟨[], (), none⟩
  onSessionPacket _ _ _ _ := ⟨[], (), none⟩

/-- The calls of `main` before the loop starts. -/
def setUp : List (Call V Handler) :=
  [.setPacketHandler .text .text, .setPacketHandler .binary .binary,
    .setPacketHandler .heartbeat .heartbeat, .setDefaultPacketHandler .other]

/-- `main` makes no call of the server that the loop could run into. -/
def Runs (event : Event V Handler) : Prop := ∀ call, event ≠ .call call

/-- Every answer is accepted by `uv_write`, on a session that is not closing. -/
def Accepts (write : ℕ → Packet → World Unit V Handler → WriteCall) : Prop :=
  ∀ id packet world, (write id packet world).result = 0

variable (host : Host) (write : ℕ → Packet → World Unit V Handler → WriteCall)

/-! ## The tables -/

/-- The handlers that `main` has set, and no others. -/
structure Installed (world : World Unit V Handler) : Prop where
  tables : world.Tables
  text : world.findHandler .text = some .text
  other : ∀ type, type ≠ .text → ∃ handler, world.findHandler type = some handler ∧
    handler ≠ .text

theorem installed_setUp (memory : Unit) :
    Installed ((setUp : List (Call V Handler)).foldl (Call.run host) (.initial memory)) where
  tables _ := ⟨rfl, rfl⟩
  text := rfl
  other type htype := by
    change ∃ handler, World.findHandler
      { World.initial memory with
        packetHandlers := Function.update (Function.update (Function.update (fun _ ↦ none)
          PacketType.text (some Handler.text)) .binary (some .binary)) .heartbeat (some .heartbeat)
        defaultPacketHandler := some Handler.other } type = some handler ∧ handler ≠ .text
    unfold World.findHandler
    by_cases hheartbeat : type = .heartbeat
    · subst hheartbeat
      exact ⟨.heartbeat, rfl, by decide⟩
    by_cases hbinary : type = .binary
    · subst hbinary
      exact ⟨.binary, rfl, by decide⟩
    · simp only [Function.update_of_ne hheartbeat, Function.update_of_ne hbinary,
        Function.update_of_ne htype]
      exact ⟨.other, rfl, by decide⟩

variable {host write} in
/-- The text handler leaves the tables as they are. -/
theorem Installed.congr {world next : World Unit V Handler} (hinstalled : Installed world)
    (htables : next.Tables) (hhandlers : next.packetHandlers = world.packetHandlers)
    (hdefault : next.defaultPacketHandler = world.defaultPacketHandler) : Installed next := by
  have hfind : next.findHandler = world.findHandler := by
    funext type
    unfold World.findHandler
    rw [hhandlers, hdefault]
  refine ⟨htables, ?_, ?_⟩
  · rw [hfind]
    exact hinstalled.text
  · rw [hfind]
    exact hinstalled.other

/-- The text handler sends the answer on the session it is called for. -/
theorem callTextHandler {world : World Unit V Handler} {id : ℕ} (hid : id < world.created)
    (packet : Packet) :
    (application host write).callPacketHandler .text id packet world =
      .returned ((world.record id (.packet .text packet)).send host id (responsePacket packet)
        (write id packet (world.record id (.packet .text packet)))) := by
  have hrun (call : WriteCall) : Call.run host (world.record id (.packet .text packet))
      (.send id (responsePacket packet) call) =
        (world.record id (.packet .text packet)).send host id (responsePacket packet) call :=
    if_pos hid
  change Outcome.returned { Call.run host (world.record id (.packet .text packet))
    (.send id (responsePacket packet) _) with memory := () } = _
  rw [hrun]

/-! ## One session -/

/-- What was posted on a session: answers to what was heard, in order, and heartbeats; and as long
as it is open, answers to all of it, if `uv_write` accepts them. -/
structure Answers (heard : List Packet) (core : Session.Core) (packets : List Packet) : Prop where
  carries : Carries host core.socket packets
  known : ∀ packet ∈ packets, packet.type ≠ .text → packet = Session.heartbeatPacket
  answered : (texts packets).Sublist ((texts heard).map responsePacket)
  complete : Accepts write → core.isClosing = false →
    texts packets = (texts heard).map responsePacket

/-- Something was posted on the session that answers what was heard. -/
def Answered (heard : List Packet) (core : Session.Core) : Prop :=
  ∃ packets, Answers host write heard core packets

namespace Answered

variable {host write} {heard : List Packet} {core next : Session.Core}

theorem accept : Answered host write [] .accept :=
  ⟨[], .of_idle rfl, List.forall_mem_nil _, List.Sublist.refl _, fun _ _ ↦ rfl⟩

/-- Heartbeats, and whatever posts nothing, change nothing. -/
theorem beats (hanswered : Answered host write heard core) {beats : List Packet}
    (hbeats : ∀ beat ∈ beats, beat = Session.heartbeatPacket)
    (hposts : Session.Posts host beats core next) : Answered host write heard next := by
  obtain ⟨packets, hanswers⟩ := hanswered
  have htexts : texts beats = [] := by
    rw [texts, List.filter_eq_nil_iff]
    intro beat hbeat
    rw [hbeats beat hbeat]
    decide
  have hsame : texts (packets ++ beats) = texts packets := by
    rw [texts_append, htexts, List.append_nil]
  refine ⟨packets ++ beats, hposts.carries hanswers.carries, fun packet hpacket htype ↦ ?_, ?_,
    fun haccepts hopen ↦ ?_⟩
  · rcases List.mem_append.mp hpacket with hold | hnew
    · exact hanswers.known packet hold htype
    · exact hbeats packet hnew
  · rw [hsame]
    exact hanswers.answered
  · rw [hsame]
    apply hanswers.complete haccepts
    by_contra hclosing
    have hnext := hposts.isClosing (Bool.eq_true_of_not_eq_false hclosing)
    rw [hopen] at hnext
    cases hnext

theorem quiet (hanswered : Answered host write heard core)
    (hposts : Session.Posts host [] core next) : Answered host write heard next :=
  hanswered.beats (List.forall_mem_nil _) hposts

/-- A packet that is no text needs no answer. -/
theorem hear (hanswered : Answered host write heard core) {packet : Packet}
    (htype : packet.type ≠ .text) : Answered host write (heard ++ [packet]) core := by
  have hsame : texts (heard ++ [packet]) = texts heard := by
    rw [texts_append, texts, texts, List.filter_cons_of_neg (by simpa using htype),
      List.filter_nil, List.append_nil]
  obtain ⟨packets, hanswers⟩ := hanswered
  refine ⟨packets, hanswers.carries, hanswers.known, ?_, ?_⟩
  · rw [hsame]
    exact hanswers.answered
  · rw [hsame]
    exact hanswers.complete

/-- A text packet is answered, unless the session is closing or `uv_write` fails. -/
theorem respond (hanswered : Answered host write heard core) {packet : Packet}
    (htype : packet.type = .text) (id : ℕ) (world : World Unit V Handler)
    (heap : Memory UInt8) :
    Answered host write (heard ++ [packet])
      (core.send host (responsePacket packet) (write id packet world) heap).2 := by
  obtain ⟨packets, hanswers⟩ := hanswered
  have hposts := Session.Posts.send host core (responsePacket packet) (write id packet world) heap
  have hheard : (texts (heard ++ [packet])).map responsePacket =
      (texts heard).map responsePacket ++ [responsePacket packet] := by
    rw [texts_append, List.map_append]
    congr 1
    rw [texts, List.filter_cons_of_pos (by simpa using htype)]
    rfl
  have hresponse : texts [responsePacket packet] = [responsePacket packet] := rfl
  refine ⟨_, hposts.carries hanswers.carries, ?_, ?_, fun haccepts hopen ↦ ?_⟩
  · intro posted hposted hother
    rcases List.mem_append.mp hposted with hold | hnew
    · exact hanswers.known posted hold hother
    · split at hnew
      · cases hnew
      · rw [List.mem_singleton.mp hnew] at hother
        exact absurd rfl hother
  · rw [texts_append, hheard]
    apply hanswers.answered.append
    split
    · exact List.nil_sublist _
    · rw [hresponse]
  · have hcore : core.isClosing = false := by
      by_contra hclosing
      have hnext := hposts.isClosing (Bool.eq_true_of_not_eq_false hclosing)
      rw [hopen] at hnext
      cases hnext
    have haccepted : ¬ (core.isClosing ∨ (write id packet world).result ≠ 0) := by
      rw [hcore]
      exact not_or.mpr ⟨Bool.false_ne_true, not_not.mpr (haccepts id packet world)⟩
    rw [if_neg haccepted, texts_append, hheard, hresponse, hanswers.complete haccepts hcore]

end Answered

/-! ## All sessions -/

/-- Every session has answered what it has heard, and the handlers are as `main` has set them. -/
structure AnswersAll (heard : ℕ → List Packet) (world : World Unit V Handler) : Prop where
  installed : Installed world
  unheard : ∀ id, world.created ≤ id → heard id = []
  answered : ∀ id, Answered host write (heard id) (world.slot id).core

variable {host write} {heard : ℕ → List Packet} {world next : World Unit V Handler}

theorem answersAll_setUp (memory : Unit) :
    AnswersAll host write (fun _ ↦ [])
      ((setUp : List (Call V Handler)).foldl (Call.run host) (.initial memory)) where
  installed := installed_setUp host memory
  unheard _ _ := rfl
  answered _ := .accept

namespace AnswersAll

/-- One session goes on, and the tables stay. -/
theorem setSlot (hanswers : AnswersAll host write heard world) {id : ℕ} {slot : Slot V Handler}
    (hinterceptors : slot.interceptorManager = (world.slot id).interceptorManager)
    (hhandlers : slot.packetHandlers = (world.slot id).packetHandlers)
    (hslot : Answered host write (heard id) slot.core) :
    AnswersAll host write heard (world.setSlot id slot) where
  installed := hanswers.installed.congr
    (hanswers.installed.tables.setSlot id
      (hinterceptors.trans (hanswers.installed.tables id).1)
      (hhandlers.trans (hanswers.installed.tables id).2)) rfl rfl
  unheard := hanswers.unheard
  answered := World.forall_setSlot (fun id slot ↦ Answered host write (heard id) slot.core)
    hanswers.answered id hslot

theorem setCore (hanswers : AnswersAll host write heard world) {id : ℕ} {core : Session.Core}
    (hcore : Answered host write (heard id) core) :
    AnswersAll host write heard (world.setCore id core) :=
  hanswers.setSlot rfl rfl hcore

/-- What concerns neither the sessions nor the tables changes nothing. -/
theorem congr (hanswers : AnswersAll host write heard world) (hslot : next.slot = world.slot)
    (hcreated : next.created = world.created)
    (hhandlers : next.packetHandlers = world.packetHandlers)
    (hdefault : next.defaultPacketHandler = world.defaultPacketHandler) :
    AnswersAll host write heard next where
  installed := by
    refine hanswers.installed.congr ?_ hhandlers hdefault
    intro id
    rw [hslot]
    exact hanswers.installed.tables id
  unheard := by
    rw [hcreated]
    exact hanswers.unheard
  answered := by
    rw [hslot]
    exact hanswers.answered

/-- A connection brings a session that has heard nothing. -/
theorem create (hanswers : AnswersAll host write heard world) (readResult : ℤ) :
    AnswersAll host write heard (world.create readResult) where
  installed := hanswers.installed.congr (hanswers.installed.tables.create readResult) rfl rfl
  unheard id hid := hanswers.unheard id (Nat.le_of_succ_le hid)
  answered := by
    refine World.forall_setSlot (fun id slot ↦ Answered host write (heard id) slot.core)
      hanswers.answered world.created ?_
    rw [hanswers.unheard world.created le_rfl]
    exact Answered.accept.quiet (.start host .accept world.now readResult)

/-- The reaction of a handler that makes no call. -/
theorem react_nil (hanswers : AnswersAll host write heard world)
    (hreact : (application host write).react ⟨[], (), none⟩ world = .returned next) :
    AnswersAll host write heard next := by
  cases hreact
  exact hanswers.congr rfl rfl rfl rfl

/-- A step that brings no packet posts heartbeats at most. -/
theorem step_other (hanswers : AnswersAll host write heard world) {event : Event V Handler}
    (hruns : Runs event) (hreceived : event.received? = none)
    (hstep : step (application host write) world event = some next) :
    AnswersAll host write heard next := by
  unfold step at hstep
  split at hstep
  · rw [Outcome.returned?_eq_some] at hstep
    cases event with
    | call call => exact absurd rfl (hruns call)
    | onConnection status readResult =>
      change onConnection (application host write) status readResult world = .returned next at hstep
      unfold onConnection at hstep
      split at hstep
      · cases hstep
        exact hanswers
      · have hrecord : AnswersAll host write heard
            ((world.create readResult).record world.created .connect) :=
          (hanswers.create readResult).congr rfl rfl rfl rfl
        exact hrecord.react_nil hstep
    | onRead id nread base =>
      change onRead (application host write) id nread base world = .returned next at hstep
      have hnread : ¬ 0 < nread := fun hnread ↦ by
        rw [received?_onRead hnread] at hreceived
        cases hreceived
      unfold onRead at hstep
      split_ifs at hstep
      · cases hstep
        exact hanswers.setCore ((hanswers.answered id).quiet (.close host _))
      · cases hstep
        exact hanswers
      · omega
    | onWrite id status =>
      cases hstep
      exact hanswers.setCore ((hanswers.answered id).quiet (.onWrite host _ status))
    | onClose id =>
      have hclosed : Session.Posts host [] (world.slot id).core
          { (world.slot id).core with
            socket := { (world.slot id).core.socket with
              closeReqs := (world.slot id).core.socket.closeReqs - 1 } } :=
        .none rfl fun hclosing ↦ hclosing
      have hforgotten : AnswersAll host write heard (world.forget id) :=
        (hanswers.setCore ((hanswers.answered id).quiet hclosed)).congr rfl rfl rfl rfl
      have hrecord : AnswersAll host write heard ((world.forget id).record id .close) :=
        hforgotten.congr rfl rfl rfl rfl
      exact hrecord.react_nil hstep
    | onHeartbeatTimer id write =>
      cases hstep
      obtain ⟨beats, hbeats, hposts⟩ := Session.Posts.tick host (world.slot id).core write world.now
        world.heap
      exact (hanswers.setCore ((hanswers.answered id).beats hbeats hposts)).congr rfl rfl rfl rfl
    | transmit id count =>
      cases hstep
      exact hanswers.setCore ((hanswers.answered id).quiet (.transmit host _ world.heap count))
    | elapse milliseconds =>
      cases hstep
      exact hanswers.congr rfl rfl rfl rfl
  · cases hstep

/-- One session has heard one packet more, and has answered it. -/
theorem hear (hanswers : AnswersAll host write heard world) {id : ℕ} (hid : id < world.created)
    {packet : Packet} {core : Session.Core}
    (hcore : Answered host write (heard id ++ [packet]) core) :
    AnswersAll host write (Function.update heard id (heard id ++ [packet]))
      (world.setCore id core) where
  installed := hanswers.installed.congr
    (hanswers.installed.tables.setCore id core) rfl rfl
  unheard other hother := by
    have hne : other ≠ id := fun heq ↦ absurd (heq ▸ hid) (Nat.not_lt.mpr hother)
    rw [Function.update_of_ne hne]
    exact hanswers.unheard other hother
  answered other := by
    change Answered host write _ (Function.update world.slot id _ other).core
    by_cases heq : other = id
    · subst heq
      rw [Function.update_self, Function.update_self]
      exact hcore
    · rw [Function.update_of_ne heq, Function.update_of_ne heq]
      exact hanswers.answered other

/-- A packet that is no text is heard, and nothing else happens to the sessions. -/
theorem hear_other (hanswers : AnswersAll host write heard world) {id : ℕ}
    (hid : id < world.created) {packet : Packet} (htype : packet.type ≠ .text) :
    AnswersAll host write (Function.update heard id (heard id ++ [packet])) world := by
  refine (hanswers.hear hid ((hanswers.answered id).hear htype)).congr ?_ rfl rfl rfl
  exact (Function.update_eq_self id world.slot).symm

/-- A packet is handled: a text packet is answered, a heartbeat noted, any other packet let be. -/
theorem dispatch (hanswers : AnswersAll host write heard world) {id : ℕ}
    (hid : id < world.created) {packet : Packet}
    (hdispatch : (application host write).dispatch id packet world = .returned next) :
    AnswersAll host write (Function.update heard id (heard id ++ [packet])) next := by
  by_cases hheartbeat : packet.type = .heartbeat
  · rw [dispatch_of_heartbeat id hheartbeat] at hdispatch
    cases hdispatch
    have htype : packet.type ≠ .text := by
      rw [hheartbeat]
      decide
    have hnoted : Session.Posts host [] (world.slot id).core
        { (world.slot id).core with lastHeartbeatTime := world.now } :=
      .none rfl fun hclosing ↦ hclosing
    exact hanswers.hear hid (((hanswers.answered id).quiet hnoted).hear htype)
  rw [dispatch_of_ne hanswers.installed.tables id hheartbeat, serverTables_eq] at hdispatch
  by_cases htype : packet.type = .text
  · rw [htype, hanswers.installed.text] at hdispatch
    change (application host write).callPacketHandler .text id packet world = .returned next
      at hdispatch
    rw [callTextHandler host write hid] at hdispatch
    cases hdispatch
    exact (hanswers.hear hid ((hanswers.answered id).respond htype id _ world.heap)).congr
      rfl rfl rfl rfl
  · obtain ⟨handler, hhandler, hne⟩ := hanswers.installed.other packet.type htype
    rw [hhandler] at hdispatch
    have hrecord : AnswersAll host write (Function.update heard id (heard id ++ [packet]))
        (world.record id (.packet handler packet)) :=
      (hanswers.hear_other hid htype).congr rfl rfl rfl rfl
    cases handler with
    | text => exact absurd rfl hne
    | binary | heartbeat | other => exact hrecord.react_nil hdispatch

end AnswersAll

/-- The program answers each text packet as it hears it. -/
theorem answersAll_invariant :
    HeardInvariant (application host write) Runs (AnswersAll host write) where
  other hruns hreceived hstep hanswers := hanswers.step_other hruns hreceived hstep
  packet hid hdispatch hanswers := hanswers.dispatch hid hdispatch
  buffer _ hanswers := hanswers.setSlot rfl rfl (hanswers.answered _)

end TestServer

end LibuvNet
