import LibuvNet.Endpoint.Posting
import LibuvNet.Server.Keeping
import LibuvNet.Server.Registry
import Mathlib.Data.List.Nodup

/-!
# What is only broadcast

`Server::broadcast` sends a packet to the sessions in `sessions_`, one after the other.  If user
code sends packets of one kind in no other way and `uv_write` accepts each of them, there is one log
of these packets such that every session has been sent a part of it without a gap, and the end of
it while it is not closing: a session joins when it is accepted and misses nothing until it closes.
-/

namespace LibuvNet

open Foundation

namespace Server

variable {U V H : Type*} {kind : Packet → Bool}

/-- Packets of the kind are sent by broadcasts only, which `uv_write` accepts. -/
def Call.Announces (kind : Packet → Bool) : Call V H → Prop
  | .send _ packet _ => kind packet = false
  | .broadcast packet writes => kind packet = true → ∀ id, (writes id).result = 0
  | _ => True

/-- The session is neither closed nor closing. -/
def World.Live (world : World U V H) (id : ℕ) : Prop :=
  id < world.created ∧ (world.slot id).core.isClosing = false

/-- Every live session is registered and has been sent the end of the log. -/
structure Agreed (host : Host) (kind : Packet → Bool) (log : List Packet)
    (world : World U V H) : Prop where
  nodup : world.sessions.Nodup
  known : ∀ id ∈ world.sessions, id < world.created
  present : ∀ id, world.Live id → id ∈ world.sessions
  told : ∀ id < world.created, ∃ packets, Carries host (world.slot id).core.socket packets ∧
    packets.filter kind <:+: log ∧ (world.Live id → packets.filter kind <:+ log)

/-- Nothing of the kind is posted from one world to the other. -/
def Aside (host : Host) (kind : Packet → Bool) (world next : World U V H) : Prop :=
  ∀ id, ∃ packets, packets.filter kind = [] ∧
    Session.Posts host packets (world.slot id).core (next.slot id).core

namespace Aside

variable {host : Host} {world next last : World U V H}

theorem of_slot (hslot : ∀ id, (next.slot id).core = (world.slot id).core) :
    Aside host kind world next := by
  intro id
  rw [hslot]
  exact ⟨[], List.filter_nil, .refl host _⟩

theorem trans (hfirst : Aside host kind world next) (hsecond : Aside host kind next last) :
    Aside host kind world last := by
  intro id
  obtain ⟨packets, hpackets, hposts⟩ := hfirst id
  obtain ⟨more, hmore, hlast⟩ := hsecond id
  refine ⟨packets ++ more, ?_, hposts.trans hlast⟩
  rw [List.filter_append, hpackets, hmore, List.append_nil]

/-- One session goes on. -/
theorem setSlot {id : ℕ} {slot : Slot V H} {packets : List Packet}
    (hpackets : packets.filter kind = [])
    (hposts : Session.Posts host packets (world.slot id).core slot.core) :
    Aside host kind world (world.setSlot id slot) :=
  World.forall_setSlot (fun other slot ↦ ∃ packets : List Packet, packets.filter kind = [] ∧
      Session.Posts host packets (world.slot other).core slot.core)
    (fun _ ↦ ⟨[], List.filter_nil, .refl host _⟩) id ⟨packets, hpackets, hposts⟩

theorem setCore {id : ℕ} {core : Session.Core}
    (hposts : Session.Posts host [] (world.slot id).core core) :
    Aside host kind world (world.setCore id core) :=
  setSlot List.filter_nil hposts

/-- A packet of another kind is sent. -/
theorem send (world : World U V H) (id : ℕ) {packet : Packet} (hpacket : kind packet = false)
    (write : WriteCall) : Aside host kind world (world.send host id packet write) := by
  refine setSlot ?_ (.send host (world.slot id).core packet write world.heap)
  split <;> simp [hpacket]

theorem broadcast (world : World U V H) {packet : Packet} (hpacket : kind packet = false)
    (writes : ℕ → WriteCall) : Aside host kind world (world.broadcast host packet writes) := by
  have hfold (sessions : List ℕ) (world : World U V H) : Aside host kind world
      (sessions.foldl (fun world id ↦ world.send host id packet (writes id)) world) := by
    induction sessions generalizing world with
    | nil => exact .of_slot fun _ ↦ rfl
    | cons first sessions ih => exact (send world first hpacket (writes first)).trans (ih _)
  exact hfold world.sessions world

end Aside

/-! ## A broadcast -/

/-- Each session of a list without duplicates is sent the packet once, unless it is closing. -/
theorem posts_sends (host : Host) (packet : Packet) {writes : ℕ → WriteCall}
    (haccepts : ∀ id, (writes id).result = 0) {sessions : List ℕ} (hnodup : sessions.Nodup)
    (world : World U V H) (id : ℕ) :
    Session.Posts host
      (if id ∈ sessions ∧ (world.slot id).core.isClosing = false then [packet] else [])
      (world.slot id).core
      ((sessions.foldl (fun world id ↦ world.send host id packet (writes id)) world).slot
        id).core := by
  induction sessions generalizing world with
  | nil =>
    rw [if_neg (by simp)]
    exact .refl host _
  | cons first sessions ih =>
    obtain ⟨hnot, hlater⟩ := List.nodup_cons.mp hnodup
    have hrest := ih hlater (world.send host first packet (writes first))
    rw [List.foldl_cons]
    by_cases heq : id = first
    · subst heq
      have hsent : ((world.send host id packet (writes id)).slot id).core =
          ((world.slot id).core.send host packet (writes id) world.heap).2 := by
        change (Function.update world.slot id _ id).core = _
        rw [Function.update_self]
      rw [if_neg (fun hmem ↦ hnot hmem.1), hsent] at hrest
      have hfirst := Session.Posts.send host (world.slot id).core packet (writes id) world.heap
      rw [haccepts id] at hfirst
      have hboth := hfirst.trans hrest
      rw [List.append_nil] at hboth
      convert hboth using 1
      by_cases hclosing : (world.slot id).core.isClosing = true
      · simp [hclosing]
      · simp [hclosing]
    · have hsame : ((world.send host first packet (writes first)).slot id).core =
          (world.slot id).core := by
        change (Function.update world.slot first _ id).core = _
        rw [Function.update_of_ne heq]
      rw [hsame] at hrest
      simpa [heq] using hrest

namespace Agreed

variable {host : Host} {log : List Packet} {world next : World U V H}

/-- What posts nothing of the kind leaves the log alone. -/
theorem aside (hagreed : Agreed host kind log world) (hsessions : next.sessions = world.sessions)
    (hcreated : next.created = world.created) (haside : Aside host kind world next) :
    Agreed host kind log next := by
  have hlive (id : ℕ) (hlive : next.Live id) : world.Live id := by
    obtain ⟨packets, -, hposts⟩ := haside id
    refine ⟨hcreated ▸ hlive.1, ?_⟩
    by_contra hclosing
    have hnext := hposts.isClosing (Bool.eq_true_of_not_eq_false hclosing)
    rw [hlive.2] at hnext
    cases hnext
  constructor
  · exact hsessions ▸ hagreed.nodup
  · rw [hsessions, hcreated]
    exact hagreed.known
  · intro id hid
    rw [hsessions]
    exact hagreed.present id (hlive id hid)
  · intro id hid
    obtain ⟨packets, hcarries, hpart, hend⟩ := hagreed.told id (hcreated ▸ hid)
    obtain ⟨more, hmore, hposts⟩ := haside id
    refine ⟨packets ++ more, hposts.carries hcarries, ?_⟩
    rw [List.filter_append, hmore, List.append_nil]
    exact ⟨hpart, fun hopen ↦ hend (hlive id hopen)⟩

/-- A packet of the kind that is broadcast goes to the end of the log. -/
theorem announce (hagreed : Agreed host kind log world) {packet : Packet}
    (hpacket : kind packet = true) {writes : ℕ → WriteCall}
    (haccepts : ∀ id, (writes id).result = 0) :
    Agreed host kind (log ++ [packet]) (world.broadcast host packet writes) := by
  have hserves := Serves.broadcast 0 world host packet writes
  have hposts (id : ℕ) : Session.Posts host
      (if id ∈ world.sessions ∧ (world.slot id).core.isClosing = false then [packet] else [])
      (world.slot id).core ((world.broadcast host packet writes).slot id).core :=
    posts_sends host packet haccepts hagreed.nodup world id
  have hlive (id : ℕ) (hlive : (world.broadcast host packet writes).Live id) : world.Live id := by
    refine ⟨hserves.created ▸ hlive.1, ?_⟩
    by_contra hclosing
    have hnext := (hposts id).isClosing (Bool.eq_true_of_not_eq_false hclosing)
    rw [hlive.2] at hnext
    cases hnext
  constructor
  · exact hserves.sessions ▸ hagreed.nodup
  · rw [hserves.sessions, hserves.created]
    exact hagreed.known
  · intro id hid
    rw [hserves.sessions]
    exact hagreed.present id (hlive id hid)
  · intro id hid
    rw [hserves.created] at hid
    obtain ⟨packets, hcarries, hpart, hend⟩ := hagreed.told id hid
    have hpost := hposts id
    by_cases hopen : (world.slot id).core.isClosing = false
    · have hworld : world.Live id := ⟨hid, hopen⟩
      obtain ⟨before, hbefore⟩ := hend hworld
      rw [if_pos ⟨hagreed.present id hworld, hopen⟩] at hpost
      have hnext : (packets ++ [packet]).filter kind <:+ log ++ [packet] := by
        refine ⟨before, ?_⟩
        rw [List.filter_append, ← List.append_assoc, hbefore]
        simp [hpacket]
      exact ⟨_, hpost.carries hcarries, hnext.isInfix, fun _ ↦ hnext⟩
    · rw [if_neg (fun hboth ↦ hopen hboth.2)] at hpost
      have hsame := hpost.carries hcarries
      rw [List.append_nil] at hsame
      exact ⟨packets, hsame, hpart.trans (List.prefix_append _ _).isInfix,
        fun hnext ↦ absurd (hlive id hnext).2 hopen⟩

/-- A connection brings a session that was sent nothing. -/
theorem create (hagreed : Agreed host kind log world) (readResult : ℤ) :
    Agreed host kind log ((world.create readResult).record world.created .connect) where
  nodup := by
    apply hagreed.nodup.append (List.nodup_singleton _)
    intro id hmem hnew
    exact absurd (hagreed.known id hmem) (List.mem_singleton.mp hnew ▸ lt_irrefl _)
  known id hmem := by
    rcases List.mem_append.mp hmem with hold | hnew
    · exact Nat.lt_succ_of_lt (hagreed.known id hold)
    · rw [List.mem_singleton.mp hnew]
      exact Nat.lt_succ_self world.created
  present id hid := by
    rcases Nat.lt_succ_iff_lt_or_eq.mp hid.1 with hlt | rfl
    · have hopen := hid.2
      change (Function.update world.slot world.created _ id).core.isClosing = false at hopen
      rw [Function.update_of_ne hlt.ne] at hopen
      exact List.mem_append_left _ (hagreed.present id ⟨hlt, hopen⟩)
    · exact List.mem_append_right _ (List.mem_singleton_self _)
  told id hid := by
    unfold World.Live
    change ∃ packets, Carries host (Function.update world.slot world.created _ id).core.socket
      packets ∧ _ ∧ (_ ∧ (Function.update world.slot world.created _ id).core.isClosing = false →
        _)
    rcases Nat.lt_succ_iff_lt_or_eq.mp hid with hlt | rfl
    · rw [Function.update_of_ne hlt.ne]
      obtain ⟨packets, hcarries, hpart, hend⟩ := hagreed.told id hlt
      exact ⟨packets, hcarries, hpart, fun hopen ↦ hend ⟨hlt, hopen.2⟩⟩
    · rw [Function.update_self]
      have hposts := Session.Posts.start host .accept world.now readResult
      exact ⟨[], hposts.carries (.of_idle rfl), List.nil_infix, fun _ ↦ List.nil_suffix⟩

/-- A close callback takes a session out of the registry that has been closing. -/
theorem forget (hagreed : Agreed host kind log world) {closed : ℕ}
    (hclosing : (world.slot closed).core.isClosing = true) :
    Agreed host kind log ((world.forget closed).record closed .close) := by
  have hcore (id : ℕ) : (((world.forget closed).record closed .close).slot id).core.isClosing =
        (world.slot id).core.isClosing ∧
      (((world.forget closed).record closed .close).slot id).core.socket.writer =
        (world.slot id).core.socket.writer := by
    change (Function.update world.slot closed _ id).core.isClosing = _ ∧
      (Function.update world.slot closed _ id).core.socket.writer = _
    by_cases heq : id = closed
    · subst heq
      rw [Function.update_self]
      exact ⟨rfl, rfl⟩
    · rw [Function.update_of_ne heq]
      exact ⟨rfl, rfl⟩
  have hlive (id : ℕ) (hid : ((world.forget closed).record closed .close).Live id) :
      world.Live id := ⟨hid.1, (hcore id).1 ▸ hid.2⟩
  constructor
  · exact hagreed.nodup.filter _
  · exact fun id hmem ↦ hagreed.known id (List.mem_of_mem_filter hmem)
  · intro id hid
    refine List.mem_filter.mpr ⟨hagreed.present id (hlive id hid), ?_⟩
    simp only [ne_eq, decide_not, Bool.not_eq_eq_eq_not, Bool.not_true, decide_eq_false_iff_not]
    rintro rfl
    rw [(hlive id hid).2] at hclosing
    cases hclosing
  · intro id hid
    obtain ⟨packets, hcarries, hpart, hend⟩ := hagreed.told id hid
    exact ⟨packets, hcarries.congr (congrArg Writer.accepted (hcore id).2), hpart,
      fun hopen ↦ hend (hlive id hopen)⟩

end Agreed

/-! ## Steps -/

/-- The sessions agree on a log that goes on from the given one. -/
def World.Agrees (host : Host) (kind : Packet → Bool) (past : List Packet)
    (world : World U V H) : Prop :=
  ∃ log, past <+: log ∧ Agreed host kind log world

theorem agreed_initial (host : Host) (kind : Packet → Bool) (memory : U) :
    Agreed host kind [] (World.initial memory : World U V H) where
  nodup := List.nodup_nil
  known := List.forall_mem_nil _
  present id hid := absurd hid.1 (Nat.not_lt_zero id)
  told id hid := absurd hid (Nat.not_lt_zero id)

theorem World.Agrees.aside {host : Host} {past : List Packet} {world next : World U V H}
    (hagrees : world.Agrees host kind past) (hsessions : next.sessions = world.sessions)
    (hcreated : next.created = world.created) (haside : Aside host kind world next) :
    next.Agrees host kind past := by
  obtain ⟨log, hpast, hagreed⟩ := hagrees
  exact ⟨log, hpast, hagreed.aside hsessions hcreated haside⟩

/-- No call breaks the agreement that leaves the packets of the kind to broadcasts. -/
theorem kept_agrees (host : Host) (kind : Packet → Bool) (past : List Packet) :
    Kept host (Call.Announces kind) fun world : World U V H ↦ world.Agrees host kind past where
  run {world} call hannounces hworld := by
    have hguarded {id : ℕ} {next : World U V H} (hnext : next.Agrees host kind past) :
        (if id < world.created then next else world).Agrees host kind past := by
      split
      · exact hnext
      · exact hworld
    cases call with
    | close id => exact hguarded (hworld.aside rfl rfl (.setCore (.close host _)))
    | send id packet write =>
      exact hguarded (hworld.aside rfl rfl (.send world id hannounces write))
    | start id readResult =>
      exact hguarded (hworld.aside rfl rfl (.setCore (.start host _ world.now readResult)))
    | stop id => exact hguarded (hworld.aside rfl rfl (.setCore (.stop host _)))
    | broadcast packet writes =>
      have hserves := Serves.broadcast 0 world host packet writes
      by_cases hpacket : kind packet = true
      · obtain ⟨log, hpast, hagreed⟩ := hworld
        exact ⟨_, hpast.trans (List.prefix_append _ _),
          hagreed.announce hpacket (hannounces hpacket)⟩
      · exact hworld.aside hserves.sessions hserves.created
          (.broadcast world (Bool.eq_false_of_not_eq_true hpacket) writes)
    | setPacketHandler type handler => exact hworld.aside rfl rfl (.of_slot fun _ ↦ rfl)
    | setDefaultPacketHandler handler => exact hworld.aside rfl rfl (.of_slot fun _ ↦ rfl)
    | setSessionPacketHandler id type handler =>
      exact hguarded (hworld.aside rfl rfl (.setSlot List.filter_nil (.refl host _)))
    | addInterceptor id interceptor =>
      exact hguarded (hworld.aside rfl rfl (.setSlot List.filter_nil (.refl host _)))
  memory _ hworld := hworld.aside rfl rfl (.of_slot fun _ ↦ rfl)
  record _ _ hworld := hworld.aside rfl rfl (.of_slot fun _ ↦ rfl)
  hear {world} id hworld := by
    have hposts : Session.Posts host [] (world.slot id).core
        { (world.slot id).core with lastHeartbeatTime := world.now } :=
      .none rfl fun hclosing ↦ hclosing
    exact hworld.aside rfl rfl (.setCore hposts)

/-- Nor does what the server does by itself, if heartbeats are of another kind. -/
theorem agrees_effect {host : Host} (hkind : kind Session.heartbeatPacket = false)
    {past : List Packet} {world : World U V H} (hregistered : Registered world)
    (hworld : world.Agrees host kind past)
    {event : Event V H} (hdue : event.Due world)
    (hcalls : ∀ call, event = .call call → call.Announces kind) :
    (event.effect host world).Agrees host kind past := by
  cases event with
  | call call => exact (kept_agrees host kind past).run call (hcalls call rfl) hworld
  | onConnection status readResult =>
    simp only [Event.effect]
    split
    · exact hworld
    · obtain ⟨log, hpast, hagreed⟩ := hworld
      exact ⟨log, hpast, hagreed.create readResult⟩
  | onRead id nread base =>
    simp only [Event.effect]
    split
    · exact hworld.aside rfl rfl (.setCore (.close host _))
    · exact hworld
  | onWrite id status => exact hworld.aside rfl rfl (.setCore (.onWrite host _ status))
  | onClose id =>
    have hguarded := hregistered.guarded id hdue.1
    have hclosing : (world.slot id).core.isClosing = true := by
      have hcalls := hguarded.closeCalls
      have hreqs := hguarded.closeReqs
      have hpending := hdue.2
      by_contra hopen
      rw [Bool.eq_false_of_not_eq_true hopen, Bool.toNat_false] at hcalls
      omega
    obtain ⟨log, hpast, hagreed⟩ := hworld
    exact ⟨log, hpast, hagreed.forget hclosing⟩
  | onHeartbeatTimer id write =>
    obtain ⟨beats, hbeats, hposts⟩ := Session.Posts.tick host (world.slot id).core write world.now
      world.heap
    have hother : beats.filter kind = [] := by
      rw [List.filter_eq_nil_iff]
      intro beat hbeat
      rw [hbeats beat hbeat, hkind]
      exact Bool.false_ne_true
    have hset : (world.setCore id
        ((world.slot id).core.tick host write world.now world.heap).2).Agrees host kind past :=
      hworld.aside rfl rfl (.setSlot hother hposts)
    exact hset.aside rfl rfl (.of_slot fun _ ↦ rfl)
  | transmit id count =>
    exact hworld.aside rfl rfl (.setCore (.transmit host _ world.heap count))
  | elapse milliseconds => exact hworld.aside rfl rfl (.of_slot fun _ ↦ rfl)

/-- A server that leaves the packets of the kind to broadcasts keeps the agreement. -/
theorem agrees_step {app : Application U V H} (hmakes : app.Makes (Call.Announces kind))
    (hkind : kind Session.heartbeatPacket = false) {log : List Packet} {world next : World U V H}
    (hregistered : Registered world) (hagreed : Agreed app.host kind log world)
    {event : Event V H} (hcalls : ∀ call, event = .call call → call.Announces kind)
    (hstep : step app world event = some next) : next.Agrees app.host kind log := by
  have hdue : event.Due world := by
    unfold step at hstep
    split at hstep
    · assumption
    · cases hstep
  have hworld : world.Agrees app.host kind log := ⟨log, List.prefix_rfl, hagreed⟩
  obtain ⟨last, hlast, rfl⟩ := (kept_agrees app.host kind log).step hmakes
    (agrees_effect hkind hregistered hworld hdue hcalls) hstep
  have hsessions : (event.buffer app.host world last).sessions = last.sessions := by
    unfold Event.buffer
    split <;> rfl
  exact hlast.aside hsessions (Event.buffer_created ..) (.of_slot fun id ↦ Event.buffer_core ..)

end Server

end LibuvNet
