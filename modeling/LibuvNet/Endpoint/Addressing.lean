import LibuvNet.Client.Lifecycle
import LibuvNet.Foundation.DottedQuad
import LibuvNet.Server.Service
import Mathlib.Data.List.TakeWhile

/-!
# Addresses

`Server::listen` and `Client::connect` turn a host and a port into an address with `uv_ip4_addr`
and do not look at what it returns.  A host that is no dotted quad becomes the wildcard address, a
host is read up to its first zero byte, and an `int` port is cut to 16 bits; the address is used
all the same.
-/

namespace LibuvNet

open Foundation

/-- `uv_inet_pton` for IPv4, as libuv documents it: it accepts dotted quads and nothing else. -/
structure InetPton where
  pton : List Char → Option Ip4
  pton_eq_some_iff : ∀ {text : List Char} {address : Ip4},
    pton text = some address ↔ text = address.dotted

/-- Reading dotted quads is such a function. -/
def InetPton.parse : InetPton := ⟨Ip4.parse, Ip4.parse_eq_some_iff⟩

/-- `struct sockaddr_in`. -/
structure SockAddr where
  address : Ip4
  port : UInt16
  deriving DecidableEq, Repr

/-- `std::string::c_str`, read as a C string. -/
def cStr (text : List Char) : List Char := text.takeWhile (· ≠ '\x00')

/-- `uv_ip4_addr`: the result and the address. -/
def uvIp4Addr (inet : InetPton) (text : List Char) (port : ℤ) : ℤ × SockAddr :=
  match inet.pton text with
  | some address => (0, ⟨address, .ofInt port⟩)
  | none => (uvEinval, ⟨.any, .ofInt port⟩)

namespace Server.Service

variable {U V H : Type*}

/-- `Server::listen(host, port)`, with the address it binds the handle to, if it does: none is bound
while the address is in use, although `uv_tcp_bind` returns 0. -/
def listenAt (service : Service U V H) (inet : InetPton) (host : List Char) (port : ℤ)
    (bindResult listenResult : ℤ) : Option SockAddr × Service U V H :=
  if service.isListening then (none, service)
  else
    let addr := (uvIp4Addr inet (cStr host) port).2
    let (result, server) := service.server.bind bindResult
    if result ≠ 0 then (none, { service with server := server })
    else
      let bound := if server = .bound then some addr else none
      let (result, server) := server.listen listenResult
      if result ≠ 0 then (bound, { service with server := server })
      else (bound, { service with server := server, isListening := true })

/-- Apart from the address this is `listen`. -/
theorem listenAt_snd (service : Service U V H) (inet : InetPton) (host : List Char) (port : ℤ)
    (bindResult listenResult : ℤ) :
    (service.listenAt inet host port bindResult listenResult).2 =
      service.listen bindResult listenResult := by
  unfold listenAt listen
  simp only
  split_ifs <;> rfl

/-- `listen` binds nothing: the server listens already, its handle cannot be bound any more, or the
address cannot be bound, being in use or for another reason. -/
def BindsNothing (service : Service U V H) (bindResult : ℤ) : Prop :=
  service.isListening ∨ ¬ service.server.Bindable ∨ bindResult ≠ 0

instance (service : Service U V H) (bindResult : ℤ) :
    Decidable (service.BindsNothing bindResult) := by
  unfold BindsNothing
  infer_instance

theorem listenAt_fst (service : Service U V H) (inet : InetPton) (host : List Char) (port : ℤ)
    (bindResult listenResult : ℤ) :
    (service.listenAt inet host port bindResult listenResult).1 =
      if service.BindsNothing bindResult then none
      else some (uvIp4Addr inet (cStr host) port).2 := by
  unfold listenAt BindsNothing ListenPhase.bind
  by_cases hlistening : service.isListening
  · simp [hlistening]
  by_cases hbindable : service.server.Bindable
  · by_cases hbind : bindResult = 0
    · subst hbind
      have hfree : (0 : ℤ) ≠ uvEaddrinuse := by decide
      simp only [hlistening, hbindable, hfree, ne_eq, not_true_eq_false, Bool.false_eq_true,
        if_false, if_true, or_self]
      split_ifs <;> rfl
    · by_cases hinUse : bindResult = uvEaddrinuse
      · simp only [hlistening, hbindable, hinUse, not_true_eq_false, Bool.false_eq_true, if_false,
          if_true, reduceCtorEq]
        simp [uvEaddrinuse, ListenPhase.listen]
      · simp [hlistening, hbindable, hbind, hinUse]
  · simp [hlistening, hbindable, uvEinval]

end Server.Service

namespace Client.Core

variable {U : Type*}

/-- `Client::connect(host, port)`, with the address it starts a connection to, if it does. -/
def connectTo (core : Core U) (inet : InetPton) (host : List Char) (port : UInt16)
    (initResult connectResult : ℤ) : Option SockAddr × Bool × Core U :=
  if core.isConnected ∨ core.isConnecting then (none, false, core)
  else
    match core.initSocket initResult with
    | (false, core) => (none, false, core)
    | (true, core) =>
      let addr := (uvIp4Addr inet (cStr host) port.toNat).2
      if connectResult ≠ 0 then (none, false, { core with isConnecting := false })
      else (some addr, true, { core with socket := core.socket.connect, isConnecting := true })

/-- Apart from the address this is `connect`. -/
theorem connectTo_snd (core : Core U) (inet : InetPton) (host : List Char) (port : UInt16)
    (initResult connectResult : ℤ) :
    (core.connectTo inet host port initResult connectResult).2 =
      core.connect initResult connectResult := by
  unfold connectTo connect
  by_cases hbusy : core.isConnected ∨ core.isConnecting
  · rw [if_pos hbusy, if_pos hbusy]
  · rw [if_neg hbusy, if_neg hbusy]
    rcases core.initSocket initResult with ⟨_ | _, next⟩
    · rfl
    · simp only
      split_ifs <;> rfl

/-- `connect` starts nothing: it is busy, or one of its calls of libuv fails. -/
def StartsNothing (core : Core U) (initResult connectResult : ℤ) : Prop :=
  core.isConnected ∨ core.isConnecting ∨ core.socket.active ∨ initResult ≠ 0 ∨ connectResult ≠ 0

instance (core : Core U) (initResult connectResult : ℤ) :
    Decidable (core.StartsNothing initResult connectResult) := by
  unfold StartsNothing
  infer_instance

theorem connectTo_of_startsNothing {core : Core U} {initResult connectResult : ℤ}
    (hnothing : core.StartsNothing initResult connectResult) (inet : InetPton) (host : List Char)
    (port : UInt16) :
    (core.connectTo inet host port initResult connectResult).1 = none ∧
      (core.connectTo inet host port initResult connectResult).2.1 = false := by
  unfold connectTo
  by_cases hbusy : core.isConnected ∨ core.isConnecting
  · rw [if_pos hbusy]
    exact ⟨rfl, rfl⟩
  rw [if_neg hbusy]
  unfold initSocket
  by_cases hactive : core.socket.active
  · rw [if_pos hactive]
    split_ifs <;> exact ⟨rfl, rfl⟩
  rw [if_neg hactive]
  by_cases hinit : initResult ≠ 0
  · rw [if_pos hinit]
    exact ⟨rfl, rfl⟩
  · have hconnect : connectResult ≠ 0 := by
      obtain hconnected | hconnecting | hactive' | hinit' | hconnect := hnothing
      · exact absurd (.inl hconnected) hbusy
      · exact absurd (.inr hconnecting) hbusy
      · exact absurd hactive' hactive
      · exact absurd hinit' hinit
      · exact hconnect
    rw [if_neg hinit]
    simp only [if_pos hconnect, and_self]

theorem connectTo_of_starts {core : Core U} {initResult connectResult : ℤ}
    (hstarts : ¬ core.StartsNothing initResult connectResult) (inet : InetPton)
    (host : List Char) (port : UInt16) :
    (core.connectTo inet host port initResult connectResult).1 =
        some (uvIp4Addr inet (cStr host) port.toNat).2 ∧
      (core.connectTo inet host port initResult connectResult).2.1 = true := by
  unfold StartsNothing at hstarts
  push Not at hstarts
  obtain ⟨hconnected, hconnecting, hactive, hinit, hconnect⟩ := hstarts
  unfold connectTo initSocket
  simp [hconnected, hconnecting, hactive, hinit, hconnect]

end Client.Core

/-! ## The address that was asked for -/

/-- The host is this address in dotted-decimal form, and the port is this port. -/
def Requests (host : List Char) (port : ℤ) (addr : SockAddr) : Prop :=
  host = addr.address.dotted ∧ port = addr.port.toNat

/-- The host is a dotted quad and the port has 16 bits. -/
def Addressable (host : List Char) (port : ℤ) : Prop :=
  (∃ address : Ip4, host = address.dotted) ∧ 0 ≤ port ∧ port < 2 ^ 16

instance (host : List Char) (port : ℤ) (addr : SockAddr) : Decidable (Requests host port addr) := by
  unfold Requests
  infer_instance

theorem Requests.addressable {host : List Char} {port : ℤ} {addr : SockAddr}
    (hrequests : Requests host port addr) : Addressable host port := by
  obtain ⟨hhost, hport⟩ := hrequests
  have hlt := addr.port.toNat_lt
  exact ⟨⟨addr.address, hhost⟩, by omega, by omega⟩

/-- A dotted quad has no zero byte. -/
theorem cStr_dotted (address : Ip4) : cStr address.dotted = address.dotted := by
  apply List.takeWhile_eq_self_iff.mpr
  intro char hchar
  have hne : char ≠ '\x00' := by
    rintro rfl
    rcases Ip4.isDigit_or_dot hchar with hdigit | hdot
    · exact absurd hdigit (by decide)
    · exact absurd hdot (by decide)
  exact decide_eq_true hne

theorem Addressable.requests {host : List Char} {port : ℤ} (haddressable : Addressable host port)
    (inet : InetPton) : Requests host port (uvIp4Addr inet (cStr host) port).2 := by
  obtain ⟨⟨address, rfl⟩, hnonneg, hlt⟩ := haddressable
  have hpton : inet.pton address.dotted = some address := inet.pton_eq_some_iff.mpr rfl
  unfold uvIp4Addr
  rw [cStr_dotted, hpton]
  refine ⟨rfl, ?_⟩
  have hport : (UInt16.ofInt port).toNat = (port % 2 ^ 16).toNat := by
    rw [UInt16.ofInt, UInt16.toNat_ofNat', Nat.mod_eq_of_lt (by omega)]
  change port = (UInt16.ofInt port).toNat
  omega

/-- What is bound or connected to, if anything, is what was asked for. -/
theorem requests_iff_addressable {host : List Char} {port : ℤ} {inet : InetPton} :
    Requests host port (uvIp4Addr inet (cStr host) port).2 ↔ Addressable host port :=
  ⟨Requests.addressable, fun haddressable ↦ haddressable.requests inet⟩

/-- **The requested address.** `listen` binds the address it was given or nothing, and `connect`
starts a connection to the address it was given or returns false, if and only if the host is a
dotted quad and the port has 16 bits, or there is another reason for which nothing is bound or
started. -/
theorem requested_address_iff {U V H : Type*} (inet : InetPton) (host : List Char)
    (service : Server.Service U V H) (port : ℤ) (bindResult listenResult : ℤ)
    (core : Client.Core U) (connectPort : UInt16) (initResult connectResult : ℤ) :
    ((∀ addr ∈ (service.listenAt inet host port bindResult listenResult).1,
        Requests host port addr) ↔
      service.BindsNothing bindResult ∨ Addressable host port) ∧
    (((core.connectTo inet host connectPort initResult connectResult).2.1 = false ∨
        ∃ addr ∈ (core.connectTo inet host connectPort initResult connectResult).1,
          Requests host connectPort.toNat addr) ↔
      core.StartsNothing initResult connectResult ∨ Addressable host connectPort.toNat) := by
  constructor
  · by_cases hnothing : service.BindsNothing bindResult
    · simp [service.listenAt_fst, hnothing]
    · simp [service.listenAt_fst, hnothing, requests_iff_addressable]
  · by_cases hnothing : core.StartsNothing initResult connectResult
    · obtain ⟨-, hfalse⟩ := Client.Core.connectTo_of_startsNothing hnothing inet host connectPort
      simp [hnothing, hfalse]
    · obtain ⟨hstarted, htrue⟩ := Client.Core.connectTo_of_starts hnothing inet host connectPort
      simp [hnothing, hstarted, htrue, requests_iff_addressable]

/-- A server that is made to listen on `localhost` listens on every address of its host, one that
is given the port 70000 listens on port 4464, and a client connects to `0.0.0.0`. -/
theorem other_address_used :
    let service : Server.Service Unit Unit Unit := .initial ()
    let core : Client.Core Unit := .initial false false ()
    ((service.listenAt .parse "localhost".toList 8080 0 0).1 = some ⟨.any, 8080⟩ ∧
      ¬ ∀ addr ∈ (service.listenAt .parse "localhost".toList 8080 0 0).1,
        Requests "localhost".toList 8080 addr) ∧
    ((service.listenAt .parse "127.0.0.1".toList 70000 0 0).1 = some ⟨⟨127, 0, 0, 1⟩, 4464⟩ ∧
      ¬ ∀ addr ∈ (service.listenAt .parse "127.0.0.1".toList 70000 0 0).1,
        Requests "127.0.0.1".toList 70000 addr) ∧
    ((core.connectTo .parse "localhost".toList 8080 0 0).1 = some ⟨.any, 8080⟩ ∧
      ¬ ((core.connectTo .parse "localhost".toList 8080 0 0).2.1 = false ∨
        ∃ addr ∈ (core.connectTo .parse "localhost".toList 8080 0 0).1,
          Requests "localhost".toList 8080 addr)) := by
  decide

end LibuvNet
