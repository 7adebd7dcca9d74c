import SecNet.Server.Packet
import SecNet.Server.Registry

/-!
# The session threads of the server

The server as the threads that run `_serve_peer`, one for each connection, the
thread that runs `start_server_tun_router`, and the registry they share. A step
of a thread is a call of the registry, or of something that may succeed or
raise: the handshake, the publication of an event, the next packet of the
connection, the delivery of a packet. Where a thread is says what its local
variables hold (`ServePc`).

* `serve`, `route`: a step of a session thread, and of the router;
* `Server.next`: a step of the server, with what it has done since it started:
  the events published, and the packets decrypted, forwarded and delivered.
-/

namespace SecNet

/-- How a step that depends on the environment comes out. -/
inductive Outcome
  /-- The call returns. -/
  | done
  | raises
  /-- `server_handshake` returns a session, of a device with this tag. -/
  | session (deviceTag : Option String)
  /-- The connection has a record, and this is what it decrypts to, or the TUN
      has this packet. -/
  | packet (packet : Bytes)
  deriving DecidableEq

/-- The events that `_serve_peer` publishes once a peer is registered. -/
inductive JoinEvent
  | sessionAuthenticated
  | peerJoin
  | ipChanged
  deriving DecidableEq

/-- How the loop of `start_peer_packet_manager` ends. -/
inductive LoopEnd
  /-- There is no other frame. -/
  | frames
  /-- Reading or decrypting a frame raises. -/
  | frameRaised
  /-- `send_packet` to the destination raises. -/
  | sendRaised
  /-- Writing to the TUN raises. -/
  | tunRaised
  deriving DecidableEq

/-- Where a session thread is, with its local variables. -/
inductive ServePc (ι : Type)
  /-- Before `reserve_ip`. -/
  | start
  /-- Before `server_handshake`. -/
  | reserved (reservedIp : String)
  /-- Before `register`. -/
  | connected (reservedIp : String) (peer : PeerConnection ι)
  /-- At the end of `register`, before the peer it replaces is closed. -/
  | replacing (reservedIp : String) (peer : PeerConnection ι)
    (previous : Option (PeerConnection ι))
  /-- Before the publication of an event. -/
  | publishing (reservedIp : String) (peer : PeerConnection ι) (event : JoinEvent)
  /-- At the head of the loop of `start_peer_packet_manager`. -/
  | reading (peer : PeerConnection ι)
  /-- Before `registry.get`. -/
  | looking (peer : PeerConnection ι) (packet : Bytes) (destination : IPv4Address)
  /-- Before `send_packet`. -/
  | sending (peer : PeerConnection ι) (packet : Bytes) (destinationPeer : PeerConnection ι)
  /-- Before `tun.write`. -/
  | writing (peer : PeerConnection ι) (packet : Bytes)
  /-- In the `finally` of the loop, before `remove`. -/
  | stopping (peer : PeerConnection ι) (loopEnd : LoopEnd)
  /-- In the `finally` of the loop, before `close`. -/
  | removed (peer : PeerConnection ι)
  /-- In the `except` of `_serve_peer`. -/
  | failed (reservedIp : Option String) (peer : Option (PeerConnection ι))
  /-- In the `except`, between `remove` and `close`. -/
  | discarded (peer : PeerConnection ι)
  /-- In the `except`, before `conn.close`. -/
  | closing (peer : Option (PeerConnection ι))
  /-- In the `finally` of `_serve_peer`. -/
  | leaving (peer : Option (PeerConnection ι))
  /-- Before the publication of `peer_leave`. -/
  | announcing (peer : PeerConnection ι)
  | ended
  deriving DecidableEq

/-- Where the loops send a packet. -/
inductive Target (ι : Type)
  | peer (destination : PeerConnection ι)
  | tun
  deriving DecidableEq

/-- An event of `network-events`: what it is called, and its fields that depend
    on the session. -/
structure NetworkEvent where
  event : String
  deviceTag : Option String
  vpnIp : String
  deriving DecidableEq

/-- What a step of a session thread does outside the registry. -/
inductive Output (ι : Type)
  | quiet
  | closes (peer : PeerConnection ι)
  | publishes (event : NetworkEvent)
  /-- A packet is decrypted. -/
  | arrives (packet : Bytes)
  /-- There is a peer at the destination of the packet. -/
  | finds (packet : Bytes) (destinationPeer : PeerConnection ι)
  | forwards (packet : Bytes) (target : Target ι)
  deriving DecidableEq

namespace JoinEvent

/-- The name of the event. -/
def name : JoinEvent → String
  | sessionAuthenticated => "session_authenticated"
  | peerJoin => "peer_join"
  | ipChanged => "ip_changed"

/-- Where the thread is after the event. -/
def next {ι : Type} (reservedIp : String) (peer : PeerConnection ι) : JoinEvent → ServePc ι
  | sessionAuthenticated => .publishing reservedIp peer .peerJoin
  | peerJoin => .publishing reservedIp peer .ipChanged
  | ipChanged => .reading peer

end JoinEvent

variable {ι : Type} [DecidableEq ι]

/-- A step of the thread `i` that runs `_serve_peer`: where it is then, the
    registry, and what it has done. -/
def serve (r : PeerRegistry ι) (i : ι) :
    ServePc ι → Outcome → Option (ServePc ι × PeerRegistry ι × Output ι)
  | .start, .done =>
    match r.reserveIp with
    | (.ok reservedIp, r') => some (.reserved reservedIp, r', .quiet)
    | (.error _, r') => some (.failed none none, r', .quiet)
  | .reserved reservedIp, .raises => some (.failed (some reservedIp) none, r, .quiet)
  | .reserved reservedIp, .session deviceTag =>
    -- `PeerConnection.__init__` reads the address back from its text.
    match IPv4Address.ofText reservedIp with
    | some vpnIp => some (.connected reservedIp ⟨i, vpnIp, deviceTag⟩, r, .quiet)
    | none => some (.failed (some reservedIp) none, r, .quiet)
  | .connected reservedIp peer, .done =>
    match r.register peer with
    | (.ok previous, r') => some (.replacing reservedIp peer previous, r', .quiet)
    | (.error _, r') => some (.failed (some reservedIp) (some peer), r', .quiet)
  | .replacing reservedIp peer previous, .done =>
    some (.publishing reservedIp peer .sessionAuthenticated, r,
      match previous with
      | some p => .closes p
      | none => .quiet)
  | .publishing reservedIp peer event, .done =>
    some (event.next reservedIp peer, r, .publishes ⟨event.name, peer.deviceTag, reservedIp⟩)
  | .publishing reservedIp peer _, .raises =>
    some (.failed (some reservedIp) (some peer), r, .quiet)
  | .reading peer, .packet packet =>
    match packetEndpoints packet with
    | .error _ => some (.reading peer, r, .arrives packet)
    | .ok (source, destination) =>
      if source ≠ peer.vpnIp then some (.reading peer, r, .arrives packet)
      else some (.looking peer packet destination, r, .arrives packet)
  | .reading peer, .done => some (.stopping peer .frames, r, .quiet)
  | .reading peer, .raises => some (.stopping peer .frameRaised, r, .quiet)
  | .looking peer packet destination, .done =>
    match r.get destination with
    | some destinationPeer =>
      some (.sending peer packet destinationPeer, r, .finds packet destinationPeer)
    | none =>
      if destination ∈ r.network ∧ destination ≠ r.serverIp then some (.reading peer, r, .quiet)
      else some (.writing peer packet, r, .quiet)
  | .sending peer packet destinationPeer, .done =>
    some (.reading peer, r, .forwards packet (.peer destinationPeer))
  | .sending peer _ _, .raises => some (.stopping peer .sendRaised, r, .quiet)
  | .writing peer packet, .done => some (.reading peer, r, .forwards packet .tun)
  | .writing peer _, .raises => some (.stopping peer .tunRaised, r, .quiet)
  | .stopping peer _, .done => some (.removed peer, r.remove peer, .quiet)
  | .removed peer, .done => some (.leaving (some peer), r, .closes peer)
  | .failed _ (some peer), .done => some (.discarded peer, r.remove peer, .quiet)
  | .failed (some reservedIp) none, .done => some (.closing none, r.releaseIp reservedIp, .quiet)
  | .failed none none, .done => some (.closing none, r, .quiet)
  | .discarded peer, .done => some (.closing (some peer), r, .closes peer)
  | .closing peer, .done => some (.leaving peer, r, .quiet)
  | .leaving none, .done => some (.ended, r, .quiet)
  | .leaving (some peer), .done =>
    match peer.tag with
    | some t =>
      if (r.getByTag t).isNone then some (.announcing peer, r, .quiet)
      else some (.ended, r, .quiet)
    | none => some (.ended, r, .quiet)
  | .announcing peer, .done =>
    some (.ended, r, .publishes ⟨"peer_leave", peer.deviceTag, peer.vpnIp.text⟩)
  | .announcing _, .raises => some (.ended, r, .quiet)
  | _, _ => none

/-- Where the thread of `start_server_tun_router` is. -/
inductive RouterPc (ι : Type)
  /-- Before `tun.read`. -/
  | reading
  | looking (packet : Bytes) (destination : IPv4Address)
  | sending (packet : Bytes) (destinationPeer : PeerConnection ι)
  /-- The stop event was set. -/
  | stopped
  /-- `tun.read` has raised. -/
  | readRaised
  /-- `send_packet` has raised. -/
  | sendRaised
  deriving DecidableEq

/-- A step of the thread of `start_server_tun_router`: where it is then, and
    what it has done. -/
def route (r : PeerRegistry ι) : RouterPc ι → Outcome → Option (RouterPc ι × Output ι)
  | .reading, .packet packet =>
    match packetEndpoints packet with
    | .error _ => some (.reading, .quiet)
    | .ok (_, destination) => some (.looking packet destination, .quiet)
  | .reading, .done => some (.stopped, .quiet)
  | .reading, .raises => some (.readRaised, .quiet)
  | .looking packet destination, .done =>
    match r.get destination with
    | some destinationPeer => some (.sending packet destinationPeer, .finds packet destinationPeer)
    | none => some (.reading, .quiet)
  | .sending packet destinationPeer, .done =>
    some (.reading, .forwards packet (.peer destinationPeer))
  | .sending _ _, .raises => some (.sendRaised, .quiet)
  | _, _ => none

/-! ## The server -/

/-- A packet that a session has forwarded: which of its packets it was, in the
    order they were decrypted. -/
structure Forwarded (ι : Type) where
  session : ι
  number : ℕ
  packet : Bytes
  target : Target ι
  deriving DecidableEq

/-- The server. -/
structure Server (ι : Type) where
  registry : PeerRegistry ι
  pc : ι → ServePc ι
  router : RouterPc ι
  /-- The peers that have been closed. -/
  closed : ι → Bool
  /-- The events published. -/
  events : List NetworkEvent
  /-- The packets each session has decrypted. -/
  arrived : ι → List Bytes
  /-- The packets the sessions have forwarded. -/
  forwarded : List (Forwarded ι)
  /-- The packets for which a session, or the router, has found a peer. -/
  found : Option ι → List (Bytes × PeerConnection ι)
  /-- Those that it has delivered to the peer. -/
  delivered : Option ι → List (Bytes × PeerConnection ι)

/-- The steps of a server. -/
inductive ServerAct (ι : Type)
  | serve (i : ι) (outcome : Outcome)
  | route (outcome : Outcome)
  deriving DecidableEq

namespace Server

/-- A server on which no thread has begun. -/
def new (registry : PeerRegistry ι) : Server ι where
  registry := registry
  pc _ := .start
  router := .reading
  closed _ := false
  events := []
  arrived _ := []
  forwarded := []
  found _ := []
  delivered _ := []

/-- A packet for a peer has been found, or delivered, by a thread. -/
def record (log : Option ι → List (Bytes × PeerConnection ι)) (k : Option ι) (packet : Bytes)
    (destinationPeer : PeerConnection ι) : Option ι → List (Bytes × PeerConnection ι) :=
  Function.update log k (log k ++ [(packet, destinationPeer)])

/-- What a session thread has done. -/
def output (s : Server ι) (i : ι) : Output ι → Server ι
  | .quiet => s
  | .closes peer => { s with closed := Function.update s.closed peer.id true }
  | .publishes event => { s with events := s.events ++ [event] }
  | .arrives packet =>
    { s with arrived := Function.update s.arrived i (s.arrived i ++ [packet]) }
  | .finds packet q => { s with found := record s.found (some i) packet q }
  | .forwards packet (.peer q) =>
    { s with
      forwarded := s.forwarded ++ [⟨i, (s.arrived i).length - 1, packet, .peer q⟩]
      delivered := record s.delivered (some i) packet q }
  | .forwards packet .tun =>
    { s with forwarded := s.forwarded ++ [⟨i, (s.arrived i).length - 1, packet, .tun⟩] }

/-- What the router has done. -/
def routerOutput (s : Server ι) : Output ι → Server ι
  | .finds packet q => { s with found := record s.found none packet q }
  | .forwards packet (.peer q) => { s with delivered := record s.delivered none packet q }
  | _ => s

/-- A step of the server, where it can be taken. -/
def next (s : Server ι) : ServerAct ι → Option (Server ι)
  | .serve i outcome => do
    let (pc, registry, out) ← serve s.registry i (s.pc i) outcome
    some { s.output i out with registry := registry, pc := Function.update s.pc i pc }
  | .route outcome => do
    let (router, out) ← route s.registry s.router outcome
    some { s.routerOutput out with router := router }

/-- The runs of a server, of the registry of a network. -/
def system (ι : Type) [DecidableEq ι] (network : IPNetwork) (serverIp : IPAddress) :
    System (Server ι) (ServerAct ι) :=
  .ofPartial (fun s => ∃ r, PeerRegistry.init network serverIp = .ok r ∧ s = new r) next

variable {s s' : Server ι}

theorem next_serve {i : ι} {o : Outcome} (h : next s (.serve i o) = some s') :
    ∃ pc r out, serve s.registry i (s.pc i) o = some (pc, r, out) ∧
      s' = { s.output i out with registry := r, pc := Function.update s.pc i pc } := by
  simp only [next, Option.bind_eq_bind, Option.bind_eq_some_iff] at h
  obtain ⟨⟨pc, r, out⟩, hserve, h⟩ := h
  exact ⟨pc, r, out, hserve, (Option.some.inj h).symm⟩

theorem next_route {o : Outcome} (h : next s (.route o) = some s') :
    ∃ router out, route s.registry s.router o = some (router, out) ∧
      s' = { s.routerOutput out with router := router } := by
  simp only [next, Option.bind_eq_bind, Option.bind_eq_some_iff] at h
  obtain ⟨⟨router, out⟩, hroute, h⟩ := h
  exact ⟨router, out, hroute, (Option.some.inj h).symm⟩

/-- What a thread does outside the registry touches neither the registry nor the
    other threads. -/
theorem output_keeps (s : Server ι) (i : ι) (out : Output ι) :
    (s.output i out).registry = s.registry ∧ (s.output i out).pc = s.pc ∧
      (s.output i out).router = s.router := by
  rcases out with _ | _ | _ | _ | _ | ⟨packet, q | _⟩ <;> exact ⟨rfl, rfl, rfl⟩

/-- Nor does what the router does. -/
theorem routerOutput_keeps (s : Server ι) (out : Output ι) :
    (s.routerOutput out).registry = s.registry ∧ (s.routerOutput out).pc = s.pc ∧
      (s.routerOutput out).arrived = s.arrived ∧ (s.routerOutput out).forwarded = s.forwarded := by
  rcases out with _ | _ | _ | _ | _ | ⟨packet, q | _⟩ <;> exact ⟨rfl, rfl, rfl, rfl⟩

end Server

end SecNet
