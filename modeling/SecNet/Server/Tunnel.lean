import SecNet.Client.EgressFilter
import SecNet.Record.Channel
import SecNet.Server.Isolation

/-!
# The tunnel

The whole way of a packet: `tun_to_net` of a client reads it from the TUN of the client and
seals it for the server, the loop of the peer opens the record and hands the packet to the peer
at its destination, or to the TUN of the server, and `net_to_tun` of that client opens the record
of the server and writes the packet to its TUN. The router takes the packets of the TUN of the
server to the peers.

The clients and the server take steps in any order, sessions come and go, and an attacker decides
which records arrive (`TunnelAct`). `send_packet` is one step, as the record is sealed and written
under one lock, and its record is sealed also when it raises.

* `Tunnel.next`: a step, with what has gone through the TUNs since the start;
* `next_read`, `next_arrive`, `next_serve` and the others: what each step does;
* `Addressed`: the threads, and the clients, go by the addresses that the handshakes have been
  given;
* `addressed_next`: every step keeps that.
-/

namespace SecNet

/-! ## The system -/

/-- A packet that a thread of the server has handed over: a session thread, or the router, to the
    peer of a session, or to the TUN. -/
structure Hop (ι : Type) where
  sender : Option ι
  packet : Bytes
  receiver : Option ι
  deriving DecidableEq

/-- The server and its clients. -/
structure Tunnel (ι : Type) where
  server : Server ι
  /-- The address that the handshake of a session thread has been given. -/
  reservedIp : ι → Option String
  /-- `session.vpn_ip` of the clients whose handshake has returned. -/
  vpnIp : ι → Option String
  /-- The records of the clients. -/
  up : ι → Channel
  /-- The records of the server. -/
  down : ι → Channel
  /-- Whether `net_to_tun` of a client has ended. -/
  ended : ι → Bool
  /-- What `tun_to_net` has read from the TUN of each client. -/
  read : ι → List Bytes
  /-- What `net_to_tun` has written to it. -/
  written : ι → List Bytes
  /-- What the router has read from the TUN of the server. -/
  routed : List Bytes
  hops : List (Hop ι)

/-- The steps. -/
inductive TunnelAct (ι : Type)
  /-- The handshake of a client returns. -/
  | connect (i : ι)
  /-- A turn of `tun_to_net`. -/
  | read (i : ι) (packet : Bytes)
  /-- A turn of `net_to_tun`, on a record that the attacker gives it. -/
  | receive (i : ι) (record : Bytes)
  /-- The head of the loop of a peer, on a record that the attacker gives it. -/
  | arrive (i : ι) (record : Bytes)
  /-- Any other step of a session thread. -/
  | serve (i : ι) (outcome : Outcome)
  | route (outcome : Outcome)
  deriving DecidableEq

namespace Tunnel

variable {ι : Type} [DecidableEq ι]

/-- `send_packet`: the record of the next packet for a peer. -/
def handOver (s : Tunnel ι) (sender : Option ι) (packet : Bytes) (q : PeerConnection ι) :
    Tunnel ι :=
  { s with
    down := Function.update s.down q.id ((s.down q.id).next (.encrypt packet))
    up := Function.update s.up q.id ((s.up q.id).next (.encryptOpposite packet))
    hops := s.hops ++ [⟨sender, packet, some q.id⟩] }

/-- What a step of a session thread does outside the server. -/
def leave (s : Tunnel ι) (i : ι) : ServePc ι → Outcome → Tunnel ι
  | .sending _ packet q, _ => s.handOver (some i) packet q
  | .writing _ packet, .done => { s with hops := s.hops ++ [⟨some i, packet, none⟩] }
  | _, _ => s

/-- What a step of the router does outside the server. -/
def routerLeave (s : Tunnel ι) : RouterPc ι → Outcome → Tunnel ι
  | .reading, .packet packet => { s with routed := s.routed ++ [packet] }
  | .sending packet q, _ => s.handOver none packet q
  | _, _ => s

/-- How the head of the loop of a peer comes out. -/
def opened : Except Exn Bytes → Outcome
  | .ok packet => .packet packet
  | .error _ => .raises

/-- The addresses given to the handshakes, when a thread has moved. -/
def reserving (s : Tunnel ι) (i : ι) : ServePc ι → ι → Option String
  | .reserved reservedIp => Function.update s.reservedIp i (some reservedIp)
  | _ => s.reservedIp

/-- A step, where it can be taken. -/
def next (s : Tunnel ι) : TunnelAct ι → Option (Tunnel ι)
  | .connect i =>
    match s.vpnIp i, s.reservedIp i with
    | none, some vpnIp => some { s with vpnIp := Function.update s.vpnIp i (some vpnIp) }
    | _, _ => none
  | .read i packet => do
    let vpnIp ← s.vpnIp i
    let s := { s with read := Function.update s.read i (s.read i ++ [packet]) }
    match tunToNet (clientTunIp vpnIp) packet with
    | .ok .sends =>
      some { s with
        up := Function.update s.up i ((s.up i).next (.encrypt packet))
        down := Function.update s.down i ((s.down i).next (.encryptOpposite packet)) }
    | .ok _ => some s
    | .error _ => none
  | .receive i record =>
    if (s.vpnIp i).isSome ∧ s.ended i = false then
      let packet := ((s.down i).receiver.decrypt record).1
      some { s with
        down := Function.update s.down i ((s.down i).next (.decrypt record))
        ended := Function.update s.ended i (!packet.isOk)
        written := Function.update s.written i (s.written i ++ Channel.returnedOf packet) }
    else none
  | .arrive i record =>
    match s.server.pc i with
    | .reading _ => do
      let server ← s.server.next (.serve i (opened ((s.up i).receiver.decrypt record).1))
      some { s with
        server := server
        up := Function.update s.up i ((s.up i).next (.decrypt record)) }
    | _ => none
  | .serve _ (.packet _) => none
  | .serve i outcome => do
    let server ← s.server.next (.serve i outcome)
    some { s.leave i (s.server.pc i) outcome with
      server := server
      reservedIp := s.reserving i (server.pc i) }
  | .route outcome => do
    let server ← s.server.next (.route outcome)
    some { s.routerLeave s.server.router outcome with server := server }

/-- What the sessions have for keys, and what the handshakes have sealed with them. -/
structure Keys (ι : Type) where
  aead : ι → Aead
  up : ι → Bytes
  down : ι → Bytes
  /-- What the client has sealed. -/
  hello : ι → List Bytes
  /-- What the server has sealed. -/
  answer : ι → List Bytes

/-- The channels after the handshakes, which have opened all the records. -/
structure Fresh (keys : Keys ι) (s : Tunnel ι) (i : ι) : Prop where
  up : Channel.Inv (keys.aead i) (keys.up i) (keys.down i) (s.up i)
  down : Channel.Inv (keys.aead i) (keys.down i) (keys.up i) (s.down i)
  sentUp : (s.up i).packets = keys.hello i
  gotUp : (s.up i).returned = keys.hello i
  sentDown : (s.down i).packets = keys.answer i
  gotDown : (s.down i).returned = keys.answer i

/-- Before anything has happened but the exchange of keys. -/
structure Start (network : IPNetwork) (serverIp : IPAddress) (keys : Keys ι) (s : Tunnel ι) :
    Prop where
  server : ∃ r, PeerRegistry.init network serverIp = .ok r ∧ s.server = .new r
  fresh : ∀ i, s.Fresh keys i
  reservedIp : ∀ i, s.reservedIp i = none
  vpnIp : ∀ i, s.vpnIp i = none
  read : ∀ i, s.read i = []
  written : ∀ i, s.written i = []
  routed : s.routed = []
  hops : s.hops = []

/-- The runs. -/
def system (network : IPNetwork) (serverIp : IPAddress) (keys : Keys ι) :
    System (Tunnel ι) (TunnelAct ι) :=
  .ofPartial (Start network serverIp keys) next

/-- The AEAD is authentic at a step, and no cipher has used up its numbers. -/
structure Sealing (s : Tunnel ι) (a : TunnelAct ι) : Prop where
  authentic : match a with
    | .receive i record => (s.down i).Authentic (.decrypt record)
    | .arrive i record => (s.up i).Authentic (.decrypt record)
    | _ => True
  numbered : ∀ i, (s.up i).packets.length < 2 ^ 64 ∧ (s.down i).packets.length < 2 ^ 64

/-! ## What has gone through -/

/-- The packets handed over by a thread. -/
def hopsFrom (s : Tunnel ι) (k : Option ι) : List Bytes :=
  (s.hops.filter fun h => h.sender = k).map Hop.packet

/-- The packets handed over to a peer, or to the TUN. -/
def hopsTo (s : Tunnel ι) (k : Option ι) : List Bytes :=
  (s.hops.filter fun h => h.receiver = k).map Hop.packet

/-- The packets that `tun_to_net` of a client has sent, of those it has read. -/
def sent (s : Tunnel ι) (i : ι) : List Bytes :=
  match s.vpnIp i with
  | some vpnIp => (s.read i).filter fun packet => tunToNet (clientTunIp vpnIp) packet = .ok .sends
  | none => []

/-- The address of a session. -/
def address (s : Tunnel ι) (i : ι) : Option IPv4Address := (s.reservedIp i).bind IPv4Address.ofText

/-- A packet comes from the address of its sender, and goes to its destination. -/
def Genuine (s : Tunnel ι) (h : Hop ι) : Prop :=
  ∃ source destination, packetEndpoints h.packet = .ok (source, destination) ∧
    (∀ i, h.sender = some i → s.address i = some source) ∧
    match h.receiver with
    | some j => s.address j = some destination
    | none => destination = s.server.registry.serverIp ∨ destination ∉ s.server.registry.network

end Tunnel

/-! ## What the threads have in hand -/

namespace ServePc

variable {ι : Type}

/-- The packet a thread has still to hand over. -/
def inHand : ServePc ι → List Bytes
  | .looking _ packet _ | .sending _ packet _ | .writing _ packet => [packet]
  | _ => []

/-- The peer that a thread has found for its packet. -/
def target : ServePc ι → Option (PeerConnection ι)
  | .sending _ _ q => some q
  | _ => none

/-- A thread has made its peer for the address that its handshake has been given. -/
def Assigned (reservedIp : Option String) : ServePc ι → Prop
  | .start => reservedIp = none
  | .reserved ip => reservedIp = some ip
  | pc => ∀ p, pc.localPeer = some p → reservedIp.bind IPv4Address.ofText = some p.vpnIp

end ServePc

namespace RouterPc

variable {ι : Type}

/-- The packet the router has still to hand over. -/
def inHand : RouterPc ι → List Bytes
  | .looking packet _ | .sending packet _ => [packet]
  | _ => []

/-- The peer that the router has found for its packet. -/
def target : RouterPc ι → Option (PeerConnection ι)
  | .sending _ q => some q
  | _ => none

/-- What the router knows about its packet. -/
def Routing : RouterPc ι → Prop
  | .looking packet destination => ∃ source, packetEndpoints packet = .ok (source, destination)
  | .sending packet q => ∃ source, packetEndpoints packet = .ok (source, q.vpnIp)
  | _ => True

end RouterPc

section

variable {ι : Type} [DecidableEq ι] {r r' : PeerRegistry ι} {i : ι} {pc pc' : ServePc ι}
  {router router' : RouterPc ι} {o : Outcome} {out : Output ι}

/-- A thread has nothing in hand but what it had, or what has just arrived. -/
theorem inHand_of_serve (h : serve r i pc o = some (pc', r', out)) :
    pc'.inHand.Sublist (pc.inHand ++ out.arrivals) := by
  revert h
  fun_cases serve r i pc o
  all_goals intro h
  all_goals simp only [Option.some.injEq, Prod.mk.injEq, reduceCtorEq] at h
  all_goals obtain ⟨rfl, -, rfl⟩ := h
  case case9 event => cases event <;> exact List.nil_sublist _
  all_goals first | exact List.nil_sublist _ | exact List.Sublist.refl _

/-- The peer that a thread has found was registered. -/
theorem target_of_serve (h : serve r i pc o = some (pc', r', out)) {q : PeerConnection ι}
    (hq : pc'.target = some q) : ∃ a, r.get a = some q := by
  revert h
  fun_cases serve r i pc o
  all_goals intro h
  all_goals simp only [Option.some.injEq, Prod.mk.injEq, reduceCtorEq] at h
  all_goals obtain ⟨rfl, -, -⟩ := h
  case case9 event => cases event <;> cases hq
  case case16 hget => exact ⟨_, hget.trans hq⟩
  all_goals cases hq

/-- A thread goes on with the address that its handshake has been given. -/
theorem assigned_of_serve {reservedIp : Option String} (h : serve r i pc o = some (pc', r', out))
    (hpc : pc.Assigned reservedIp) (hreserved : ∀ ip, pc' ≠ .reserved ip) :
    pc'.Assigned reservedIp := by
  revert h hpc hreserved
  fun_cases serve r i pc o
  all_goals intro h hpc hreserved
  all_goals simp only [Option.some.injEq, Prod.mk.injEq, reduceCtorEq] at h
  all_goals obtain ⟨rfl, -, -⟩ := h
  case case1 => exact absurd rfl (hreserved _)
  -- The peer is made for the address that was reserved.
  case case4 reservedIp _ vpnIp hip =>
    rintro p hp
    obtain rfl := Option.some.inj hp
    have hpc : _ = some reservedIp := hpc
    rw [hpc]
    exact hip
  case case9 event => cases event <;> exact hpc
  all_goals first | exact hpc | exact nofun

/-- An address is reserved by a thread that begins. -/
theorem reserved_of_serve {ip : String} (h : serve r i pc o = some (.reserved ip, r', out)) :
    pc = .start := by
  revert h
  fun_cases serve r i pc o
  all_goals intro h
  all_goals simp only [Option.some.injEq, Prod.mk.injEq, reduceCtorEq, false_and] at h
  case case1 => rfl
  case case9 event => cases event <;> simp [JoinEvent.next] at h

omit [DecidableEq ι] in
/-- What the router knows about its packet, and that the peer it has found was registered. -/
theorem routing_of_route (hr : r.Inv) (h : route r router o = some (router', out))
    (hrouter : router.Routing) :
    router'.Routing ∧ ∀ q, router'.target = some q → ∃ a, r.get a = some q := by
  revert h hrouter
  fun_cases route r router o
  all_goals intro h hrouter
  all_goals simp only [Option.some.injEq, Prod.mk.injEq, reduceCtorEq] at h
  all_goals obtain ⟨rfl, -⟩ := h
  case case2 hpacket => exact ⟨⟨_, hpacket⟩, fun q hq => absurd hq (Option.some_ne_none q).symm⟩
  case case5 hget =>
    obtain ⟨source, hpacket⟩ := hrouter
    rw [← hr.vpnIp _ _ hget] at hpacket
    exact ⟨⟨source, hpacket⟩, fun q hq => ⟨_, hget.trans hq⟩⟩
  all_goals exact ⟨trivial, fun q hq => absurd hq (Option.some_ne_none q).symm⟩

end

namespace Tunnel

variable {ι : Type} [DecidableEq ι] {s s' : Tunnel ι} {i j : ι} {o : Outcome} {server : Server ι}
  {q : PeerConnection ι}

/-! ## Addresses -/

/-- The threads, and the clients, go by the addresses that the handshakes have been given. -/
structure Addressed (s : Tunnel ι) : Prop where
  routed : s.server.Routed
  assigned : ∀ i, (s.server.pc i).Assigned (s.reservedIp i)
  told : ∀ i ip, s.vpnIp i = some ip → s.reservedIp i = some ip
  target : ∀ i q, (s.server.pc i).target = some q → s.address q.id = some q.vpnIp
  router : s.server.router.Routing
  routerTarget : ∀ q, s.server.router.target = some q → s.address q.id = some q.vpnIp

omit [DecidableEq ι] in
/-- A peer is registered at the address of its session. -/
theorem address_of_registered (h : s.Addressed) (hq : (s.server.pc i).registeredPeer = some q) :
    s.address i = some q.vpnIp := by
  have hassigned := h.assigned i
  rw [address]
  cases hpc : s.server.pc i <;> rw [hpc] at hq hassigned
  case start | reserved | connected => cases hq
  all_goals exact hassigned q hq

omit [DecidableEq ι] in
theorem address_of_get (h : s.Addressed) {a : IPv4Address}
    (hq : s.server.registry.get a = some q) : s.address q.id = some q.vpnIp := by
  have hpeer : s.server.registry.peers q.vpnIp = some q := by
    rw [h.routed.inv.owned.inv.vpnIp a q hq]
    exact hq
  exact address_of_registered h ((h.routed.inv.owned.peers q).1 hpeer)

/-- An address that a handshake has been given is not taken from it. -/
theorem reserving_mono (h : s.Addressed) (hstep : s.server.next (.serve i o) = some server)
    {ip : String} (hj : s.reservedIp j = some ip) :
    s.reserving i (server.pc i) j = some ip := by
  obtain ⟨pc, r, out, hserve, rfl⟩ := Server.next_serve hstep
  simp only [Function.update_self]
  cases pc with
  | reserved ip' =>
    have hstart := h.assigned i
    rw [reserved_of_serve hserve] at hstart
    have hne : j ≠ i := by
      rintro rfl
      rw [hj] at hstart
      cases hstart
    rw [reserving, Function.update_of_ne hne, hj]
  | _ => exact hj

/-- A step of a session thread. -/
theorem addressed_serve (h : s.Addressed) (hstep : s.server.next (.serve i o) = some server)
    (hserver : s'.server = server) (hreserved : s'.reservedIp = s.reserving i (server.pc i))
    (hvpnIp : s'.vpnIp = s.vpnIp) : s'.Addressed := by
  have hmono {j : ι} {a : IPv4Address} (ha : s.address j = some a) : s'.address j = some a := by
    obtain ⟨ip, hip, hofText⟩ := Option.bind_eq_some_iff.1 ha
    rw [address, hreserved, reserving_mono h hstep hip]
    exact hofText
  have hrouted' := Server.routed_next h.routed hstep
  obtain ⟨pc, r, out, hserve, rfl⟩ := Server.next_serve hstep
  obtain ⟨-, hpcs, hrouter⟩ := s.server.output_keeps i out
  simp only [Function.update_self] at hreserved
  refine ⟨hserver ▸ hrouted', fun j => ?_, fun j ip hip => ?_, fun j q hq => ?_, ?_, fun q hq => ?_⟩
  · rw [hserver, hreserved]
    by_cases hji : j = i
    · subst hji
      simp only [Function.update_self]
      by_cases hpc : ∃ ip, pc = .reserved ip
      · obtain ⟨ip, rfl⟩ := hpc
        exact Function.update_self ..
      · have hkeep : s.reserving j pc = s.reservedIp := by
          cases pc <;> first | rfl | exact absurd ⟨_, rfl⟩ hpc
        rw [hkeep]
        exact assigned_of_serve hserve (h.assigned j) fun ip hip => hpc ⟨ip, hip⟩
    · have hkeep : s.reserving i pc j = s.reservedIp j := by
        cases pc <;> first | rfl | exact Function.update_of_ne hji _ _
      simp only [Function.update_of_ne hji, hkeep]
      exact h.assigned j
  · rw [hvpnIp] at hip
    have hmono' := reserving_mono h hstep (h.told j ip hip)
    simp only [Function.update_self] at hmono'
    rw [hreserved, hmono']
  · rw [hserver] at hq
    by_cases hji : j = i
    · subst hji
      simp only [Function.update_self] at hq
      obtain ⟨a, ha⟩ := target_of_serve hserve hq
      exact hmono (address_of_get h ha)
    · simp only [Function.update_of_ne hji] at hq
      exact hmono (h.target j q hq)
  · rw [hserver]
    exact hrouter ▸ h.router
  · rw [hserver] at hq
    exact hmono (h.routerTarget q (hrouter ▸ hq))

/-- A step of the router. -/
theorem addressed_route (h : s.Addressed) (hstep : s.server.next (.route o) = some server)
    (hserver : s'.server = server) (hreserved : s'.reservedIp = s.reservedIp)
    (hvpnIp : s'.vpnIp = s.vpnIp) : s'.Addressed := by
  have haddress (j : ι) : s'.address j = s.address j := by rw [address, hreserved, address]
  have hrouted' := Server.routed_next h.routed hstep
  obtain ⟨router, out, hroute, rfl⟩ := Server.next_route hstep
  obtain ⟨hregistry, hpcs, -, -⟩ := s.server.routerOutput_keeps out
  obtain ⟨hrouting, htarget⟩ := routing_of_route h.routed.inv.owned.inv hroute h.router
  refine ⟨hserver ▸ hrouted', fun j => ?_, fun j ip hip => ?_, fun j q hq => ?_, ?_, fun q hq => ?_⟩
  · rw [hserver, hreserved]
    exact hpcs ▸ h.assigned j
  · rw [hreserved]
    exact h.told j ip (hvpnIp ▸ hip)
  · rw [hserver] at hq
    exact haddress _ ▸ h.target j q (hpcs ▸ hq)
  · rw [hserver]
    exact hrouting
  · rw [hserver] at hq
    obtain ⟨a, ha⟩ := htarget q hq
    exact haddress _ ▸ address_of_get h ha

omit [DecidableEq ι] in
/-- A step of a client. -/
theorem addressed_client (h : s.Addressed) (hserver : s'.server = s.server)
    (hreserved : s'.reservedIp = s.reservedIp)
    (htold : ∀ i ip, s'.vpnIp i = some ip → s.reservedIp i = some ip) : s'.Addressed := by
  have haddress (j : ι) : s'.address j = s.address j := by rw [address, hreserved, address]
  refine ⟨hserver ▸ h.routed, ?_, hreserved ▸ htold, ?_, hserver ▸ h.router, ?_⟩
  · rw [hserver, hreserved]
    exact h.assigned
  · simp only [hserver, haddress]
    exact h.target
  · simp only [hserver, haddress]
    exact h.routerTarget

/-! ## The steps -/

theorem next_connect (h : next s (.connect i) = some s') :
    ∃ vpnIp, s.vpnIp i = none ∧ s.reservedIp i = some vpnIp ∧
      s' = { s with vpnIp := Function.update s.vpnIp i (some vpnIp) } := by
  simp only [next] at h
  split at h
  · rename_i hnone hsome
    exact ⟨_, hnone, hsome, (Option.some.inj h).symm⟩
  · cases h

/-- A turn of `tun_to_net`, which sends the packet, or does not. -/
theorem next_read {packet : Bytes} (h : next s (.read i packet) = some s') :
    ∃ vpnIp, s.vpnIp i = some vpnIp ∧
      ((tunToNet (clientTunIp vpnIp) packet = .ok .sends ∧
        s' = { s with
          read := Function.update s.read i (s.read i ++ [packet])
          up := Function.update s.up i ((s.up i).next (.encrypt packet))
          down := Function.update s.down i ((s.down i).next (.encryptOpposite packet)) }) ∨
      tunToNet (clientTunIp vpnIp) packet ≠ .ok .sends ∧
        s' = { s with read := Function.update s.read i (s.read i ++ [packet]) }) := by
  simp only [next, Option.bind_eq_bind, Option.bind_eq_some_iff] at h
  obtain ⟨vpnIp, hvpnIp, h⟩ := h
  refine ⟨vpnIp, hvpnIp, ?_⟩
  split at h
  · rename_i hsends
    exact .inl ⟨hsends, (Option.some.inj h).symm⟩
  · rename_i verdict hne hverdict
    exact .inr ⟨fun hsends => hne (Except.ok.inj (hverdict.symm.trans hsends)),
      (Option.some.inj h).symm⟩
  · cases h

theorem next_receive {record : Bytes} (h : next s (.receive i record) = some s') :
    ∃ ended, (s.vpnIp i).isSome ∧ s' = { s with
      down := Function.update s.down i ((s.down i).next (.decrypt record))
      ended := ended
      written := Function.update s.written i
        (s.written i ++ Channel.returnedOf ((s.down i).receiver.decrypt record).1) } := by
  simp only [next] at h
  split_ifs at h with hready
  exact ⟨_, hready.1, (Option.some.inj h).symm⟩

/-- The head of the loop of a peer. -/
theorem next_arrive {record : Bytes} (h : next s (.arrive i record) = some s') :
    ∃ p server, s.server.pc i = .reading p ∧
      s.server.next (.serve i (opened ((s.up i).receiver.decrypt record).1)) = some server ∧
      s' = { s with
        server := server
        up := Function.update s.up i ((s.up i).next (.decrypt record)) } := by
  simp only [next] at h
  split at h
  · rename_i p hpc
    simp only [Option.bind_eq_bind, Option.bind_eq_some_iff] at h
    obtain ⟨server, hserver, h⟩ := h
    exact ⟨p, server, hpc, hserver, (Option.some.inj h).symm⟩
  · cases h

theorem next_serve (h : next s (.serve i o) = some s') :
    ∃ server, (∀ packet, o ≠ .packet packet) ∧ s.server.next (.serve i o) = some server ∧
      s' = { s.leave i (s.server.pc i) o with
        server := server
        reservedIp := s.reserving i (server.pc i) } := by
  cases o with
  | packet => cases h
  | _ =>
    simp only [next, Option.bind_eq_bind, Option.bind_eq_some_iff] at h
    obtain ⟨server, hserver, h⟩ := h
    exact ⟨server, nofun, hserver, (Option.some.inj h).symm⟩

theorem next_route (h : next s (.route o) = some s') :
    ∃ server, s.server.next (.route o) = some server ∧
      s' = { s.routerLeave s.server.router o with server := server } := by
  simp only [next, Option.bind_eq_bind, Option.bind_eq_some_iff] at h
  obtain ⟨server, hserver, h⟩ := h
  exact ⟨server, hserver, (Option.some.inj h).symm⟩

/-- What a session thread does outside the server are hops, and their records. -/
theorem leave_keeps (s : Tunnel ι) (i : ι) (pc : ServePc ι) (o : Outcome) :
    (s.leave i pc o).vpnIp = s.vpnIp ∧ (s.leave i pc o).reservedIp = s.reservedIp ∧
      (s.leave i pc o).read = s.read ∧ (s.leave i pc o).written = s.written ∧
      (s.leave i pc o).routed = s.routed ∧ (s.leave i pc o).server = s.server := by
  fun_cases leave s i pc o <;> exact ⟨rfl, rfl, rfl, rfl, rfl, rfl⟩

/-- And so what the router does. -/
theorem routerLeave_keeps (s : Tunnel ι) (router : RouterPc ι) (o : Outcome) :
    (s.routerLeave router o).vpnIp = s.vpnIp ∧ (s.routerLeave router o).reservedIp = s.reservedIp ∧
      (s.routerLeave router o).read = s.read ∧ (s.routerLeave router o).written = s.written ∧
      (s.routerLeave router o).server = s.server := by
  fun_cases routerLeave s router o <;> exact ⟨rfl, rfl, rfl, rfl, rfl⟩

/-- The head of the loop of a peer reserves no address. -/
theorem reserving_of_reading {p : PeerConnection ι} (hpc : s.server.pc i = .reading p)
    (h : s.server.next (.serve i o) = some server) :
    s.reserving i (server.pc i) = s.reservedIp := by
  obtain ⟨pc, r, out, hserve, rfl⟩ := Server.next_serve h
  rw [hpc] at hserve
  simp only [Function.update_self]
  cases pc with
  | reserved ip => cases reserved_of_serve hserve
  | _ => rfl

/-- A step keeps the addresses in order. -/
theorem addressed_next {a : TunnelAct ι} (h : s.Addressed) (hstep : next s a = some s') :
    s'.Addressed := by
  cases a with
  | connect i =>
    obtain ⟨vpnIp, -, hreserved, rfl⟩ := next_connect hstep
    refine addressed_client h rfl rfl fun j ip hj => ?_
    by_cases hji : j = i
    · subst hji
      simp only [Function.update_self] at hj
      rw [hreserved, hj]
    · simp only [Function.update_of_ne hji] at hj
      exact h.told j ip hj
  | read i packet =>
    obtain ⟨vpnIp, -, ⟨-, rfl⟩ | ⟨-, rfl⟩⟩ := next_read hstep
    · exact addressed_client h rfl rfl h.told
    · exact addressed_client h rfl rfl h.told
  | receive i record =>
    obtain ⟨ended, -, rfl⟩ := next_receive hstep
    exact addressed_client h rfl rfl h.told
  | arrive i record =>
    obtain ⟨p, server, hpc, hserver, rfl⟩ := next_arrive hstep
    exact addressed_serve h hserver rfl (reserving_of_reading hpc hserver).symm rfl
  | serve i o =>
    obtain ⟨server, -, hserver, rfl⟩ := next_serve hstep
    exact addressed_serve h hserver rfl rfl (s.leave_keeps i _ o).1
  | route o =>
    obtain ⟨server, hserver, rfl⟩ := next_route hstep
    obtain ⟨hvpnIp, hreserved, -⟩ := s.routerLeave_keeps s.server.router o
    exact addressed_route h hserver rfl hreserved hvpnIp

/-- An address stays with its session. -/
theorem address_next {a : TunnelAct ι} (h : s.Addressed) (hstep : next s a = some s')
    {x : IPv4Address} (hx : s.address j = some x) : s'.address j = some x := by
  obtain ⟨ip, hip, hofText⟩ := Option.bind_eq_some_iff.1 hx
  suffices hkeep : s'.reservedIp j = some ip by rw [address, hkeep]; exact hofText
  cases a with
  | connect i =>
    obtain ⟨vpnIp, -, -, rfl⟩ := next_connect hstep
    exact hip
  | read i packet =>
    obtain ⟨vpnIp, -, ⟨-, rfl⟩ | ⟨-, rfl⟩⟩ := next_read hstep
    · exact hip
    · exact hip
  | receive i record =>
    obtain ⟨ended, -, rfl⟩ := next_receive hstep
    exact hip
  | arrive i record =>
    obtain ⟨p, server, hpc, hserver, rfl⟩ := next_arrive hstep
    exact hip
  | serve i o =>
    obtain ⟨server, -, hserver, rfl⟩ := next_serve hstep
    exact reserving_mono h hserver hip
  | route o =>
    obtain ⟨server, hserver, rfl⟩ := next_route hstep
    exact (s.routerLeave_keeps s.server.router o).2.1 ▸ hip

/-- No step touches the network. -/
theorem network_next {a : TunnelAct ι} (hstep : next s a = some s') :
    s'.server.registry.network = s.server.registry.network ∧
      s'.server.registry.serverIp = s.server.registry.serverIp := by
  have hserve {i : ι} {o : Outcome} {server : Server ι}
      (h : s.server.next (.serve i o) = some server) :
      server.registry.network = s.server.registry.network ∧
        server.registry.serverIp = s.server.registry.serverIp := by
    obtain ⟨pc, r, out, hserve, rfl⟩ := Server.next_serve h
    exact network_of_serve hserve
  cases a with
  | connect i =>
    obtain ⟨vpnIp, -, -, rfl⟩ := next_connect hstep
    exact ⟨rfl, rfl⟩
  | read i packet =>
    obtain ⟨vpnIp, -, ⟨-, rfl⟩ | ⟨-, rfl⟩⟩ := next_read hstep
    · exact ⟨rfl, rfl⟩
    · exact ⟨rfl, rfl⟩
  | receive i record =>
    obtain ⟨ended, -, rfl⟩ := next_receive hstep
    exact ⟨rfl, rfl⟩
  | arrive i record =>
    obtain ⟨p, server, -, hserver, rfl⟩ := next_arrive hstep
    exact hserve hserver
  | serve i o =>
    obtain ⟨server, -, hserver, rfl⟩ := next_serve hstep
    exact hserve hserver
  | route o =>
    obtain ⟨server, hserver, rfl⟩ := next_route hstep
    obtain ⟨router, out, -, rfl⟩ := Server.next_route hserver
    obtain ⟨hregistry, -⟩ := s.server.routerOutput_keeps out
    exact ⟨congrArg _ hregistry, congrArg _ hregistry⟩

end Tunnel

end SecNet
