import SecNet.Server.TunnelSafety

/-!
# What the tunnel does not lose

While a client and the peer of another one stay, the packets from the one to the other all come
through, whatever else happens on the server.

* `Joined`: the thread of a client is in its loop, and the peer is registered;
* `between_next`, `between_of_run`: what the thread has handed over to the peer, and has in hand
  for it, is what has arrived for it;
* `tunnel_delivers`: so when the records have been opened, every packet has come through, once
  and in order.
-/

namespace SecNet

namespace ServePc

variable {ι : Type}

/-- The peer of a thread that is in its loop. -/
def loopPeer : ServePc ι → Option (PeerConnection ι)
  | .reading p | .looking p _ _ | .sending p _ _ | .writing p _ => some p
  | _ => none

/-- The packet for a peer that a thread has in hand. -/
def inHandFor [DecidableEq ι] (q : PeerConnection ι) : ServePc ι → List Bytes
  | .looking _ packet destination => if destination = q.vpnIp then [packet] else []
  | .sending _ packet q' => if q'.id = q.id then [packet] else []
  | _ => []

end ServePc

namespace Tunnel

variable {ι : Type} [DecidableEq ι] {s s' s₀ : Tunnel ι} {i : ι} {o : Outcome} {server : Server ι}
  {p q : PeerConnection ι} {keys : Keys ι} {network : IPNetwork} {serverIp : IPAddress}

/-- The packets that a client's thread has handed over to a peer. -/
def between (s : Tunnel ι) (i j : ι) : List Bytes :=
  (s.hops.filter fun h => h.sender = some i ∧ h.receiver = some j).map Hop.packet

/-- A packet from one peer to another. -/
def Goes (p q : PeerConnection ι) (packet : Bytes) : Bool :=
  packetEndpoints packet = .ok (p.vpnIp, q.vpnIp)

/-- The thread of a client is in its loop, and the other peer is registered. -/
structure Joined (s : Tunnel ι) (i : ι) (p q : PeerConnection ι) : Prop where
  loops : (s.server.pc i).loopPeer = some p
  registered : s.server.registry.get q.vpnIp = some q

instance (s : Tunnel ι) (i : ι) (p q : PeerConnection ι) : Decidable (s.Joined i p q) :=
  decidable_of_iff ((s.server.pc i).loopPeer = some p ∧ s.server.registry.get q.vpnIp = some q)
    ⟨fun h => ⟨h.1, h.2⟩, fun h => ⟨h.loops, h.registered⟩⟩

/-- All the records have been opened, and the thread has nothing in hand. -/
structure Drained (s : Tunnel ι) (i j : ι) : Prop where
  up : (s.up i).returned = (s.up i).packets
  down : (s.down j).returned = (s.down j).packets
  inHand : (s.server.pc i).inHand = []

theorem between_append (s : Tunnel ι) (i j : ι) (hop : Hop ι) {down up : ι → Channel} :
    ({ s with down := down, up := up, hops := s.hops ++ [hop] } : Tunnel ι).between i j =
      s.between i j ++
        if hop.sender = some i ∧ hop.receiver = some j then [hop.packet] else [] := by
  by_cases hj : hop.sender = some i ∧ hop.receiver = some j <;>
    simp [between, List.filter_append, hj]

omit [DecidableEq ι] in
/-- A peer is registered at its address alone. -/
theorem eq_of_get (h : s.Addressed) (hq : s.server.registry.get q.vpnIp = some q)
    {q' : PeerConnection ι} {a : IPv4Address} (hq' : s.server.registry.get a = some q') :
    q'.id = q.id ↔ a = q.vpnIp := by
  have howned := h.routed.inv.owned
  obtain rfl : q'.vpnIp = a := howned.inv.vpnIp a q' hq'
  have hregistered : (s.server.pc q.id).registeredPeer = some q := (howned.peers q).1 hq
  have hregistered' : (s.server.pc q'.id).registeredPeer = some q' := (howned.peers q').1 hq'
  constructor
  · intro hid
    rw [hid, hregistered] at hregistered'
    rw [Option.some.inj hregistered']
  · intro hvpnIp
    rw [hvpnIp, hq] at hq'
    rw [Option.some.inj hq']

/-- A thread in its loop hands over what it has got for a peer. -/
theorem between_serve (h : s.Addressed) (hjoined : s.Joined i p q) {pc' : ServePc ι}
    {r' : PeerRegistry ι} {out : Output ι}
    (hserve : serve s.server.registry i (s.server.pc i) o = some (pc', r', out))
    (hloops : pc'.loopPeer = some p) :
    (s.leave i (s.server.pc i) o).between i q.id ++ pc'.inHandFor q =
      s.between i q.id ++ (s.server.pc i).inHandFor q ++ out.arrivals.filter (Goes p q) := by
  obtain ⟨hp, hq⟩ := hjoined
  have hget {a : IPv4Address} {q' : PeerConnection ι} (hq' : s.server.registry.get a = some q') :
      q'.id = q.id ↔ a = q.vpnIp := eq_of_get h hq hq'
  revert hserve hloops hp
  generalize s.server.pc i = pc
  fun_cases serve s.server.registry i pc o
  all_goals intro hserve hloops hp
  all_goals simp only [Option.some.injEq, Prod.mk.injEq, reduceCtorEq] at hserve
  all_goals obtain ⟨rfl, -, rfl⟩ := hserve
  all_goals cases hp
  all_goals cases hloops
  case case11 hpacket => simp [leave, ServePc.inHandFor, Output.arrivals, Goes, hpacket]
  case case12 hpacket hsource =>
    simp [leave, ServePc.inHandFor, Output.arrivals, Goes, hpacket, hsource]
  case case13 packet source destination hpacket hsource =>
    rw [not_not] at hsource
    by_cases hdestination : destination = q.vpnIp <;>
      simp [leave, ServePc.inHandFor, Output.arrivals, Goes, hpacket, hsource, hdestination]
  -- The peer found is the one registered at the destination.
  case case16 hfound =>
    simp [leave, ServePc.inHandFor, Output.arrivals, hget hfound]
  case case17 packet destination hfound _ | case18 packet destination hfound _ =>
    have hne : destination ≠ q.vpnIp := by
      rintro rfl
      rw [hq] at hfound
      cases hfound
    simp [leave, ServePc.inHandFor, Output.arrivals, hne]
  case case19 packet q' =>
    rw [leave, handOver, between_append]
    simp [ServePc.inHandFor, Output.arrivals]
  case case21 packet =>
    simp [leave, between, List.filter_append, ServePc.inHandFor, Output.arrivals]

/-- Nor do the other threads hand over packets of this client. -/
theorem between_leave_of_ne {i' j : ι} (hi : i' ≠ i) (pc : ServePc ι) (o : Outcome) :
    (s.leave i' pc o).between i j = s.between i j := by
  fun_cases leave s i' pc o
  · rw [handOver, between_append, if_neg fun h => hi (Option.some.inj h.1), List.append_nil]
  · simp [between, List.filter_append]
  · rfl

theorem between_routerLeave (s : Tunnel ι) (i j : ι) (router : RouterPc ι) (o : Outcome) :
    (s.routerLeave router o).between i j = s.between i j := by
  fun_cases routerLeave s router o
  · rfl
  · rw [handOver, between_append, if_neg (by simp), List.append_nil]
  · rfl

/-- A step between two states in which both are there. -/
theorem between_next {a : TunnelAct ι} (h : s.Addressed) (hjoined : s.Joined i p q)
    (hjoined' : s'.Joined i p q) (hstep : next s a = some s') :
    ∃ new, s'.server.arrived i = s.server.arrived i ++ new ∧
      s'.between i q.id ++ (s'.server.pc i).inHandFor q =
        s.between i q.id ++ (s.server.pc i).inHandFor q ++ new.filter (Goes p q) := by
  -- A step of another thread does not matter.
  have hserve {i' : ι} {o : Outcome} {server : Server ι}
      (hserver : s.server.next (.serve i' o) = some server)
      (hloops : (server.pc i).loopPeer = some p) :
      ∃ new, server.arrived i = s.server.arrived i ++ new ∧
        (s.leave i' (s.server.pc i') o).between i q.id ++ (server.pc i).inHandFor q =
          s.between i q.id ++ (s.server.pc i).inHandFor q ++ new.filter (Goes p q) := by
    obtain ⟨pc', out, hserve, hpc, harrived⟩ := arrived_of_next hserver
    rw [hpc] at hloops ⊢
    rw [harrived]
    by_cases hi : i' = i
    · subst hi
      rw [Function.update_self] at hloops ⊢
      rw [Function.update_self]
      exact ⟨out.arrivals, rfl, between_serve h hjoined hserve hloops⟩
    · rw [Function.update_of_ne (Ne.symm hi), Function.update_of_ne (Ne.symm hi),
        between_leave_of_ne hi]
      exact ⟨[], (List.append_nil _).symm, (List.append_nil _).symm⟩
  have hkeep (hserver : s'.server = s.server) (hhops : s'.hops = s.hops) :
      ∃ new, s'.server.arrived i = s.server.arrived i ++ new ∧
        s'.between i q.id ++ (s'.server.pc i).inHandFor q =
          s.between i q.id ++ (s.server.pc i).inHandFor q ++ new.filter (Goes p q) := by
    rw [hserver, between, hhops]
    exact ⟨[], (List.append_nil _).symm, (List.append_nil _).symm⟩
  cases a with
  | connect i' =>
    obtain ⟨vpnIp, -, -, rfl⟩ := next_connect hstep
    exact hkeep rfl rfl
  | read i' packet =>
    obtain ⟨vpnIp, -, ⟨-, rfl⟩ | ⟨-, rfl⟩⟩ := next_read hstep
    · exact hkeep rfl rfl
    · exact hkeep rfl rfl
  | receive i' record =>
    obtain ⟨ended, -, rfl⟩ := next_receive hstep
    exact hkeep rfl rfl
  | arrive i' record =>
    obtain ⟨p', server, hpc, hserver, rfl⟩ := next_arrive hstep
    have := hserve hserver hjoined'.loops
    rwa [hpc] at this
  | serve i' o =>
    obtain ⟨server, -, hserver, rfl⟩ := next_serve hstep
    exact hserve hserver hjoined'.loops
  | route o =>
    obtain ⟨server, hserver, rfl⟩ := next_route hstep
    obtain ⟨router, out, -, rfl⟩ := Server.next_route hserver
    obtain ⟨-, hpc, harrived, -⟩ := s.server.routerOutput_keeps out
    refine ⟨[], ?_, ?_⟩
    · rw [List.append_nil]
      exact congrFun harrived i
    · have hbetween := between_routerLeave s i q.id s.server.router o
      simp only [List.filter_nil, List.append_nil]
      exact hpc ▸ hbetween ▸ rfl

/-- A run between two such states. -/
theorem between_of_run {as : List (TunnelAct ι)} (haead : ∀ i, (keys.aead i).Correct)
    (hkeys : ∀ i, keys.up i ≠ keys.down i) (h₀ : Inv keys s₀)
    (hrun : ((system network serverIp keys).restrict fun s a =>
      Sealing s a ∧ s.Joined i p q).Run s₀ as s) (hjoined : s.Joined i p q) :
    Inv keys s ∧ ∃ new, s.server.arrived i = s₀.server.arrived i ++ new ∧
      s.between i q.id ++ (s.server.pc i).inHandFor q =
        s₀.between i q.id ++ (s₀.server.pc i).inHandFor q ++ new.filter (Goes p q) := by
  induction hrun with
  | nil => exact ⟨h₀, [], (List.append_nil _).symm, (List.append_nil _).symm⟩
  | snoc _ hstep ih =>
    obtain ⟨hstep, hsealing, hjoined₁⟩ := hstep
    obtain ⟨hinv, new, harrived, hbetween⟩ := ih hjoined₁
    obtain ⟨new', harrived', hbetween'⟩ := between_next hinv.addressed hjoined₁ hjoined hstep
    refine ⟨inv_next haead hkeys hinv hsealing hstep, new ++ new', ?_, ?_⟩
    · rw [harrived', harrived, List.append_assoc]
    · rw [hbetween', hbetween, List.filter_append, List.append_assoc _ (new.filter _)]

/-- Both are there from the start. -/
theorem joined_of_run {as : List (TunnelAct ι)}
    (hrun : ((system network serverIp keys).restrict fun s a =>
      Sealing s a ∧ s.Joined i p q).Run s₀ as s) (hjoined : s.Joined i p q) :
    s₀.Joined i p q := by
  induction hrun with
  | nil => exact hjoined
  | snoc _ hstep ih => exact ih hstep.2.2

/-- What a client has read stays so. -/
theorem read_next {a : TunnelAct ι} (hstep : next s a = some s') (i : ι) :
    s.read i <+: s'.read i := by
  cases a with
  | connect i' =>
    obtain ⟨vpnIp, -, -, rfl⟩ := next_connect hstep
    exact List.prefix_refl _
  | read i' packet =>
    obtain ⟨vpnIp, -, hread⟩ := next_read hstep
    have hread' : s'.read = Function.update s.read i' (s.read i' ++ [packet]) := by
      rcases hread with ⟨-, rfl⟩ | ⟨-, rfl⟩ <;> rfl
    rw [hread']
    by_cases hi : i = i'
    · subst hi
      rw [Function.update_self]
      exact List.prefix_append _ _
    · rw [Function.update_of_ne hi]
  | receive i' record =>
    obtain ⟨ended, -, rfl⟩ := next_receive hstep
    exact List.prefix_refl _
  | arrive i' record =>
    obtain ⟨p', server, -, -, rfl⟩ := next_arrive hstep
    exact List.prefix_refl _
  | serve i' o =>
    obtain ⟨server, -, -, rfl⟩ := next_serve hstep
    rw [show _ = s.read from (s.leave_keeps i' (s.server.pc i') o).2.2.1]
  | route o =>
    obtain ⟨server, -, rfl⟩ := next_route hstep
    rw [show _ = s.read from (s.routerLeave_keeps s.server.router o).2.2.1]

theorem read_of_run {as : List (TunnelAct ι)} (hrun : (system network serverIp keys).Run s₀ as s)
    (i : ι) : s₀.read i <+: s.read i :=
  hrun.invariant (I := fun t => s₀.read i <+: t.read i)
    (fun _ _ _ hprefix hstep => hprefix.trans (read_next hstep i)) (List.prefix_refl _)

/-- A client sends every packet from its address. -/
theorem filter_sent (h : s.Addressed) (hlink : Link keys s i)
    (hp : s.address i = some p.vpnIp) (q : PeerConnection ι) :
    (s.sent i).filter (Goes p q) = (s.read i).filter (Goes p q) := by
  rw [sent]
  cases hvpnIp : s.vpnIp i with
  | none => rw [(hlink.unread hvpnIp).1]
  | some ip =>
    have hip : IPv4Address.ofText ip = some p.vpnIp := by
      rwa [address, h.told i ip hvpnIp] at hp
    obtain rfl := IPv4Address.text_of_ofText hip
    rw [List.filter_filter]
    refine List.filter_congr fun packet _ => ?_
    by_cases hgoes : Goes p q packet
    · -- Its source has the text of the address, so that it is not dropped.
      have hends := of_decide_eq_true hgoes
      have hne : packet ≠ [] := by
        rintro rfl
        cases hends
      have hsends : tunToNet (clientTunIp p.vpnIp.text) packet = .ok .sends := by
        rw [tunToNet, if_neg hne, hends]
        simp [vpnIpStr_clientTunIp]
      simp [hsends]
    · simp [hgoes]

/-- When its records have been opened, they have all arrived. -/
theorem filter_arrived (h : Inv keys s) (hjoined : s.Joined i p q) {j : ι}
    (hdrained : s.Drained i j) :
    (s.server.arrived i).filter (Goes p q) = (s.read i).filter (Goes p q) := by
  have hlink := h.link i
  have hup := hdrained.up
  rw [hlink.gotUp, hlink.sentUp] at hup
  have hregistered : (s.server.pc i).registeredPeer = some p := by
    have hloops := hjoined.loops
    cases hpc : s.server.pc i <;> rw [hpc] at hloops <;> first | exact hloops | cases hloops
  rw [List.append_cancel_left hup,
    filter_sent h.addressed hlink (address_of_registered h.addressed hregistered)]

theorem inHandFor_of_drained {j : ι} (h : s.Drained i j) (q : PeerConnection ι) :
    (s.server.pc i).inHandFor q = [] := by
  have hinHand := h.inHand
  cases hpc : s.server.pc i <;> rw [hpc] at hinHand <;> first | rfl | cases hinHand

end Tunnel

end SecNet
