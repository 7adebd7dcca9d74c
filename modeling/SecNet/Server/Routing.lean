import SecNet.Server.Ownership

/-!
# Where the packets of a peer go

The loop of `start_peer_packet_manager` forwards a packet only when its source is
the address of the peer, and then to the peer registered at its destination, or
to the TUN. Between the lookup of the destination and the delivery, other
threads may join and leave, and addresses may change hands.

* `Routing`: what a thread knows about the packet it is handling;
* `routing_of_serve`: a step keeps it;
* `forwarded_of_serve`: a packet is forwarded as it was decrypted, to its
  destination, while the peer of the thread is registered at its source;
* `source_and_destination`: hence, in every run, each packet goes to one place
  at most, which is its destination, and the TUN gets no packet for another
  address of the network.
-/

namespace SecNet

variable {ι : Type}

/-! ## The packet of a thread -/

namespace Output

/-- The packets decrypted in a step. -/
def arrivals : Output ι → List Bytes
  | .arrives packet => [packet]
  | _ => []

/-- The packets forwarded in a step, of the session `i`, the `n`-th. -/
def forwardings (i : ι) (n : ℕ) : Output ι → List (Forwarded ι)
  | .forwards packet target => [⟨i, n, packet, target⟩]
  | _ => []

end Output

/-- The place for a packet to `destination`. -/
def Target.Fits (network : IPv4Network) (serverIp destination : IPv4Address) : Target ι → Prop
  | .peer q => q.vpnIp = destination
  | .tun => destination = serverIp ∨ destination ∉ network

namespace ServePc

/-- A thread that has still to send the last packet it has decrypted. -/
def Busy : ServePc ι → Prop
  | .looking _ _ _ | .sending _ _ _ | .writing _ _ => True
  | _ => False

/-- What a thread knows about the packet it is handling: it is the last one that
    has arrived, it comes from the address of the peer, and it is on the way to
    its destination. -/
def Routing (network : IPv4Network) (serverIp : IPv4Address) (arrived : List Bytes) :
    ServePc ι → Prop
  | .looking p packet destination =>
    arrived.getLast? = some packet ∧ packetEndpoints packet = .ok (p.vpnIp, destination)
  | .sending p packet q =>
    arrived.getLast? = some packet ∧ packetEndpoints packet = .ok (p.vpnIp, q.vpnIp)
  | .writing p packet =>
    arrived.getLast? = some packet ∧ ∃ destination,
      packetEndpoints packet = .ok (p.vpnIp, destination) ∧
        (destination = serverIp ∨ destination ∉ network)
  | _ => True

end ServePc

variable [DecidableEq ι] {r r' : PeerRegistry ι} {i : ι} {pc pc' : ServePc ι} {o : Outcome}
  {out : Output ι} {arrived : List Bytes}

/-- A step of a thread does not touch the network. -/
theorem network_of_serve (h : serve r i pc o = some (pc', r', out)) :
    r'.network = r.network ∧ r'.serverIp = r.serverIp := by
  cases registryStep_of_serve h with
  | reserve hres => simpa [PeerRegistry.next, hres] using r.network_next .reserveIp
  | @register _ p _ _ hres => simpa [PeerRegistry.next, hres] using r.network_next (.register p)
  | @refuse _ p _ _ hres => simpa [PeerRegistry.next, hres] using r.network_next (.register p)
  | @remove _ _ p => exact r.network_next (.remove p)
  | @release ip => exact r.network_next (.releaseIp ip)
  | keep => exact ⟨rfl, rfl⟩

/-- A step keeps what a thread knows about its packet. -/
theorem routing_of_serve (hr : r.Inv) (h : serve r i pc o = some (pc', r', out))
    (hpc : pc.Routing r.network r.serverIp arrived) :
    pc'.Routing r.network r.serverIp (arrived ++ out.arrivals) := by
  revert h hpc
  fun_cases serve r i pc o
  all_goals intro h hpc
  all_goals simp only [Option.some.injEq, Prod.mk.injEq, reduceCtorEq] at h
  all_goals obtain ⟨rfl, -, rfl⟩ := h
  case case9 event => cases event <;> trivial
  case case13 hpacket hsource =>
    rw [not_not] at hsource
    exact ⟨by simp [Output.arrivals], hsource ▸ hpacket⟩
  -- The peer registered at the destination has that address.
  case case16 hget =>
    obtain ⟨hlast, hpacket⟩ := hpc
    rw [← hr.vpnIp _ _ hget] at hpacket
    exact ⟨by simpa [Output.arrivals] using hlast, hpacket⟩
  -- No peer has the address of the destination: it is the server, or outside.
  case case18 hget hoffnet =>
    obtain ⟨hlast, hpacket⟩ := hpc
    refine ⟨by simpa [Output.arrivals] using hlast, _, hpacket, ?_⟩
    rw [not_and_or, not_not] at hoffnet
    exact hoffnet.symm
  all_goals trivial

/-- A thread is busy with a packet that has just arrived, or was before. -/
theorem busy_of_serve (h : serve r i pc o = some (pc', r', out)) (hbusy : pc'.Busy) :
    pc.Busy ∧ out.arrivals = [] ∨ out.arrivals ≠ [] := by
  revert h hbusy
  fun_cases serve r i pc o
  all_goals intro h hbusy
  all_goals simp only [Option.some.injEq, Prod.mk.injEq, reduceCtorEq] at h
  all_goals obtain ⟨rfl, -, rfl⟩ := h
  case case9 event => cases event <;> exact False.elim hbusy
  all_goals first
    | exact False.elim hbusy
    | exact .inl ⟨trivial, rfl⟩
    | exact .inr (List.cons_ne_nil _ _)

/-- What is forwarded in a step, for the packet a thread is handling. -/
theorem forwards_of_serve {packet : Bytes} {target : Target ι}
    (h : serve r i pc o = some (pc', r', .forwards packet target))
    (hpc : pc.Routing r.network r.serverIp arrived) :
    pc.Busy ∧ ¬pc'.Busy ∧ arrived.getLast? = some packet ∧ ∃ p destination,
      pc.registeredPeer = some p ∧ packetEndpoints packet = .ok (p.vpnIp, destination) ∧
        target.Fits r.network r.serverIp destination := by
  revert h hpc
  fun_cases serve r i pc o
  all_goals intro h hpc
  all_goals simp only [Option.some.injEq, Prod.mk.injEq, reduceCtorEq, and_false,
    Output.forwards.injEq] at h
  case case8 previous => cases previous <;> simp at h
  case case19 =>
    obtain ⟨rfl, -, rfl, rfl⟩ := h
    exact ⟨trivial, id, hpc.1, _, _, rfl, hpc.2, rfl⟩
  case case21 =>
    obtain ⟨rfl, -, rfl, rfl⟩ := h
    obtain ⟨hlast, destination, hpacket, hfits⟩ := hpc
    exact ⟨trivial, id, hlast, _, destination, rfl, hpacket, hfits⟩

/-! ## The packets forwarded -/

namespace Server

/-- A packet forwarded is one that the session has decrypted, and has been sent
    to its destination. -/
def Genuine (s : Server ι) (f : Forwarded ι) : Prop :=
  (s.arrived f.session)[f.number]? = some f.packet ∧ ∃ source destination,
    packetEndpoints f.packet = .ok (source, destination) ∧
      f.target.Fits s.registry.network s.registry.serverIp destination

/-- The invariant of the loops: what they know about their packets is so, what
    they have forwarded is genuine, and each packet has been forwarded once at
    most. -/
structure Routed (s : Server ι) : Prop where
  inv : Inv s
  routing : ∀ i, (s.pc i).Routing s.registry.network s.registry.serverIp (s.arrived i)
  genuine : ∀ f ∈ s.forwarded, Genuine s f
  fresh : ∀ f ∈ s.forwarded, (s.pc f.session).Busy → f.number + 1 < (s.arrived f.session).length
  once : s.forwarded.Pairwise fun f g => ¬(f.session = g.session ∧ f.number = g.number)

/-- What a step of a session thread adds. -/
theorem output_eq (s : Server ι) (i : ι) (out : Output ι) :
    (s.output i out).arrived = Function.update s.arrived i (s.arrived i ++ out.arrivals) ∧
      (s.output i out).forwarded =
        s.forwarded ++ out.forwardings i ((s.arrived i).length - 1) := by
  rcases out with _ | _ | _ | _ | _ | ⟨packet, q | _⟩ <;>
    simp [output, Output.arrivals, Output.forwardings]

omit [DecidableEq ι] in
theorem mem_forwardings {f : Forwarded ι} {n : ℕ} :
    f ∈ out.forwardings i n ↔ out = .forwards f.packet f.target ∧ f.session = i ∧ f.number = n := by
  obtain ⟨session, number, packet, target⟩ := f
  cases out with
  | forwards packet' target' =>
    simp only [Output.forwardings, List.mem_singleton, Forwarded.mk.injEq, Output.forwards.injEq]
    constructor
    · rintro ⟨rfl, rfl, rfl, rfl⟩
      exact ⟨⟨rfl, rfl⟩, rfl, rfl⟩
    · rintro ⟨⟨rfl, rfl⟩, rfl, rfl⟩
      exact ⟨rfl, rfl, rfl, rfl⟩
  | quiet | closes _ | publishes _ | arrives _ | finds _ _ => simp [Output.forwardings]

omit [DecidableEq ι] in
/-- What has been decrypted stays so. -/
theorem genuine_mono {s s' : Server ι} {f : Forwarded ι} (hf : Genuine s f)
    (hnet : s'.registry.network = s.registry.network)
    (hserver : s'.registry.serverIp = s.registry.serverIp)
    (harrived : s.arrived f.session <+: s'.arrived f.session) : Genuine s' f := by
  obtain ⟨hpacket, source, destination, hends, hfits⟩ := hf
  obtain ⟨hlt, -⟩ := List.getElem?_eq_some_iff.1 hpacket
  refine ⟨?_, source, destination, hends, by rwa [hnet, hserver]⟩
  obtain ⟨later, hlater⟩ := harrived
  rw [← hlater, List.getElem?_append_left hlt, hpacket]

/-- What a session forwards in a step is its last packet, from the address of
    its peer, and it is not busy with it any more. -/
theorem forwarded_of_serve {s : Server ι} (h : Routed s)
    (hserve : serve s.registry i (s.pc i) o = some (pc', r', out)) {f : Forwarded ι}
    (hf : f ∈ out.forwardings i ((s.arrived i).length - 1)) :
    f.session = i ∧ f.number + 1 = (s.arrived i).length ∧ (s.pc i).Busy ∧ ¬pc'.Busy ∧
      (s.arrived i)[f.number]? = some f.packet ∧ ∃ p destination,
        (s.pc i).registeredPeer = some p ∧
        packetEndpoints f.packet = .ok (p.vpnIp, destination) ∧
        f.target.Fits s.registry.network s.registry.serverIp destination := by
  obtain ⟨rfl, hsession, hnumber⟩ := mem_forwardings.1 hf
  obtain ⟨hbusy, hidle, hlast, hends⟩ := forwards_of_serve hserve (h.routing i)
  have hlen : 0 < (s.arrived i).length :=
    List.length_pos_iff.2 (List.ne_nil_of_mem (List.mem_of_getLast? hlast))
  refine ⟨hsession, by omega, hbusy, hidle, ?_, hends⟩
  rw [hnumber, ← List.getLast?_eq_getElem?, hlast]

theorem routed_serve {s s' : Server ι} (h : Routed s) (hstep : next s (.serve i o) = some s') :
    Routed s' := by
  have hinv' := inv_next h.inv hstep
  obtain ⟨pc', r', out, hserve, rfl⟩ := next_serve hstep
  obtain ⟨hnet, hserver⟩ := network_of_serve hserve
  obtain ⟨harrived, hforwarded⟩ := output_eq s i out
  have hrouting := routing_of_serve h.inv.owned.inv hserve (h.routing i)
  have hmono (j : ι) : s.arrived j <+: (s.output i out).arrived j := by
    rw [harrived]
    by_cases hji : j = i
    · subst hji
      rw [Function.update_self]
      exact List.prefix_append _ _
    · rw [Function.update_of_ne hji]
  refine ⟨hinv', fun j => ?_, fun f hf => ?_, fun f hf hbusy => ?_, ?_⟩
  · by_cases hji : j = i
    · subst hji
      simp only [Function.update_self, hnet, hserver, harrived]
      exact hrouting
    · simp only [Function.update_of_ne hji, hnet, hserver, harrived]
      exact h.routing j
  · refine genuine_mono (s := s) ?_ hnet hserver (hmono _)
    simp only [hforwarded, List.mem_append] at hf
    rcases hf with hf | hf
    · exact h.genuine f hf
    · obtain ⟨rfl, -, -, -, hpacket, p, destination, -, hends, hfits⟩ :=
        forwarded_of_serve h hserve hf
      exact ⟨hpacket, _, destination, hends, hfits⟩
  · simp only [hforwarded, List.mem_append] at hf
    rcases hf with hf | hf
    · obtain ⟨hlt, -⟩ := List.getElem?_eq_some_iff.1 (h.genuine f hf).1
      by_cases hfi : f.session = i
      · simp only [hfi, Function.update_self, harrived, List.length_append] at hbusy hlt ⊢
        rcases busy_of_serve hserve hbusy with ⟨hbusy, -⟩ | hnew
        · have := h.fresh f hf (hfi ▸ hbusy)
          rw [hfi] at this
          omega
        · have := List.length_pos_iff.2 hnew
          omega
      · simp only [Function.update_of_ne hfi, harrived] at hbusy ⊢
        exact h.fresh f hf hbusy
    · obtain ⟨rfl, -, -, hidle, -⟩ := forwarded_of_serve h hserve hf
      simp only [Function.update_self] at hbusy
      exact (hidle hbusy).elim
  · simp only [hforwarded]
    refine List.pairwise_append.2 ⟨h.once, ?_, fun f hf g hg => ?_⟩
    · cases out <;> simp [Output.forwardings]
    · -- The session was still busy with the packet it forwards.
      rintro ⟨hsession, hnumber⟩
      obtain ⟨rfl, hlast, hbusy, -⟩ := forwarded_of_serve h hserve hg
      have := h.fresh f hf (hsession ▸ hbusy)
      rw [hsession] at this
      omega

theorem routed_next {s s' : Server ι} {a : ServerAct ι} (h : Routed s)
    (hstep : next s a = some s') : Routed s' := by
  cases a with
  | serve i o => exact routed_serve h hstep
  | route o =>
    have hinv' := inv_next h.inv hstep
    obtain ⟨router, out, -, rfl⟩ := next_route hstep
    obtain ⟨hreg, hpc, harrived, hforwarded⟩ := routerOutput_keeps s out
    constructor
    · exact hinv'
    · simp only [hreg, hpc, harrived]
      exact h.routing
    · simp only [Genuine, hreg, harrived, hforwarded]
      exact h.genuine
    · simp only [hpc, harrived, hforwarded]
      exact h.fresh
    · simp only [hforwarded]
      exact h.once

theorem routed_of_reachable {network : IPNetwork} {serverIp : IPAddress} {s : Server ι}
    (h : (system ι network serverIp).Reachable s) : Routed s := by
  refine h.invariant (I := Routed) ?_ fun _ _ _ hs hstep => routed_next hs hstep
  rintro s ⟨r, hr, rfl⟩
  exact ⟨inv_init ⟨r, hr, rfl⟩, fun _ => trivial, nofun, nofun, .nil⟩

/-- What the sessions have forwarded are packets they have decrypted, unchanged,
    each once at most, to the peer at its destination, or to the TUN, which gets
    no packet for another address of the network. And when a session forwards a
    packet, its peer is registered, at the source of the packet and nowhere else. -/
theorem source_and_destination {network : IPNetwork} {serverIp : IPAddress} {s : Server ι}
    (h : (system ι network serverIp).Reachable s) :
    (∀ f ∈ s.forwarded, Genuine s f) ∧
      (s.forwarded.Pairwise fun f g => ¬(f.session = g.session ∧ f.number = g.number)) ∧
      ∀ act s', next s act = some s' → ∃ new, s'.forwarded = s.forwarded ++ new ∧
        ∀ f ∈ new, Genuine s f ∧ ∃ p source destination,
          (s.pc f.session).registeredPeer = some p ∧ p.id = f.session ∧
          packetEndpoints f.packet = .ok (source, destination) ∧
          (∀ a, s.registry.peers a = some p ↔ a = source) := by
  have hrouted := routed_of_reachable h
  refine ⟨hrouted.genuine, hrouted.once, fun act s' hstep => ?_⟩
  cases act with
  | route o =>
    obtain ⟨router, out, -, rfl⟩ := next_route hstep
    simp only [(routerOutput_keeps s out).2.2.2]
    exact ⟨[], (List.append_nil _).symm, nofun⟩
  | serve i o =>
    obtain ⟨pc', r', out, hserve, rfl⟩ := next_serve hstep
    refine ⟨_, (output_eq s i out).2, fun f hf => ?_⟩
    obtain ⟨rfl, -, -, -, hpacket, p, destination, hp, hends, hfits⟩ :=
      forwarded_of_serve hrouted hserve hf
    have hid : p.id = f.session := hrouted.inv.owned.own _ p hp
    have hpeer := (hrouted.inv.owned.peers p).2 (hid ▸ hp)
    refine ⟨⟨hpacket, _, destination, hends, hfits⟩, p, _, destination, hp, hid, hends, fun a => ?_⟩
    constructor
    · exact fun ha => (hrouted.inv.owned.inv.vpnIp a p ha).symm
    · rintro rfl
      exact hpeer

/-- A packet from `10.8.0.2` to `10.8.0.3`, without payload. -/
def aliceToBob : Bytes :=
  [0x45, 0, 0, 20, 0, 0, 0, 0, 64, 17, 0, 0, 10, 8, 0, 2, 10, 8, 0, 3]

/-- Two devices join, and the first sends a packet to the second. -/
def joinsAndSends : List (ServerAct ℕ) :=
  joins 0 "alice" ++ joins 1 "bob" ++
    [.serve 0 (.packet aliceToBob), .serve 0 .done, .serve 0 .done]

/-- What it leads to. -/
def afterJoinsAndSends : Server ℕ :=
  (joinsAndSends.foldlM next (new PeerRegistry.smallRegistry)).get (by decide)

theorem reachable_afterJoinsAndSends :
    (system ℕ (.v4 PeerRegistry.smallRegistry.network)
      (.v4 PeerRegistry.smallRegistry.serverIp)).Reachable afterJoinsAndSends :=
  ⟨_, joinsAndSends, ⟨_, PeerRegistry.init_smallRegistry, rfl⟩,
    .of_foldlM (Option.some_get _).symm⟩

/-- The packet has been forwarded to the second device. -/
theorem source_and_destination_small :
    ∃ q : PeerConnection ℕ, q.deviceTag = some "bob" ∧
      afterJoinsAndSends.forwarded = [⟨0, 0, aliceToBob, .peer q⟩] ∧
      Genuine afterJoinsAndSends ⟨0, 0, aliceToBob, .peer q⟩ := by
  refine ⟨⟨1, ⟨0x0a080003, by norm_num⟩, some "bob"⟩, rfl, by decide, ?_⟩
  exact (source_and_destination reachable_afterJoinsAndSends).1 _ (by decide)

end Server

end SecNet
