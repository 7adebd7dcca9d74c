import SecNet.Server.Tunnel

/-!
# What comes through the tunnel

What is written to the TUN of a client has come through two channels, and through the threads of
the server, between which an attacker stands, who makes no record that the AEAD opens (`Sealing`).

* `Link`: the channels of a client carry what its threads, and those of the server, have handed
  over;
* `Handed`: what the threads of the server have handed over is what they have got, on its way to
  its destination;
* `link_next`, `handed_next`: every step keeps them;
* `tunnel_sound`: so what is written to the TUN of a client was read from the TUN of a client or of
  the server, and comes in order, from the address of its sender to the address of the client.
-/

namespace SecNet

namespace Tunnel

variable {ι : Type} [DecidableEq ι] {s s' : Tunnel ι} {i j : ι} {o : Outcome} {server : Server ι}
  {q : PeerConnection ι}

/-! ## The channels -/

variable {keys : Keys ι} {network : IPNetwork} {serverIp : IPAddress}

/-- The channels of a client carry what its threads, and those of the server, have handed over. -/
structure Link (keys : Keys ι) (s : Tunnel ι) (i : ι) : Prop where
  up : Channel.Inv (keys.aead i) (keys.up i) (keys.down i) (s.up i)
  down : Channel.Inv (keys.aead i) (keys.down i) (keys.up i) (s.down i)
  sentUp : (s.up i).packets = keys.hello i ++ s.sent i
  gotUp : (s.up i).returned = keys.hello i ++ s.server.arrived i
  sentDown : (s.down i).packets = keys.answer i ++ s.hopsTo (some i)
  gotDown : (s.down i).returned = keys.answer i ++ s.written i
  unread : s.vpnIp i = none → s.read i = [] ∧ s.written i = []

/-- It is a matter of what has to do with the client. -/
theorem link_congr (h : Link keys s i) (hup : s'.up i = s.up i) (hdown : s'.down i = s.down i)
    (hvpnIp : s'.vpnIp i = s.vpnIp i) (hread : s'.read i = s.read i)
    (hwritten : s'.written i = s.written i) (harrived : s'.server.arrived i = s.server.arrived i)
    (hhops : s'.hopsTo (some i) = s.hopsTo (some i)) : Link keys s' i := by
  have hsent : s'.sent i = s.sent i := by rw [sent, sent, hvpnIp, hread]
  constructor
  · exact hup ▸ h.up
  · exact hdown ▸ h.down
  · rw [hup, hsent, h.sentUp]
  · rw [hup, harrived, h.gotUp]
  · rw [hdown, hhops, h.sentDown]
  · rw [hdown, hwritten, h.gotDown]
  · rw [hvpnIp, hread, hwritten]
    exact h.unread

theorem hopsTo_handOver (s : Tunnel ι) (k l : Option ι) (packet : Bytes) (q : PeerConnection ι) :
    (s.handOver k packet q).hopsTo l =
      s.hopsTo l ++ if some q.id = l then [packet] else [] := by
  by_cases hl : some q.id = l <;> simp [hopsTo, handOver, List.filter_append, hl]

/-- The packet of `send_packet` goes to one client. -/
theorem link_handOver (hkeys : keys.up i ≠ keys.down i) (h : Link keys s i)
    (hn : (s.down i).packets.length < 2 ^ 64) (k : Option ι) (packet : Bytes)
    (q : PeerConnection ι) : Link keys (s.handOver k packet q) i := by
  by_cases hi : i = q.id
  · subst hi
    have hhops := s.hopsTo_handOver k (some q.id) packet q
    rw [if_pos rfl] at hhops
    constructor
    · simpa [handOver] using Channel.inv_encryptOpposite hkeys h.up packet
    · simpa [handOver] using Channel.inv_encrypt h.down hn packet
    · exact Eq.trans (by simp [handOver, Channel.next]) h.sentUp
    · exact Eq.trans (by simp [handOver, Channel.next]) h.gotUp
    · rw [hhops, ← List.append_assoc, ← h.sentDown]
      simp [handOver, Channel.next]
    · exact Eq.trans (by simp [handOver, Channel.next]) h.gotDown
    · exact h.unread
  · have hne : some q.id ≠ some i := fun he => hi (Option.some.inj he).symm
    refine link_congr h ?_ ?_ rfl rfl rfl rfl ?_
    · simp [handOver, Function.update_of_ne hi]
    · simp [handOver, Function.update_of_ne hi]
    · rw [hopsTo_handOver, if_neg hne, List.append_nil]

/-- A hop to the TUN is no business of the clients. -/
theorem link_leave (hkeys : keys.up j ≠ keys.down j) (h : Link keys s j)
    (hn : (s.down j).packets.length < 2 ^ 64) (i : ι) (pc : ServePc ι) (o : Outcome) :
    Link keys (s.leave i pc o) j := by
  fun_cases leave s i pc o
  · exact link_handOver hkeys h hn _ _ _
  · exact link_congr h rfl rfl rfl rfl rfl rfl (by simp [hopsTo, List.filter_append])
  · exact h

theorem link_routerLeave (hkeys : keys.up j ≠ keys.down j) (h : Link keys s j)
    (hn : (s.down j).packets.length < 2 ^ 64) (router : RouterPc ι) (o : Outcome) :
    Link keys (s.routerLeave router o) j := by
  fun_cases routerLeave s router o
  · exact link_congr h rfl rfl rfl rfl rfl rfl rfl
  · exact link_handOver hkeys h hn _ _ _
  · exact h

/-- A step of a thread is no business of the channels, but for what arrives in it. -/
theorem arrived_of_next (h : s.server.next (.serve i o) = some server) :
    ∃ pc out, serve s.server.registry i (s.server.pc i) o = some (pc, server.registry, out) ∧
      server.pc = Function.update s.server.pc i pc ∧
      server.arrived = Function.update s.server.arrived i (s.server.arrived i ++ out.arrivals) := by
  obtain ⟨pc, r, out, hserve, rfl⟩ := Server.next_serve h
  exact ⟨pc, out, hserve, rfl, (s.server.output_eq i out).1⟩

/-- Nothing arrives but at the head of the loop. -/
theorem arrivals_of_serve {r r' : PeerRegistry ι} {pc pc' : ServePc ι} {out : Output ι}
    (h : serve r i pc o = some (pc', r', out)) (ho : ∀ packet, o ≠ .packet packet) :
    out.arrivals = [] := by
  revert h ho
  fun_cases serve r i pc o
  all_goals intro h ho
  all_goals simp only [Option.some.injEq, Prod.mk.injEq, reduceCtorEq] at h
  all_goals obtain ⟨-, -, rfl⟩ := h
  case case8 previous => cases previous <;> rfl
  all_goals first | rfl | exact absurd rfl (ho _)

/-- What is opened at the head of the loop arrives. -/
theorem arrivals_of_reading {r r' : PeerRegistry ι} {p : PeerConnection ι} {pc' : ServePc ι}
    {out : Output ι} {opening : Except Exn Bytes}
    (h : serve r i (.reading p) (opened opening) = some (pc', r', out)) :
    out.arrivals = Channel.returnedOf opening := by
  cases opening with
  | error e =>
    simp only [opened, serve, Option.some.injEq, Prod.mk.injEq] at h
    obtain ⟨-, -, rfl⟩ := h
    rfl
  | ok packet =>
    obtain ⟨verdict, -, hserve⟩ := serve_reading r i p packet
    rw [opened, hserve] at h
    obtain ⟨-, -, rfl⟩ : _ ∧ _ ∧ _ = out := by simpa using h
    rfl

theorem sent_read {vpnIp : String} (hvpnIp : s.vpnIp i = some vpnIp) (packet : Bytes)
    {up down : ι → Channel} :
    ({ s with
      read := Function.update s.read i (s.read i ++ [packet])
      up := up
      down := down } : Tunnel ι).sent i =
      s.sent i ++ if tunToNet (clientTunIp vpnIp) packet = .ok .sends then [packet] else [] := by
  simp only [sent, hvpnIp, Function.update_self, List.filter_append, List.filter_cons,
    List.filter_nil, decide_eq_true_eq]

/-- A step keeps the channels of the clients in order. -/
theorem link_next {a : TunnelAct ι} (haead : (keys.aead j).Correct)
    (hkeys : keys.up j ≠ keys.down j) (h : Link keys s j) (hsealing : Sealing s a)
    (hstep : next s a = some s') : Link keys s' j := by
  obtain ⟨hnup, hndown⟩ := hsealing.numbered j
  have hauth := hsealing.authentic
  cases a with
  | connect i =>
    obtain ⟨vpnIp, hnone, -, rfl⟩ := next_connect hstep
    by_cases hji : j = i
    · subst hji
      obtain ⟨hread, hwritten⟩ := h.unread hnone
      have hsent : s.sent j = [] := by rw [sent, hnone]
      refine ⟨h.up, h.down, ?_, h.gotUp, h.sentDown, h.gotDown, fun _ => ⟨hread, hwritten⟩⟩
      rw [h.sentUp, hsent]
      simp [sent, hread]
    · exact link_congr h rfl rfl (Function.update_of_ne hji _ _) rfl rfl rfl rfl
  | read i packet =>
    obtain ⟨vpnIp, hvpnIp, hread⟩ := next_read hstep
    by_cases hji : j = i
    · subst hji
      have hconnected {P : Prop} : s.vpnIp j = none → P := fun hnone => by
        rw [hvpnIp] at hnone
        cases hnone
      rcases hread with ⟨hsends, rfl⟩ | ⟨hsends, rfl⟩
      · constructor
        · simpa using Channel.inv_encrypt h.up hnup packet
        · simpa using Channel.inv_encryptOpposite hkeys.symm h.down packet
        · rw [sent_read hvpnIp, if_pos hsends, ← List.append_assoc, ← h.sentUp]
          simp [Channel.next]
        · exact Eq.trans (by simp [Channel.next]) h.gotUp
        · exact Eq.trans (by simp [Channel.next]) h.sentDown
        · exact Eq.trans (by simp [Channel.next]) h.gotDown
        · exact hconnected
      · refine ⟨h.up, h.down, ?_, h.gotUp, h.sentDown, h.gotDown, hconnected⟩
        rw [sent_read hvpnIp, if_neg hsends, List.append_nil]
        exact h.sentUp
    · rcases hread with ⟨-, rfl⟩ | ⟨-, rfl⟩
      · exact link_congr h (Function.update_of_ne hji _ _) (Function.update_of_ne hji _ _) rfl
          (Function.update_of_ne hji _ _) rfl rfl rfl
      · exact link_congr h rfl rfl rfl (Function.update_of_ne hji _ _) rfl rfl rfl
  | receive i record =>
    obtain ⟨ended, hconnected, rfl⟩ := next_receive hstep
    by_cases hji : j = i
    · subst hji
      refine ⟨h.up, ?_, h.sentUp, h.gotUp, ?_, ?_, fun hnone => ?_⟩
      · simpa using Channel.inv_decrypt haead h.down hndown hauth
      · exact Eq.trans (by simp [Channel.next]) h.sentDown
      · simp only [Function.update_self, Channel.next]
        rw [h.gotDown, List.append_assoc]
      · rw [show s.vpnIp j = none from hnone] at hconnected
        cases hconnected
    · exact link_congr h rfl (Function.update_of_ne hji _ _) rfl rfl
        (Function.update_of_ne hji _ _) rfl rfl
  | arrive i record =>
    obtain ⟨p, server, hpc, hserver, rfl⟩ := next_arrive hstep
    obtain ⟨pc', out, hserve, -, harrived⟩ := arrived_of_next hserver
    rw [hpc] at hserve
    rw [arrivals_of_reading hserve] at harrived
    by_cases hji : j = i
    · subst hji
      refine ⟨?_, h.down, ?_, ?_, h.sentDown, h.gotDown, h.unread⟩
      · simpa using Channel.inv_decrypt haead h.up hnup hauth
      · exact Eq.trans (by simp [Channel.next]) h.sentUp
      · simp only [Function.update_self, Channel.next, harrived]
        rw [h.gotUp, List.append_assoc]
    · refine link_congr h (Function.update_of_ne hji _ _) rfl rfl rfl rfl ?_ rfl
      simp only [harrived, Function.update_of_ne hji]
  | serve i o =>
    obtain ⟨server, ho, hserver, rfl⟩ := next_serve hstep
    obtain ⟨pc', out, hserve, -, harrived⟩ := arrived_of_next hserver
    rw [arrivals_of_serve hserve ho, List.append_nil, Function.update_eq_self] at harrived
    refine link_congr (link_leave hkeys h hndown i _ o) rfl rfl rfl rfl rfl ?_ rfl
    rw [(s.leave_keeps i _ o).2.2.2.2.2]
    exact congrFun harrived j
  | route o =>
    obtain ⟨server, hserver, rfl⟩ := next_route hstep
    obtain ⟨router, out, -, rfl⟩ := Server.next_route hserver
    refine link_congr (link_routerLeave hkeys h hndown _ o) rfl rfl rfl rfl rfl ?_ rfl
    rw [(s.routerLeave_keeps _ o).2.2.2.2]
    exact congrFun (s.server.routerOutput_keeps out).2.2.1 j

/-! ## The hops -/

/-- What the threads of the server have handed over is what they have got, on its way to its
    destination. -/
structure Handed (s : Tunnel ι) : Prop where
  genuine : ∀ h ∈ s.hops, s.Genuine h
  inHand : ∀ i, (s.hopsFrom (some i) ++ (s.server.pc i).inHand).Sublist (s.server.arrived i)
  router : (s.hopsFrom none ++ s.server.router.inHand).Sublist s.routed

/-- A hop is genuine for ever. -/
theorem genuine_next {a : TunnelAct ι} (h : s.Addressed) (hstep : next s a = some s') {hop : Hop ι}
    (hhop : s.Genuine hop) : s'.Genuine hop := by
  obtain ⟨source, destination, hends, hsender, hreceiver⟩ := hhop
  obtain ⟨hnetwork, hserverIp⟩ := network_next hstep
  refine ⟨source, destination, hends, fun i hi => address_next h hstep (hsender i hi), ?_⟩
  cases hj : hop.receiver with
  | some j =>
    rw [hj] at hreceiver
    exact address_next h hstep hreceiver
  | none =>
    rw [hj] at hreceiver
    simp only [hnetwork, hserverIp]
    exact hreceiver

theorem hopsFrom_append (s : Tunnel ι) (k : Option ι) (hop : Hop ι) {down up : ι → Channel} :
    ({ s with down := down, up := up, hops := s.hops ++ [hop] } : Tunnel ι).hopsFrom k =
      s.hopsFrom k ++ if hop.sender = k then [hop.packet] else [] := by
  by_cases hk : hop.sender = k <;> simp [hopsFrom, List.filter_append, hk]

/-- What a session thread hands over it had in hand, and has not any more. -/
theorem hopsFrom_leave {r r' : PeerRegistry ι} {pc pc' : ServePc ι} {out : Output ι}
    (h : serve r i pc o = some (pc', r', out)) :
    ((s.leave i pc o).hopsFrom (some i) ++ pc'.inHand).Sublist
      (s.hopsFrom (some i) ++ pc.inHand ++ out.arrivals) := by
  have hquiet (hleave : s.leave i pc o = s) : ((s.leave i pc o).hopsFrom (some i) ++
      pc'.inHand).Sublist (s.hopsFrom (some i) ++ pc.inHand ++ out.arrivals) := by
    rw [hleave, List.append_assoc]
    exact (inHand_of_serve h).append_left _
  revert h hquiet
  fun_cases leave s i pc o
  all_goals intro h hquiet
  -- The packet is handed over also when `send_packet` raises.
  case case1 p packet q =>
    have hidle : pc'.inHand = [] := by
      cases o <;> simp only [serve, Option.some.injEq, Prod.mk.injEq, reduceCtorEq] at h
      all_goals
        obtain ⟨rfl, -, -⟩ := h
        rfl
    rw [handOver, hopsFrom_append, if_pos rfl, hidle, List.append_nil]
    exact List.sublist_append_left _ _
  case case2 p packet =>
    obtain ⟨rfl, -, -⟩ : .reading p = pc' ∧ _ ∧ _ := by simpa [serve] using h
    simp [hopsFrom, List.filter_append, ServePc.inHand]
  case case3 => exact hquiet rfl

theorem hopsFrom_leave_of_ne {k : Option ι} (hk : k ≠ some i) (pc : ServePc ι) (o : Outcome) :
    (s.leave i pc o).hopsFrom k = s.hopsFrom k := by
  fun_cases leave s i pc o
  · rw [handOver, hopsFrom_append, if_neg hk.symm, List.append_nil]
  · simp [hopsFrom, List.filter_append, hk.symm]
  · rfl

/-- And so the router. -/
theorem hopsFrom_routerLeave {r : PeerRegistry ι} {router router' : RouterPc ι} {out : Output ι}
    (h : route r router o = some (router', out))
    (hrouter : (s.hopsFrom none ++ router.inHand).Sublist s.routed) :
    ((s.routerLeave router o).hopsFrom none ++ router'.inHand).Sublist
      (s.routerLeave router o).routed := by
  revert h hrouter
  fun_cases route r router o
  all_goals intro h hrouter
  all_goals simp only [Option.some.injEq, Prod.mk.injEq, reduceCtorEq] at h
  all_goals obtain ⟨rfl, -⟩ := h
  case case2 => exact (List.Sublist.trans (List.sublist_append_left _ _) hrouter).append_right _
  case case1 =>
    simp only [RouterPc.inHand, List.append_nil] at hrouter ⊢
    exact hrouter.trans (List.sublist_append_left _ _)
  case case5 => exact hrouter
  case case7 | case8 =>
    rw [routerLeave, handOver, hopsFrom_append, if_pos rfl]
    simpa [RouterPc.inHand] using hrouter
  all_goals
    simp only [RouterPc.inHand, List.append_nil]
    exact List.Sublist.trans (List.sublist_append_left _ _) hrouter

theorem hopsFrom_routerLeave_some (s : Tunnel ι) (i : ι) (router : RouterPc ι) (o : Outcome) :
    (s.routerLeave router o).hopsFrom (some i) = s.hopsFrom (some i) := by
  fun_cases routerLeave s router o
  · rfl
  · rw [handOver, hopsFrom_append, if_neg (by simp), List.append_nil]
  · rfl

/-- What a session thread hands over goes to its destination. -/
theorem genuine_leave (h : s.Addressed) (hhanded : s.Handed) {hop : Hop ι}
    (hhop : hop ∈ (s.leave i (s.server.pc i) o).hops) : s.Genuine hop := by
  have hrouting := h.routed.routing i
  have htarget := h.target i
  have hpeer (p : PeerConnection ι) := address_of_registered (q := p) h (i := i)
  revert hhop hrouting htarget hpeer
  generalize s.server.pc i = pc
  fun_cases leave s i pc o
  all_goals intro hhop hrouting htarget hpeer
  case case1 p packet q =>
    rcases List.mem_append.1 hhop with hhop | hhop
    · exact hhanded.genuine hop hhop
    · obtain rfl := List.mem_singleton.1 hhop
      exact ⟨p.vpnIp, q.vpnIp, hrouting.2, fun j hj => Option.some.inj hj ▸ hpeer p rfl,
        htarget q rfl⟩
  case case2 p packet =>
    rcases List.mem_append.1 hhop with hhop | hhop
    · exact hhanded.genuine hop hhop
    · obtain rfl := List.mem_singleton.1 hhop
      obtain ⟨-, destination, hends, hdestination⟩ := hrouting
      exact ⟨p.vpnIp, destination, hends, fun j hj => Option.some.inj hj ▸ hpeer p rfl,
        hdestination⟩
  case case3 => exact hhanded.genuine hop hhop

theorem genuine_routerLeave (h : s.Addressed) (hhanded : s.Handed) {hop : Hop ι}
    (hhop : hop ∈ (s.routerLeave s.server.router o).hops) : s.Genuine hop := by
  have hrouting := h.router
  have htarget := h.routerTarget
  revert hhop hrouting htarget
  generalize s.server.router = router
  fun_cases routerLeave s router o
  all_goals intro hhop hrouting htarget
  case case2 packet q =>
    rcases List.mem_append.1 hhop with hhop | hhop
    · exact hhanded.genuine hop hhop
    · obtain rfl := List.mem_singleton.1 hhop
      obtain ⟨source, hends⟩ := hrouting
      exact ⟨source, q.vpnIp, hends, fun i hi => absurd hi (Option.some_ne_none i).symm,
        htarget q rfl⟩
  all_goals exact hhanded.genuine hop hhop

/-- A step of a session thread, or of the head of its loop. -/
theorem inHand_serve (h : s.Handed) (hserver : s.server.next (.serve i o) = some server) (j : ι) :
    ((s.leave i (s.server.pc i) o).hopsFrom (some j) ++ (server.pc j).inHand).Sublist
      (server.arrived j) := by
  obtain ⟨pc', out, hserve, hpc, harrived⟩ := arrived_of_next hserver
  rw [hpc, harrived]
  by_cases hji : j = i
  · subst hji
    rw [Function.update_self, Function.update_self]
    exact (hopsFrom_leave hserve).trans ((h.inHand j).append_right _)
  · rw [Function.update_of_ne hji, Function.update_of_ne hji,
      hopsFrom_leave_of_ne fun he => hji (Option.some.inj he)]
    exact h.inHand j

/-- A step keeps the hops in order. -/
theorem handed_next {a : TunnelAct ι} (haddressed : s.Addressed) (h : s.Handed)
    (hstep : next s a = some s') : s'.Handed := by
  have hgenuine {hop : Hop ι} (hhop : s.Genuine hop) : s'.Genuine hop :=
    genuine_next haddressed hstep hhop
  cases a with
  | connect i =>
    obtain ⟨vpnIp, -, -, rfl⟩ := next_connect hstep
    exact ⟨fun hop hhop => hgenuine (h.genuine hop hhop), h.inHand, h.router⟩
  | read i packet =>
    obtain ⟨vpnIp, -, ⟨-, rfl⟩ | ⟨-, rfl⟩⟩ := next_read hstep
    · exact ⟨fun hop hhop => hgenuine (h.genuine hop hhop), h.inHand, h.router⟩
    · exact ⟨fun hop hhop => hgenuine (h.genuine hop hhop), h.inHand, h.router⟩
  | receive i record =>
    obtain ⟨ended, -, rfl⟩ := next_receive hstep
    exact ⟨fun hop hhop => hgenuine (h.genuine hop hhop), h.inHand, h.router⟩
  | arrive i record =>
    obtain ⟨p, server, hpc, hserver, rfl⟩ := next_arrive hstep
    have hinHand := inHand_serve h hserver
    rw [hpc] at hinHand
    refine ⟨fun hop hhop => hgenuine (h.genuine hop hhop), hinHand, ?_⟩
    obtain ⟨pc, r, out, -, rfl⟩ := Server.next_serve hserver
    exact (s.server.output_keeps i out).2.2 ▸ h.router
  | serve i o =>
    obtain ⟨server, -, hserver, rfl⟩ := next_serve hstep
    have hinHand := inHand_serve h hserver
    refine ⟨fun hop hhop => hgenuine (genuine_leave haddressed h hhop), hinHand, ?_⟩
    have hrouted := (s.leave_keeps i (s.server.pc i) o).2.2.2.2.1
    have hhops := hopsFrom_leave_of_ne (s := s) (k := none) nofun (s.server.pc i) o (i := i)
    obtain ⟨pc, r, out, -, rfl⟩ := Server.next_serve hserver
    have hrouter := (s.server.output_keeps i out).2.2
    exact hrouted ▸ hrouter ▸ hhops ▸ h.router
  | route o =>
    obtain ⟨server, hserver, rfl⟩ := next_route hstep
    obtain ⟨router, out, hroute, rfl⟩ := Server.next_route hserver
    obtain ⟨-, hpc, harrived, -⟩ := s.server.routerOutput_keeps out
    refine ⟨fun hop hhop => hgenuine (genuine_routerLeave haddressed h hhop), fun j => ?_,
      hopsFrom_routerLeave hroute h.router⟩
    have hhops := s.hopsFrom_routerLeave_some j s.server.router o
    exact harrived ▸ hpc ▸ hhops ▸ h.inHand j

/-! ## What comes through -/

/-- The invariant of the tunnel. -/
structure Inv (keys : Keys ι) (s : Tunnel ι) : Prop where
  addressed : s.Addressed
  handed : s.Handed
  link : ∀ i, Link keys s i

theorem inv_start (h : Start network serverIp keys s) : Inv keys s := by
  obtain ⟨r, hr, hserver⟩ := h.server
  have hreach : (Server.system ι network serverIp).Reachable s.server :=
    ⟨s.server, [], ⟨r, hr, hserver⟩, .nil _⟩
  have hrouted := Server.routed_of_reachable hreach
  refine ⟨⟨hrouted, ?_, ?_, ?_, ?_, ?_⟩, ⟨?_, ?_, ?_⟩, fun i => ?_⟩
  · intro i
    rw [hserver]
    exact h.reservedIp i
  · intro i ip hip
    rw [h.vpnIp i] at hip
    cases hip
  · intro i q hq
    rw [hserver] at hq
    cases hq
  · rw [hserver]
    trivial
  · intro q hq
    rw [hserver] at hq
    cases hq
  · rw [h.hops]
    exact nofun
  · intro i
    simp [hopsFrom, h.hops, hserver, Server.new, ServePc.inHand]
  · simp [hopsFrom, h.hops, hserver, Server.new, RouterPc.inHand]
  · have hfresh := h.fresh i
    refine ⟨hfresh.up, hfresh.down, ?_, ?_, ?_, ?_, fun _ => ⟨h.read i, h.written i⟩⟩
    · simp [hfresh.sentUp, sent, h.vpnIp i]
    · simp [hfresh.gotUp, hserver, Server.new]
    · simp [hfresh.sentDown, hopsTo, h.hops]
    · simp [hfresh.gotDown, h.written i]

theorem inv_next {a : TunnelAct ι} (haead : ∀ i, (keys.aead i).Correct)
    (hkeys : ∀ i, keys.up i ≠ keys.down i) (h : Inv keys s) (hsealing : Sealing s a)
    (hstep : next s a = some s') : Inv keys s' where
  addressed := addressed_next h.addressed hstep
  handed := handed_next h.addressed h.handed hstep
  link i := link_next (haead i) (hkeys i) (h.link i) hsealing hstep

/-- It holds along every run in which the AEAD is authentic. -/
theorem inv_of_reachable (haead : ∀ i, (keys.aead i).Correct)
    (hkeys : ∀ i, keys.up i ≠ keys.down i)
    (h : ((system network serverIp keys).restrict Sealing).Reachable s) : Inv keys s := by
  refine h.invariant (I := Inv keys) (fun _ hs => inv_start hs) ?_
  rintro s a s' hs ⟨hstep, hsealing⟩
  exact inv_next haead hkeys hs hsealing hstep

omit [DecidableEq ι] in
/-- What a client has sent it has read. -/
theorem sent_sublist (s : Tunnel ι) (i : ι) : (s.sent i).Sublist (s.read i) := by
  rw [sent]
  split
  · exact List.filter_sublist
  · exact List.nil_sublist _

/-- What a peer has got is what its client has sent, as far as it has come. -/
theorem isPrefix_arrived (h : Link keys s i) : s.server.arrived i <+: s.sent i := by
  have hreturned := h.up.returned
  rw [h.gotUp, h.sentUp] at hreturned
  exact (List.prefix_append_right_inj _).1 hreturned

/-- And what a client has written is what has been handed over to its peer. -/
theorem isPrefix_written (h : Link keys s i) : s.written i <+: s.hopsTo (some i) := by
  have hreturned := h.down.returned
  rw [h.gotDown, h.sentDown] at hreturned
  exact (List.prefix_append_right_inj _).1 hreturned

/-- Whatever records the attacker gives, and in whatever order the threads go on: what is written
    to the TUN of a client are the first packets that the server has handed over to its peer, in
    order. Those that the server has from a client are packets that the client has read, each once
    at most and in order, and those that the router hands over it has read from the TUN of the
    server. Each of them goes from the address of its sender to the address of its receiver, and to
    the TUN of the server only for an address that is not of a client. -/
theorem tunnel_sound (haead : ∀ i, (keys.aead i).Correct) (hkeys : ∀ i, keys.up i ≠ keys.down i)
    (h : ((system network serverIp keys).restrict Sealing).Reachable s) :
    (∀ j, s.written j <+: s.hopsTo (some j)) ∧
      (∀ i, (s.hopsFrom (some i)).Sublist (s.read i)) ∧ (s.hopsFrom none).Sublist s.routed ∧
      ∀ hop ∈ s.hops, s.Genuine hop := by
  have hinv := inv_of_reachable haead hkeys h
  refine ⟨fun j => isPrefix_written (hinv.link j), fun i => ?_, ?_, hinv.handed.genuine⟩
  · calc (s.hopsFrom (some i)).Sublist (s.server.arrived i) :=
          (List.sublist_append_left _ _).trans (hinv.handed.inHand i)
      List.Sublist _ (s.sent i) := (isPrefix_arrived (hinv.link i)).sublist
      List.Sublist _ (s.read i) := s.sent_sublist i
  · exact (List.sublist_append_left _ _).trans hinv.handed.router

instance [Fintype ι] (s : Tunnel ι) (a : TunnelAct ι) : Decidable (Sealing s a) :=
  have : Decidable (match a with
      | .receive i record => (s.down i).Authentic (.decrypt record)
      | .arrive i record => (s.up i).Authentic (.decrypt record)
      | _ => True) := by
    cases a <;> infer_instance
  decidable_of_iff (_ ∧ ∀ i, (s.up i).packets.length < 2 ^ 64 ∧ (s.down i).packets.length < 2 ^ 64)
    ⟨fun h => ⟨h.1, h.2⟩, fun h => ⟨h.authentic, h.numbered⟩⟩

/-- The keys of two sessions, which have sealed nothing yet. -/
def twoKeys : Keys Bool where
  aead _ := tagAead
  up i := ascii (if i then "bob to server" else "alice to server")
  down i := ascii (if i then "server to bob" else "server to alice")
  hello _ := []
  answer _ := []

/-- `10.8.0.0/29`, before anything has happened. -/
def twoClients : Tunnel Bool where
  server := .new ⟨PeerRegistry.smallRegistry.network, PeerRegistry.smallRegistry.serverIp,
    PeerRegistry.smallRegistry.serverIp_mem, fun _ => none, fun _ => none, ∅⟩
  reservedIp _ := none
  vpnIp _ := none
  up i := .new tagAead (twoKeys.up i) (twoKeys.down i)
  down i := .new tagAead (twoKeys.down i) (twoKeys.up i)
  ended _ := false
  read _ := []
  written _ := []
  routed := []
  hops := []

theorem start_twoClients : Start (.v4 PeerRegistry.smallRegistry.network)
    (.v4 PeerRegistry.smallRegistry.serverIp) twoKeys twoClients where
  server := by
    refine ⟨_, ?_, rfl⟩
    rw [PeerRegistry.init, dif_pos PeerRegistry.smallRegistry.serverIp_mem]
  fresh i := ⟨Channel.inv_new _ _ _, Channel.inv_new _ _ _, rfl, rfl, rfl, rfl⟩
  reservedIp _ := rfl
  vpnIp _ := rfl
  read _ := rfl
  written _ := rfl
  routed := rfl
  hops := rfl

/-- A device joins. -/
def joinsTunnel (i : Bool) (deviceTag : String) : List (TunnelAct Bool) :=
  [.serve i .done, .serve i (.session (some deviceTag)), .connect i, .serve i .done,
    .serve i .done, .serve i .done, .serve i .done, .serve i .done]

/-- The two devices have joined. -/
def afterJoins : Tunnel Bool :=
  ((joinsTunnel false "alice" ++ joinsTunnel true "bob").foldlM (System.guarded next Sealing)
    twoClients).get (by decide)

/-- A packet of the first goes through to the second. -/
def goesThrough : List (TunnelAct Bool) :=
  [.read false Server.aliceToBob,
    .arrive false (SessionCipher.record tagAead (twoKeys.up false) 0 Server.aliceToBob),
    .serve false .done, .serve false .done,
    .receive true (SessionCipher.record tagAead (twoKeys.down true) 0 Server.aliceToBob)]

/-- What it leads to. -/
def afterGoesThrough : Tunnel Bool :=
  (goesThrough.foldlM (System.guarded next Sealing) afterJoins).get (by decide)

theorem run_afterJoins : ((system (.v4 PeerRegistry.smallRegistry.network)
    (.v4 PeerRegistry.smallRegistry.serverIp) twoKeys).restrict Sealing).Run twoClients
      (joinsTunnel false "alice" ++ joinsTunnel true "bob") afterJoins :=
  .ofPartial_foldlM (Option.some_get _).symm

theorem reachable_afterGoesThrough : ((system (.v4 PeerRegistry.smallRegistry.network)
    (.v4 PeerRegistry.smallRegistry.serverIp) twoKeys).restrict Sealing).Reachable
      afterGoesThrough :=
  ⟨_, _, start_twoClients,
    run_afterJoins.append (.ofPartial_foldlM (Option.some_get (by decide)).symm)⟩

/-- There, it has been written to the TUN of the second device, and goes from the address of the
    first one to its own. -/
theorem tunnel_sound_twoClients : afterGoesThrough.written true = [Server.aliceToBob] ∧
    afterGoesThrough.written true <+: afterGoesThrough.hopsTo (some true) ∧
    afterGoesThrough.Genuine ⟨some false, Server.aliceToBob, some true⟩ := by
  have haead (i : Bool) : (twoKeys.aead i).Correct := tagAead_correct
  obtain ⟨hwritten, -, -, hgenuine⟩ :=
    tunnel_sound haead (by decide) reachable_afterGoesThrough
  exact ⟨by decide, hwritten true, hgenuine _ (by decide)⟩

end Tunnel

end SecNet
