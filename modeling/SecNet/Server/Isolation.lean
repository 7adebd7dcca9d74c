import SecNet.Server.Routing

/-!
# One dead socket, and the other peers

A packet for a peer is sent by the router of the TUN, or by the loop of the peer
it comes from. Neither has a `try` around `send_packet`: when it raises, because
the socket of the destination is closed, or too slow, the exception ends the
router, or the loop of the sender, which is removed.

* `Isolated`: the router and the loops go on, their peers stay registered, and
  what they have found a peer for is delivered;
* `isolated_iff`: a step keeps that just when it is not a `send_packet` that
  raises;
* `isolation`: so the peers are isolated in the runs without such a step;
* `router_ends_with_one_peer`: and one such step of the router stops the
  delivery to all peers, one of a loop removes the sender.
-/

namespace SecNet

variable {ι : Type}

/-- The packet a thread is sending to a peer. -/
def ServePc.inFlight : ServePc ι → List (Bytes × PeerConnection ι)
  | .sending _ packet q => [(packet, q)]
  | _ => []

/-- The packet the router is sending. -/
def RouterPc.inFlight : RouterPc ι → List (Bytes × PeerConnection ι)
  | .sending packet q => [(packet, q)]
  | _ => []

namespace Output

/-- The packets a peer is found for in a step. -/
def found : Output ι → List (Bytes × PeerConnection ι)
  | .finds packet q => [(packet, q)]
  | _ => []

/-- The packets delivered to a peer in a step. -/
def delivered : Output ι → List (Bytes × PeerConnection ι)
  | .forwards packet (.peer q) => [(packet, q)]
  | _ => []

end Output

variable [DecidableEq ι] {r r' : PeerRegistry ι} {i : ι} {pc pc' : ServePc ι}
  {router router' : RouterPc ι} {o : Outcome} {out : Output ι}

/-- A step of a thread whose `send_packet` does not raise. -/
theorem inFlight_of_serve (h : serve r i pc o = some (pc', r', out))
    (ho : o = .raises → pc.inFlight = []) :
    pc.inFlight ++ out.found = out.delivered ++ pc'.inFlight ∧
      ∀ p, pc' ≠ .stopping p .sendRaised := by
  revert h
  fun_cases serve r i pc o
  all_goals intro h
  all_goals simp only [Option.some.injEq, Prod.mk.injEq, reduceCtorEq] at h
  all_goals obtain ⟨rfl, -, rfl⟩ := h
  case case8 previous => exact ⟨by cases previous <;> rfl, nofun⟩
  case case9 event => exact ⟨by cases event <;> rfl, by cases event <;> exact nofun⟩
  case case20 => cases ho rfl
  all_goals exact ⟨rfl, nofun⟩

omit [DecidableEq ι] in
/-- A step of the router whose `send_packet` does not raise. -/
theorem inFlight_of_route (h : route r router o = some (router', out))
    (ho : o = .raises → router.inFlight = []) :
    router.inFlight ++ out.found = out.delivered ++ router'.inFlight ∧ router' ≠ .sendRaised := by
  revert h
  fun_cases route r router o
  all_goals intro h
  all_goals simp only [Option.some.injEq, Prod.mk.injEq, reduceCtorEq] at h
  all_goals obtain ⟨rfl, rfl⟩ := h
  case case8 => cases ho rfl
  all_goals exact ⟨rfl, nofun⟩

/-- A `send_packet` that raises ends the loop. -/
theorem stopping_of_serve (h : serve r i pc .raises = some (pc', r', out))
    (hpc : pc.inFlight ≠ []) : ∃ p, pc' = .stopping p .sendRaised := by
  cases pc with
  | sending p packet q =>
    obtain ⟨rfl, -⟩ := Prod.mk.inj (Option.some.inj h)
    exact ⟨p, rfl⟩
  | _ => exact absurd rfl hpc

omit [DecidableEq ι] in
/-- A `send_packet` that raises ends the router. -/
theorem sendRaised_of_route (h : route r router .raises = some (router', out))
    (hrouter : router.inFlight ≠ []) : router' = .sendRaised := by
  cases router with
  | sending packet q => exact (Prod.mk.inj (Option.some.inj h)).1.symm
  | _ => exact absurd rfl hrouter

namespace Server

/-- The packet a thread, or the router, is sending. -/
def inFlight (s : Server ι) : Option ι → List (Bytes × PeerConnection ι)
  | none => s.router.inFlight
  | some i => (s.pc i).inFlight

/-- No peer has been cut off by the socket of another: the router and the loops
    have not been ended by a `send_packet`, the peers of the loops are
    registered, and each packet for which there was a peer has been delivered to
    it, or is being sent. -/
structure Isolated (s : Server ι) : Prop where
  router : s.router ≠ .sendRaised
  loops : ∀ i p, s.pc i ≠ .stopping p .sendRaised
  registered : ∀ i p, (s.pc i).registeredPeer = some p → s.registry.peers p.vpnIp = some p
  delivered : ∀ k, s.found k = s.delivered k ++ s.inFlight k

/-- A step that is not a `send_packet` that raises. -/
def SendsSucceed (s : Server ι) : ServerAct ι → Prop
  | .serve i .raises => (s.pc i).inFlight = []
  | .route .raises => s.router.inFlight = []
  | _ => True

instance (s : Server ι) : DecidablePred s.SendsSucceed
  | .serve i .raises => inferInstanceAs (Decidable ((s.pc i).inFlight = []))
  | .route .raises => inferInstanceAs (Decidable (s.router.inFlight = []))
  | .serve _ .done | .serve _ (.session _) | .serve _ (.packet _) =>
    inferInstanceAs (Decidable True)
  | .route .done | .route (.session _) | .route (.packet _) => inferInstanceAs (Decidable True)

theorem log_output (s : Server ι) (i : ι) (out : Output ι) :
    (s.output i out).found = Function.update s.found (some i) (s.found (some i) ++ out.found) ∧
      (s.output i out).delivered =
        Function.update s.delivered (some i) (s.delivered (some i) ++ out.delivered) := by
  rcases out with _ | _ | _ | _ | _ | ⟨packet, q | _⟩ <;>
    simp [output, record, Output.found, Output.delivered]

theorem log_routerOutput (s : Server ι) (out : Output ι) :
    (s.routerOutput out).found = Function.update s.found none (s.found none ++ out.found) ∧
      (s.routerOutput out).delivered =
        Function.update s.delivered none (s.delivered none ++ out.delivered) := by
  rcases out with _ | _ | _ | _ | _ | ⟨packet, q | _⟩ <;>
    simp [routerOutput, record, Output.found, Output.delivered]

omit [DecidableEq ι] in
/-- The peers of the loops are registered, as the threads own their addresses. -/
theorem registered_of_inv {s : Server ι} (h : Inv s) (i : ι) (p : PeerConnection ι)
    (hp : (s.pc i).registeredPeer = some p) : s.registry.peers p.vpnIp = some p :=
  (h.owned.peers p).2 (h.owned.own i p hp ▸ hp)

theorem isolated_serve {s s' : Server ι} (hinv : Inv s) (hs : Isolated s)
    (hstep : next s (.serve i o) = some s') (ho : SendsSucceed s (.serve i o)) : Isolated s' := by
  have hregistered := registered_of_inv (inv_next hinv hstep)
  obtain ⟨pc, r, out, hserve, rfl⟩ := next_serve hstep
  obtain ⟨-, -, hrouter⟩ := output_keeps s i out
  obtain ⟨hfound, hdelivered⟩ := log_output s i out
  have hraises : o = .raises → (s.pc i).inFlight = [] := by
    rintro rfl
    exact ho
  obtain ⟨hlog, hloop⟩ := inFlight_of_serve hserve hraises
  refine ⟨hrouter ▸ hs.router, fun j p => ?_, hregistered, fun k => ?_⟩
  · by_cases hji : j = i
    · subst hji
      simpa using hloop p
    · simpa [Function.update_of_ne hji] using hs.loops j p
  · simp only [hfound, hdelivered]
    by_cases hk : k = some i
    · subst hk
      simp only [Function.update_self, inFlight, hs.delivered, List.append_assoc]
      rw [hlog]
    · simp only [Function.update_of_ne hk, hs.delivered k]
      cases k with
      | none => simp only [inFlight, hrouter]
      | some j =>
        have hji : j ≠ i := fun hji => hk (hji ▸ rfl)
        simp only [inFlight, Function.update_of_ne hji]

theorem isolated_route {s s' : Server ι} (hinv : Inv s) (hs : Isolated s)
    (hstep : next s (.route o) = some s') (ho : SendsSucceed s (.route o)) : Isolated s' := by
  have hregistered := registered_of_inv (inv_next hinv hstep)
  obtain ⟨router, out, hroute, rfl⟩ := next_route hstep
  obtain ⟨-, hpc, -, -⟩ := routerOutput_keeps s out
  obtain ⟨hfound, hdelivered⟩ := log_routerOutput s out
  have hraises : o = .raises → s.router.inFlight = [] := by
    rintro rfl
    exact ho
  obtain ⟨hlog, hrouter⟩ := inFlight_of_route hroute hraises
  refine ⟨hrouter, fun j p => hpc ▸ hs.loops j p, hregistered, fun k => ?_⟩
  simp only [hfound, hdelivered]
  cases k with
  | none =>
    simp only [Function.update_self, inFlight, hs.delivered, List.append_assoc]
    rw [hlog]
  | some j => simp [inFlight, hs.delivered (some j), hpc]

/-- A step keeps the peers isolated just when it is not a `send_packet` that raises. -/
theorem isolated_iff {s s' : Server ι} {act : ServerAct ι} (hinv : Inv s) (hs : Isolated s)
    (hstep : next s act = some s') : Isolated s' ↔ SendsSucceed s act := by
  constructor
  · intro hs'
    by_contra hraises
    rcases act with ⟨i, _ | _ | _ | _⟩ | ⟨_ | _ | _ | _⟩ <;> try exact hraises trivial
    · obtain ⟨pc, r, out, hserve, rfl⟩ := next_serve hstep
      obtain ⟨p, rfl⟩ := stopping_of_serve hserve hraises
      exact hs'.loops i p (by simp)
    · obtain ⟨router, out, hroute, rfl⟩ := next_route hstep
      exact hs'.router (sendRaised_of_route hroute hraises)
  · intro ho
    cases act with
    | serve i o => exact isolated_serve hinv hs hstep ho
    | route o => exact isolated_route hinv hs hstep ho

/-- In every run in which no `send_packet` raises, the peers are isolated, and
    the next `send_packet` that raises ends that. -/
theorem isolation {network : IPNetwork} {serverIp : IPAddress} {s : Server ι}
    (h : ((system ι network serverIp).restrict SendsSucceed).Reachable s) :
    Isolated s ∧ ∀ act s', next s act = some s' → (Isolated s' ↔ SendsSucceed s act) := by
  have hs : Inv s ∧ Isolated s := by
    refine h.invariant (I := fun s => Inv s ∧ Isolated s) ?_ ?_
    · rintro s ⟨r, hr, rfl⟩
      exact ⟨inv_init ⟨r, hr, rfl⟩, nofun, nofun, nofun, fun k => by cases k <;> rfl⟩
    · intro s act s' ⟨hinv, hs⟩ ⟨hstep, ho⟩
      exact ⟨inv_next hinv hstep, (isolated_iff hinv hs hstep).2 ho⟩
  exact ⟨hs.2, fun act s' hstep => isolated_iff hs.1 hs.2 hstep⟩

/-- Two devices join, and the router sends a packet to the second. -/
def joinsAndRoutes : List (ServerAct ℕ) :=
  joins 0 "alice" ++ joins 1 "bob" ++ [.route (.packet aliceToBob), .route .done, .route .done]

/-- What it leads to. -/
def afterJoinsAndRoutes : Server ℕ :=
  (joinsAndRoutes.foldlM (System.guarded next SendsSucceed)
    (new PeerRegistry.smallRegistry)).get (by decide)

/-- There, the packet has been delivered, and the peers are isolated. -/
theorem isolation_small : Isolated afterJoinsAndRoutes ∧
    (afterJoinsAndRoutes.delivered none).map Prod.fst = [aliceToBob] := by
  have hrun : ((system ℕ (.v4 PeerRegistry.smallRegistry.network)
      (.v4 PeerRegistry.smallRegistry.serverIp)).restrict SendsSucceed).Reachable
      afterJoinsAndRoutes :=
    ⟨_, joinsAndRoutes, ⟨_, PeerRegistry.init_smallRegistry, rfl⟩,
      .ofPartial_foldlM (Option.some_get _).symm⟩
  exact ⟨(isolation hrun).1, by decide⟩

/-- Three devices join, and `send_packet` to the second raises, first for the
    router, and then for the first device. -/
def deadSocket : List (ServerAct ℕ) :=
  joins 0 "alice" ++ joins 1 "bob" ++ joins 2 "carol" ++
    [.route (.packet aliceToBob), .route .done, .route .raises,
      .serve 0 (.packet aliceToBob), .serve 0 .done, .serve 0 .raises, .serve 0 .done]

/-- What it leads to. -/
def afterDeadSocket : Server ℕ :=
  (deadSocket.foldlM next (new PeerRegistry.smallRegistry)).get (by decide)

/-- The third device is registered, and the router has ended: no packet is
    delivered to it any more. And the first device is not registered. -/
theorem router_ends_with_one_peer :
    (system ℕ (.v4 PeerRegistry.smallRegistry.network)
      (.v4 PeerRegistry.smallRegistry.serverIp)).Reachable afterDeadSocket ∧
    afterDeadSocket.registry.peers ⟨0x0a080004, by norm_num⟩ =
      some ⟨2, ⟨0x0a080004, by norm_num⟩, some "carol"⟩ ∧
    (∀ o, next afterDeadSocket (.route o) = none) ∧
    afterDeadSocket.registry.peers ⟨0x0a080002, by norm_num⟩ = none := by
  have hrun : (system ℕ (.v4 PeerRegistry.smallRegistry.network)
      (.v4 PeerRegistry.smallRegistry.serverIp)).Reachable afterDeadSocket :=
    ⟨_, deadSocket, ⟨_, PeerRegistry.init_smallRegistry, rfl⟩,
      .of_foldlM (Option.some_get _).symm⟩
  have hrouter : afterDeadSocket.router = .sendRaised := by decide
  refine ⟨hrun, by decide, fun o => ?_, by decide⟩
  rw [next, hrouter]
  cases o <;> rfl

end Server

end SecNet
