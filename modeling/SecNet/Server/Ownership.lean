import SecNet.Server.Serve

/-!
# Who holds an address

A session thread holds an address from its `reserve_ip` until it gives the
address back itself: by `release_ip`, when it fails before its peer is made, or
by `remove`, in the `finally` of the packet loop or in the `except` of
`_serve_peer`. In between, the address is reserved for the thread, or its peer
is registered there.

* `Owned`: the addresses reserved and the peers registered are those the threads
  hold, each held by one thread;
* `registryStep_of_serve`: the steps of a session thread take a free address,
  register or remove the thread's own peer, release its own address, or leave
  the registry alone;
* `inv_of_reachable`: hence the threads own their addresses in every run;
* `address_ownership`: an address is held by one thread at a time, and when all
  threads have ended the pool is free;
* `address_taken_while_running`: a thread that has removed its peer has still to
  close it, and its address may be that of another thread by then.
-/

namespace SecNet

variable {ι : Type}

/-! ## What a thread holds -/

namespace ServePc

/-- The address a thread has reserved, and has neither released nor registered
    its peer at. -/
def reservedAddress : ServePc ι → Option IPv4Address
  | .reserved reservedIp => IPv4Address.ofText reservedIp
  | .connected _ peer => some peer.vpnIp
  | .failed reservedIp none => reservedIp.bind IPv4Address.ofText
  | _ => none

/-- The peer a thread has registered, and not removed. -/
def registeredPeer : ServePc ι → Option (PeerConnection ι)
  | .replacing _ peer _ | .publishing _ peer _ | .reading peer | .looking peer _ _
  | .sending peer _ _ | .writing peer _ | .stopping peer _ | .failed _ (some peer) => some peer
  | _ => none

/-- The peer a thread has made, and not removed. -/
def localPeer : ServePc ι → Option (PeerConnection ι)
  | .connected _ peer => some peer
  | pc => pc.registeredPeer

/-- The next step of a thread gives back what it holds: `release_ip`, or `remove`. -/
def GivesBack : ServePc ι → Prop
  | .stopping _ _ | .failed _ _ => True
  | _ => False

/-- A thread holds an address: it has reserved it, and not given it back. -/
def Holds (pc : ServePc ι) (a : IPv4Address) : Prop :=
  pc.reservedAddress = some a ∨ ∃ p, pc.registeredPeer = some p ∧ p.vpnIp = a

end ServePc

/-! ## Owners -/

/-- The addresses reserved are those held by the threads in `held`, and the
    peers registered are those of the threads in `registered`. -/
structure Owned (r : PeerRegistry ι) (held : ι → Option IPv4Address)
    (registered : ι → Option (PeerConnection ι)) : Prop where
  inv : r.Inv
  reserved : ∀ a, a ∈ r.reserved ↔ ∃ i, held i = some a
  unique : ∀ i j a, held i = some a → held j = some a → i = j
  peers : ∀ p, r.peers p.vpnIp = some p ↔ registered p.id = some p
  own : ∀ i p, registered i = some p → p.id = i

variable [DecidableEq ι] {r r' : PeerRegistry ι} {held : ι → Option IPv4Address}
  {registered : ι → Option (PeerConnection ι)} {i : ι} {p : PeerConnection ι} {ip : String}

/-- A new value does not matter to the others. -/
theorem update_some_iff {κ α : Type} [DecidableEq κ] {f : κ → Option α} {k j : κ} {x y : α}
    (hk : f k = none) (hxy : y ≠ x) : Function.update f k (some x) j = some y ↔ f j = some y := by
  by_cases hj : j = k
  · rw [hj, Function.update_self, hk]
    exact ⟨fun h => (hxy (Option.some.inj h).symm).elim, nofun⟩
  · rw [Function.update_of_ne hj]

/-- Nor does a value that is taken out. -/
theorem update_none_iff {κ α : Type} [DecidableEq κ] {f : κ → Option α} {k j : κ} {x y : α}
    (hk : f k = some x) (hxy : y ≠ x) : Function.update f k none j = some y ↔ f j = some y := by
  by_cases hj : j = k
  · rw [hj, Function.update_self, hk]
    exact ⟨nofun, fun h => (hxy (Option.some.inj h).symm).elim⟩
  · rw [Function.update_of_ne hj]

/-- Reserving an address takes it from nobody. -/
theorem owned_reserve (h : Owned r held registered) (hi : held i = none)
    (hres : r.reserveIp = (.ok ip, r')) :
    Owned r' (Function.update held i (IPv4Address.ofText ip)) registered := by
  have hinv := PeerRegistry.inv_reserveIp h.inv
  rw [hres] at hinv
  obtain ⟨a, -, -, rfl, -, hfree, -, rfl⟩ := PeerRegistry.reserveIp_ok hres
  rw [IPv4Address.ofText_text]
  have hother {j : ι} (hj : held j = some a) : False := hfree.2.2 ((h.reserved a).2 ⟨j, hj⟩)
  refine ⟨hinv, fun b => ?_, fun j k b hj hk => ?_, h.peers, h.own⟩
  · rw [Finset.mem_insert, h.reserved]
    constructor
    · rintro (rfl | ⟨j, hj⟩)
      · exact ⟨i, Function.update_self ..⟩
      · have hji : j ≠ i := by
          rintro rfl
          rw [hi] at hj
          cases hj
        exact ⟨j, by rw [Function.update_of_ne hji, hj]⟩
    · rintro ⟨j, hj⟩
      by_cases hji : j = i
      · rw [hji, Function.update_self] at hj
        exact .inl (Option.some.inj hj).symm
      · rw [Function.update_of_ne hji] at hj
        exact .inr ⟨j, hj⟩
  · by_cases hji : j = i <;> by_cases hki : k = i
    · rw [hji, hki]
    · rw [hji, Function.update_self] at hj
      rw [Function.update_of_ne hki, ← hj] at hk
      exact (hother hk).elim
    · rw [hki, Function.update_self] at hk
      rw [Function.update_of_ne hji, ← hk] at hj
      exact (hother hj).elim
    · rw [Function.update_of_ne hji] at hj
      rw [Function.update_of_ne hki] at hk
      exact h.unique j k b hj hk

/-- The addresses held when one thread does not hold its own any more. -/
theorem held_of_drop {a : IPv4Address} (hi : held i = some a)
    (hunique : ∀ i j a, held i = some a → held j = some a → i = j) (b : IPv4Address) :
    (∃ j, Function.update held i none j = some b) ↔ b ≠ a ∧ ∃ j, held j = some b := by
  constructor
  · rintro ⟨j, hj⟩
    have hji : j ≠ i := by
      rintro rfl
      rw [Function.update_self] at hj
      cases hj
    rw [Function.update_of_ne hji] at hj
    refine ⟨?_, j, hj⟩
    rintro rfl
    exact hji (hunique j i b hj hi)
  · rintro ⟨hba, j, hj⟩
    have hji : j ≠ i := by
      rintro rfl
      exact hba (Option.some.inj (hj.symm.trans hi))
    exact ⟨j, by rw [Function.update_of_ne hji, hj]⟩

theorem unique_of_drop (hunique : ∀ i j a, held i = some a → held j = some a → i = j) :
    ∀ j k a, Function.update held i none j = some a → Function.update held i none k = some a →
      j = k := by
  intro j k a hj hk
  by_cases hji : j = i
  · rw [hji, Function.update_self] at hj
    cases hj
  by_cases hki : k = i
  · rw [hki, Function.update_self] at hk
    cases hk
  rw [Function.update_of_ne hji] at hj
  rw [Function.update_of_ne hki] at hk
  exact hunique j k a hj hk

/-- Releasing the address one holds. -/
theorem owned_release {a : IPv4Address} (h : Owned r held registered) (hi : held i = some a)
    (hip : IPv4Address.ofText ip = some a) :
    Owned (r.releaseIp ip) (Function.update held i none) registered := by
  have hinv := PeerRegistry.inv_releaseIp h.inv ip
  obtain ⟨-, -, hpeers, -, -⟩ := r.releaseIp_spec ip
  refine ⟨hinv, fun b => ?_, unique_of_drop h.unique, hpeers ▸ h.peers, h.own⟩
  rw [held_of_drop hi h.unique, ← h.reserved, PeerRegistry.releaseIp, hip]
  exact Finset.mem_erase

/-- Registering a peer at the address one holds. -/
theorem owned_register (h : Owned r held registered) (hi : held i = some p.vpnIp)
    (hnone : registered i = none) (hp : p.id = i) :
    Owned (r.register p).2 (Function.update held i none)
      (Function.update registered i (some p)) := by
  have hmem : p.vpnIp ∈ r.reserved := (h.reserved _).2 ⟨i, hi⟩
  obtain ⟨-, -, hres, hpeers, -⟩ := PeerRegistry.register_of_mem hmem
  refine ⟨PeerRegistry.inv_register h.inv p, fun b => ?_, unique_of_drop h.unique, fun q => ?_,
    fun j q hq => ?_⟩
  · rw [held_of_drop hi h.unique, ← h.reserved, hres]
    exact Finset.mem_erase
  · rw [hpeers]
    by_cases hq : q = p
    · rw [hq, hp, Function.update_self, Function.update_self]
    · rw [update_some_iff (h.inv.disjoint _ hmem) hq, update_some_iff hnone hq, h.peers]
  · by_cases hji : j = i
    · rw [hji, Function.update_self] at hq
      obtain rfl := Option.some.inj hq
      rw [hp, hji]
    · rw [Function.update_of_ne hji] at hq
      exact h.own j q hq

/-- Removing one's own peer. -/
theorem owned_remove (h : Owned r held registered) (hi : registered i = some p) :
    Owned (r.remove p) held (Function.update registered i none) := by
  obtain ⟨-, -, hres, hpeers, -⟩ := r.remove_spec p
  have hp : p.id = i := h.own i p hi
  refine ⟨PeerRegistry.inv_remove h.inv p, hres ▸ h.reserved, h.unique, fun q => ?_,
    fun j q hq => ?_⟩
  · rw [hpeers]
    by_cases hq : q = p
    · subst hq
      rw [hp, Function.update_self, (h.peers q).2 (hp ▸ hi)]
      simp
    · rw [update_none_iff hi hq, ← h.peers]
      split_ifs with hcond
      · rw [hcond.2]
        exact ⟨nofun, fun hpq => (hq (Option.some.inj hpq).symm).elim⟩
      · rfl
  · by_cases hji : j = i
    · rw [hji, Function.update_self] at hq
      cases hq
    · rw [Function.update_of_ne hji] at hq
      exact h.own j q hq

/-! ## The steps of a thread -/

/-- What the steps of a session thread do to the registry. -/
inductive RegistryStep (r : PeerRegistry ι) : ServePc ι → ServePc ι → PeerRegistry ι → Prop
  | reserve {ip : String} {r' : PeerRegistry ι} (h : r.reserveIp = (.ok ip, r')) :
    RegistryStep r .start (.reserved ip) r'
  | register {ip : String} {p : PeerConnection ι} {previous : Option (PeerConnection ι)}
    {r' : PeerRegistry ι} (h : r.register p = (.ok previous, r')) :
    RegistryStep r (.connected ip p) (.replacing ip p previous) r'
  | refuse {ip : String} {p : PeerConnection ι} {e : Exn} {r' : PeerRegistry ι}
    (h : r.register p = (.error e, r')) :
    RegistryStep r (.connected ip p) (.failed (some ip) (some p)) r'
  | remove {pc pc' : ServePc ι} {p : PeerConnection ι} (hgives : pc.GivesBack)
    (h : pc.registeredPeer = some p) (hreg : pc'.registeredPeer = none)
    (hres : pc'.reservedAddress = pc.reservedAddress) :
    RegistryStep r pc pc' (r.remove p)
  | release {ip : String} :
    RegistryStep r (.failed (some ip) none) (.closing none) (r.releaseIp ip)
  | keep {pc pc' : ServePc ι} (hreg : pc'.registeredPeer = pc.registeredPeer)
    (hres : pc'.reservedAddress = pc.reservedAddress) : RegistryStep r pc pc' r

theorem registryStep_of_serve {pc pc' : ServePc ι} {o : Outcome} {out : Output ι}
    (h : serve r i pc o = some (pc', r', out)) : RegistryStep r pc pc' r' := by
  revert h
  fun_cases serve r i pc o
  all_goals intro h
  all_goals simp only [Option.some.injEq, Prod.mk.injEq, reduceCtorEq] at h
  all_goals obtain ⟨rfl, rfl, -⟩ := h
  case case1 hres => exact .reserve hres
  case case2 hres =>
    obtain ⟨-, -, rfl⟩ := PeerRegistry.reserveIp_error hres
    exact .keep rfl rfl
  -- The peer is made for the address that was reserved.
  case case4 hip => exact .keep rfl hip.symm
  case case6 hreg => exact .register hreg
  case case7 hreg => exact .refuse hreg
  case case9 event => cases event <;> exact .keep rfl rfl
  all_goals first | exact .keep rfl rfl | exact .remove trivial rfl rfl rfl | exact .release

/-- A thread makes its peer for itself. -/
theorem localPeer_of_serve {pc pc' : ServePc ι} {o : Outcome} {out : Output ι}
    (h : serve r i pc o = some (pc', r', out)) (hp : pc'.localPeer = some p) :
    pc.localPeer = some p ∨ p.id = i := by
  revert h
  fun_cases serve r i pc o
  all_goals intro h
  all_goals simp only [Option.some.injEq, Prod.mk.injEq, reduceCtorEq] at h
  all_goals obtain ⟨rfl, -, -⟩ := h
  case case4 =>
    obtain rfl := Option.some.inj hp
    exact .inr rfl
  case case9 event => cases event <;> exact .inl hp
  all_goals first | exact .inl hp | cases hp

/-! ## The invariant -/

namespace Server

/-- The threads own what is reserved and registered. -/
structure Inv (s : Server ι) : Prop where
  owned : Owned s.registry (fun i => (s.pc i).reservedAddress) fun i => (s.pc i).registeredPeer
  own : ∀ i p, (s.pc i).localPeer = some p → p.id = i

/-- What a thread holds, when it has moved. -/
theorem update_pc {β : Type} (f : ServePc ι → β) (pc : ι → ServePc ι) (i : ι) (x : ServePc ι) :
    (fun j => f (Function.update pc i x j)) = Function.update (fun j => f (pc j)) i (f x) := by
  funext j
  by_cases hj : j = i
  · rw [hj, Function.update_self, Function.update_self]
  · rw [Function.update_of_ne hj, Function.update_of_ne hj]

/-- A step of a thread keeps the addresses owned. -/
theorem owned_step {pc pc' : ServePc ι} (h : Owned r held registered)
    (hheld : held i = pc.reservedAddress) (hreg : registered i = pc.registeredPeer)
    (hown : ∀ p, pc.localPeer = some p → p.id = i) (hstep : RegistryStep r pc pc' r') :
    Owned r' (Function.update held i pc'.reservedAddress)
      (Function.update registered i pc'.registeredPeer) := by
  have hheld_keep (hx : pc'.reservedAddress = pc.reservedAddress) :
      Function.update held i pc'.reservedAddress = held := by
    rw [hx, ← hheld, Function.update_eq_self]
  have hreg_keep (hx : pc'.registeredPeer = pc.registeredPeer) :
      Function.update registered i pc'.registeredPeer = registered := by
    rw [hx, ← hreg, Function.update_eq_self]
  cases hstep with
  | reserve hres =>
    rw [hreg_keep rfl]
    exact owned_reserve h hheld hres
  | @register ip p previous _ hres =>
    have := owned_register h hheld hreg (hown p rfl)
    rw [hres] at this
    exact this
  | @refuse ip p e _ hres =>
    -- The address of the peer is reserved, for the thread itself.
    have hmem : p.vpnIp ∈ r.reserved := (h.reserved _).2 ⟨i, hheld⟩
    rw [PeerRegistry.register, if_neg (not_not.2 hmem)] at hres
    cases ht : p.tag <;> simp [ht] at hres
  | remove _ hp hnone hkeep =>
    rw [hheld_keep hkeep, hnone]
    exact owned_remove h (hreg.trans hp)
  | @release ip =>
    rw [hreg_keep rfl]
    cases ha : IPv4Address.ofText ip with
    | none =>
      have hkeep : (ServePc.failed (some ip) none : ServePc ι).reservedAddress = none := ha
      rw [hheld_keep hkeep.symm, PeerRegistry.releaseIp, ha]
      exact h
    | some a => exact owned_release h (hheld.trans ha) ha
  | keep hx hy =>
    rw [hheld_keep hy, hreg_keep hx]
    exact h

theorem inv_init {network : IPNetwork} {serverIp : IPAddress} {s : Server ι}
    (h : (system ι network serverIp).init s) : Inv s := by
  obtain ⟨r, hr, rfl⟩ := h
  obtain ⟨-, -, hpeers, -, hreserved⟩ := PeerRegistry.init_eq_ok hr
  refine ⟨⟨PeerRegistry.inv_init hr, ?_, ?_, ?_, ?_⟩, ?_⟩
  · intro a
    simp [new, hreserved, ServePc.reservedAddress]
  · rintro i j a ⟨⟩
  · intro p
    simp [new, hpeers, ServePc.registeredPeer]
  · rintro i p ⟨⟩
  · rintro i p ⟨⟩

/-- A step of a session thread keeps the addresses owned, and a step of the
    router leaves the registry alone. -/
theorem inv_next {s s' : Server ι} {a : ServerAct ι} (h : Inv s) (hstep : next s a = some s') :
    Inv s' := by
  cases a with
  | serve i o =>
    obtain ⟨pc, r, out, hserve, rfl⟩ := next_serve hstep
    constructor
    · simp only
      rw [update_pc ServePc.reservedAddress, update_pc ServePc.registeredPeer]
      exact owned_step h.owned rfl rfl (h.own i) (registryStep_of_serve hserve)
    · intro j p hp
      by_cases hji : j = i
      · subst hji
        simp only [Function.update_self] at hp
        exact (localPeer_of_serve hserve hp).elim (h.own j p) id
      · simp only [Function.update_of_ne hji] at hp
        exact h.own j p hp
  | route o =>
    obtain ⟨router, out, -, rfl⟩ := next_route hstep
    obtain ⟨hreg, hpc, -, -⟩ := routerOutput_keeps s out
    constructor
    · simp only [hreg, hpc]
      exact h.owned
    · simp only [hpc]
      exact h.own

/-- The threads own their addresses in every run. -/
theorem inv_of_reachable {network : IPNetwork} {serverIp : IPAddress} {s : Server ι}
    (h : (system ι network serverIp).Reachable s) : Inv s :=
  h.invariant (fun _ => inv_init) fun _ _ _ hs hstep => inv_next hs hstep

/-! ## Ownership -/

omit [DecidableEq ι] in
/-- An address that is held is reserved, or that of the peer of its holder. -/
theorem status_of_holds {s : Server ι} (h : Inv s) {i : ι} {a : IPv4Address}
    (hi : (s.pc i).Holds a) :
    a ∈ s.registry.reserved ∧ s.registry.peers a = none ∨
      a ∉ s.registry.reserved ∧ ∃ p, s.registry.peers a = some p ∧ p.id = i := by
  rcases hi with hres | ⟨p, hp, rfl⟩
  · have hmem := (h.owned.reserved a).2 ⟨i, hres⟩
    exact .inl ⟨hmem, h.owned.inv.disjoint a hmem⟩
  · have hid : p.id = i := h.owned.own i p hp
    have hpeer : s.registry.peers p.vpnIp = some p := (h.owned.peers p).2 (hid ▸ hp)
    refine .inr ⟨fun hmem => ?_, p, hpeer, hid⟩
    rw [h.owned.inv.disjoint _ hmem] at hpeer
    cases hpeer

omit [DecidableEq ι] in
/-- An address that is reserved, or that of a peer, is held. -/
theorem holds_of_status {s : Server ι} (h : Inv s) {a : IPv4Address}
    (ha : a ∈ s.registry.reserved ∨ s.registry.peers a ≠ none) : ∃ i, (s.pc i).Holds a := by
  rcases ha with ha | ha
  · obtain ⟨i, hi⟩ := (h.owned.reserved a).1 ha
    exact ⟨i, .inl hi⟩
  · obtain ⟨p, hp⟩ := Option.ne_none_iff_exists'.1 ha
    have hip := h.owned.inv.vpnIp a p hp
    exact ⟨p.id, .inr ⟨p, (h.owned.peers p).1 (hip ▸ hp), hip⟩⟩

omit [DecidableEq ι] in
theorem holds_unique {s : Server ι} (h : Inv s) {i j : ι} {a : IPv4Address}
    (hi : (s.pc i).Holds a) (hj : (s.pc j).Holds a) : i = j := by
  rcases status_of_holds h hi with ⟨hmem, hnone⟩ | ⟨hnot, p, hp, hpi⟩
  · rcases hi with hi | ⟨p, hp, rfl⟩
    · rcases hj with hj | ⟨q, hq, rfl⟩
      · exact h.owned.unique i j a hi hj
      · rw [(h.owned.peers q).2 (h.owned.own j q hq ▸ hq)] at hnone
        cases hnone
    · rw [(h.owned.peers p).2 (h.owned.own i p hp ▸ hp)] at hnone
      cases hnone
  · rcases status_of_holds h hj with ⟨hmem, -⟩ | ⟨-, q, hq, hqj⟩
    · exact (hnot hmem).elim
    · rw [← hpi, ← hqj, Option.some.inj (hp.symm.trans hq)]

/-- A thread keeps the address it holds, until it gives it back itself. -/
theorem holds_step {pc pc' : ServePc ι} {o : Outcome} {out : Output ι} {a : IPv4Address}
    (h : serve r i pc o = some (pc', r', out)) (ha : pc.Holds a) : pc'.Holds a ∨ pc.GivesBack := by
  cases registryStep_of_serve h with
  | reserve => simp [ServePc.Holds, ServePc.reservedAddress, ServePc.registeredPeer] at ha
  | register =>
    obtain hres | ⟨p, hp, -⟩ := ha
    · exact .inl (.inr ⟨_, rfl, Option.some.inj hres⟩)
    · cases hp
  | refuse =>
    obtain hres | ⟨p, hp, -⟩ := ha
    · exact .inl (.inr ⟨_, rfl, Option.some.inj hres⟩)
    · cases hp
  | release => exact .inr trivial
  | remove hgives => exact .inr hgives
  | keep hreg hres =>
    rw [ServePc.Holds, hreg, hres]
    exact .inl ha

/-- An address is held by one thread at a time, from its `reserve_ip` until the
    `release_ip` or the `remove` of the thread itself, and is reserved for it or
    that of its peer. When a thread has ended, what is reserved or registered is
    held by others, so that when all have ended the pool is free. -/
theorem address_ownership {network : IPNetwork} {serverIp : IPAddress} {s : Server ι}
    (h : (system ι network serverIp).Reachable s) :
    (∀ i a, (s.pc i).Holds a →
      (a ∈ s.registry.reserved ∧ s.registry.peers a = none ∨
        a ∉ s.registry.reserved ∧ ∃ p, s.registry.peers a = some p ∧ p.id = i) ∧
      (∀ j, (s.pc j).Holds a → j = i) ∧
      ∀ act s', next s act = some s' →
        (s'.pc i).Holds a ∨ (∃ o, act = .serve i o) ∧ (s.pc i).GivesBack) ∧
    (∀ i, s.pc i = .ended → ∀ a, a ∈ s.registry.reserved ∨ s.registry.peers a ≠ none →
      ∃ j, j ≠ i ∧ (s.pc j).Holds a) ∧
    ((∀ i, s.pc i = .start ∨ s.pc i = .ended) →
      s.registry.reserved = ∅ ∧ ∀ a, s.registry.peers a = none) := by
  have hinv := inv_of_reachable h
  have hnot {pc : ServePc ι} (hpc : pc = .start ∨ pc = .ended) (a : IPv4Address) :
      ¬pc.Holds a := by
    rcases hpc with rfl | rfl <;>
      simp [ServePc.Holds, ServePc.reservedAddress, ServePc.registeredPeer]
  refine ⟨fun i a hi => ⟨status_of_holds hinv hi, fun j hj => holds_unique hinv hj hi, ?_⟩, ?_, ?_⟩
  · intro act s' hstep
    cases act with
    | route o =>
      obtain ⟨router, out, -, rfl⟩ := next_route hstep
      simp only [(routerOutput_keeps s out).2.1]
      exact .inl hi
    | serve j o =>
      obtain ⟨pc, r, out, hserve, rfl⟩ := next_serve hstep
      by_cases hij : i = j
      · subst hij
        simp only [Function.update_self]
        exact (holds_step hserve hi).imp id fun hgives => ⟨⟨o, rfl⟩, hgives⟩
      · simp only [Function.update_of_ne hij]
        exact .inl hi
  · intro i hi a ha
    obtain ⟨j, hj⟩ := holds_of_status hinv ha
    refine ⟨j, ?_, hj⟩
    rintro rfl
    exact hnot (.inr hi) a hj
  · intro hall
    have hfree (a : IPv4Address) : ¬(a ∈ s.registry.reserved ∨ s.registry.peers a ≠ none) := by
      intro ha
      obtain ⟨i, hi⟩ := holds_of_status hinv ha
      exact hnot (hall i) a hi
    refine ⟨Finset.eq_empty_of_forall_notMem fun a ha => hfree a (.inl ha), fun a => ?_⟩
    by_contra ha
    exact hfree a (.inr ha)

/-- The steps of a thread, up to the loop of its packets. -/
def joins (i : ℕ) (deviceTag : String) : List (ServerAct ℕ) :=
  [.serve i .done, .serve i (.session (some deviceTag)), .serve i .done, .serve i .done,
    .serve i .done, .serve i .done, .serve i .done]

/-- A thread that removes its peer when the connection ends, and another that
    reserves an address before the first has closed its peer. -/
def endsThenReserves : List (ServerAct ℕ) :=
  joins 0 "alice" ++ [.serve 0 .done, .serve 0 .done, .serve 1 .done]

/-- What it leads to. -/
def afterEndsThenReserves : Server ℕ :=
  (endsThenReserves.foldlM next (new PeerRegistry.smallRegistry)).get (by decide)

theorem reachable_afterEndsThenReserves :
    (system ℕ (.v4 PeerRegistry.smallRegistry.network)
      (.v4 PeerRegistry.smallRegistry.serverIp)).Reachable afterEndsThenReserves :=
  ⟨_, endsThenReserves, ⟨_, PeerRegistry.init_smallRegistry, rfl⟩,
    .of_foldlM (Option.some_get _).symm⟩

/-- The first thread is still running, and its address is that of the second. -/
theorem address_taken_while_running :
    (system ℕ (.v4 PeerRegistry.smallRegistry.network)
      (.v4 PeerRegistry.smallRegistry.serverIp)).Reachable afterEndsThenReserves ∧
    ∃ p, afterEndsThenReserves.pc 0 = .removed p ∧ (afterEndsThenReserves.pc 1).Holds p.vpnIp := by
  refine ⟨reachable_afterEndsThenReserves,
    ⟨0, ⟨0x0a080002, by norm_num⟩, some "alice"⟩, by decide, .inl (by decide)⟩

/-- There, the second thread holds the address alone. -/
theorem address_ownership_small :
    (afterEndsThenReserves.pc 1).Holds ⟨0x0a080002, by norm_num⟩ ∧
      ¬(afterEndsThenReserves.pc 0).Holds ⟨0x0a080002, by norm_num⟩ := by
  have hholds : (afterEndsThenReserves.pc 1).Holds ⟨0x0a080002, by norm_num⟩ := .inl (by decide)
  obtain ⟨-, halone, -⟩ := (address_ownership reachable_afterEndsThenReserves).1 1 _ hholds
  exact ⟨hholds, fun h => absurd (halone 0 h) (by decide)⟩

end Server

end SecNet
