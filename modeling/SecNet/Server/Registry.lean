import Mathlib
import SecNet.Exn
import SecNet.Lib.IPv4
import SecNet.Lib.Transition

/-!
# The peer registry

`PeerRegistry` of `packet_manager.py`: the addresses of the VPN network that are
reserved for a session being set up, the peers registered at theirs, and the
peers by the tags of their devices. Each operation holds the lock of the
registry from its start to its end, and is one step; `register` closes the peer
it replaces after that.

* `Inv`: the tables agree with each other and with the network;
* `inv_next`, `inv_of_reachable`: the operations keep it, in any order;
* `registry_invariant`: what follows of the registry, and of what its operations
  do, in every state they lead to.
-/

namespace SecNet

/-- What `ip_network` returns. -/
inductive IPNetwork
  | v4 (network : IPv4Network)
  | v6

/-- What `ip_address` returns. -/
inductive IPAddress
  | v4 (address : IPv4Address)
  | v6

/-- A peer connection, by the session thread it was made for: what the registry
    reads of it. There is one for each thread, so that two of them are the same
    object when they are equal. -/
structure PeerConnection (ι : Type) where
  id : ι
  vpnIp : IPv4Address
  deviceTag : Option String
  deriving DecidableEq

/-- `peer.device_tag`, where it is true: a tag that is not empty. -/
def PeerConnection.tag {ι : Type} (p : PeerConnection ι) : Option String :=
  p.deviceTag.filter (· ≠ "")

/-- A registry. -/
structure PeerRegistry (ι : Type) where
  network : IPv4Network
  serverIp : IPv4Address
  /-- `__init__` has checked it. -/
  serverIp_mem : serverIp ∈ network
  peers : IPv4Address → Option (PeerConnection ι)
  tags : String → Option (PeerConnection ι)
  reserved : Finset IPv4Address

namespace PeerRegistry

variable {ι : Type}

/-- `__init__`, on what `ip_network` and `ip_address` return for its arguments. -/
def init : IPNetwork → IPAddress → Except Exn (PeerRegistry ι)
  | .v6, _ => .error (.valueError "the current TUN router supports an IPv4 VPN network")
  | .v4 _, .v6 => .error (.valueError "server IP must be inside the VPN network")
  | .v4 network, .v4 serverIp =>
    if h : serverIp ∈ network then .ok ⟨network, serverIp, h, fun _ => none, fun _ => none, ∅⟩
    else .error (.valueError "server IP must be inside the VPN network")

/-- An address the loop of `reserve_ip` stops at. -/
def Free (r : PeerRegistry ι) (candidate : IPv4Address) : Prop :=
  candidate ≠ r.serverIp ∧ r.peers candidate = none ∧ candidate ∉ r.reserved

instance (r : PeerRegistry ι) : DecidablePred r.Free :=
  fun _ => inferInstanceAs (Decidable (_ ∧ _))

/-- `reserve_ip`. -/
def reserveIp (r : PeerRegistry ι) : Except Exn String × PeerRegistry ι :=
  match r.network.hosts.find? r.Free with
  | some candidate => (.ok candidate.text, { r with reserved := insert candidate r.reserved })
  | none => (.error (.runtimeError "VPN address pool is exhausted"), r)

/-- `release_ip`. A text that is not that of an IPv4 address is that of an IPv6
    address, which is not reserved, or `ip_address` raises: nothing changes. -/
def releaseIp (r : PeerRegistry ι) (vpnIp : String) : PeerRegistry ι :=
  match IPv4Address.ofText vpnIp with
  | some a => { r with reserved := r.reserved.erase a }
  | none => r

/-- The locked part of `register`, with the peer to close after it. -/
def register [DecidableEq ι] (r : PeerRegistry ι) (peer : PeerConnection ι) :
    Except Exn (Option (PeerConnection ι)) × PeerRegistry ι :=
  if peer.vpnIp ∉ r.reserved then (.error (.valueError "peer IP was not reserved"), r)
  else
    let r' := { r with
      reserved := r.reserved.erase peer.vpnIp
      peers := Function.update r.peers peer.vpnIp (some peer) }
    match peer.tag with
    | none => (.ok none, r')
    | some t =>
      (.ok ((r.tags t).filter (· ≠ peer)), { r' with tags := Function.update r.tags t (some peer) })

/-- `if d.get(k) is v: del d[k]`. -/
def delete {κ α : Type} [DecidableEq κ] [DecidableEq α] (d : κ → Option α) (k : κ) (v : α) :
    κ → Option α :=
  if d k = some v then Function.update d k none else d

/-- `remove`. -/
def remove [DecidableEq ι] (r : PeerRegistry ι) (peer : PeerConnection ι) : PeerRegistry ι :=
  { r with
    peers := delete r.peers peer.vpnIp peer
    tags := match peer.tag with
      | none => r.tags
      | some t => delete r.tags t peer }

/-- `get`, of an address. -/
def get (r : PeerRegistry ι) (vpnIp : IPv4Address) : Option (PeerConnection ι) := r.peers vpnIp

/-- `get_by_tag`. -/
def getByTag (r : PeerRegistry ι) (deviceTag : String) : Option (PeerConnection ι) :=
  r.tags deviceTag

/-- The calls that change a registry. -/
inductive Call (ι : Type)
  | reserveIp
  | releaseIp (vpnIp : String)
  | register (peer : PeerConnection ι)
  | remove (peer : PeerConnection ι)

/-- The registry after a call. -/
def next [DecidableEq ι] (r : PeerRegistry ι) : Call ι → PeerRegistry ι
  | .reserveIp => r.reserveIp.2
  | .releaseIp vpnIp => r.releaseIp vpnIp
  | .register peer => (r.register peer).2
  | .remove peer => r.remove peer

/-- The registries that the constructor returns, and what calls make of them. -/
def system (ι : Type) [DecidableEq ι] (network : IPNetwork) (serverIp : IPAddress) :
    System (PeerRegistry ι) (Call ι) :=
  .ofFun (fun r => init network serverIp = .ok r) next

/-! ## What the operations do -/

variable {r : PeerRegistry ι} {p q : PeerConnection ι} {a : IPv4Address} {t : String}

theorem tag_eq_some : p.tag = some t ↔ p.deviceTag = some t ∧ t ≠ "" := by
  simp [PeerConnection.tag, Option.filter_eq_some_iff]

/-- `reserve_ip` takes the first free host. -/
theorem reserveIp_ok {s : String} {r' : PeerRegistry ι} (h : r.reserveIp = (.ok s, r')) :
    ∃ a before after, s = a.text ∧ r.network.hosts = before ++ a :: after ∧ r.Free a ∧
      (∀ b ∈ before, ¬r.Free b) ∧ r' = { r with reserved := insert a r.reserved } := by
  rw [reserveIp] at h
  cases hfind : r.network.hosts.find? r.Free with
  | none => simp [hfind] at h
  | some a =>
    rw [hfind, Prod.mk.injEq, Except.ok.injEq] at h
    obtain ⟨hfree, before, after, hhosts, hbefore⟩ := List.find?_eq_some_iff_append.1 hfind
    refine ⟨a, before, after, h.1.symm, hhosts, of_decide_eq_true hfree, ?_, h.2.symm⟩
    intro b hb
    simpa using hbefore b hb

/-- That is the lowest one, since the hosts come in order. -/
theorem reserveIp_lowest {s : String} {r' : PeerRegistry ι} (h : r.reserveIp = (.ok s, r')) :
    ∃ a, s = a.text ∧ a ∈ r.network ∧ r.Free a ∧
      ∀ b ∈ r.network.hosts, r.Free b → a.ip ≤ b.ip := by
  obtain ⟨a, before, after, htext, hhosts, hfree, hbefore, -⟩ := reserveIp_ok h
  have ha : a ∈ r.network.hosts := by simp [hhosts]
  refine ⟨a, htext, IPv4Network.mem_of_mem_hosts ha, hfree, fun b hb hb' => ?_⟩
  have hsorted := IPv4Network.pairwise_hosts r.network
  rw [hhosts, List.pairwise_append, List.pairwise_cons] at hsorted
  rw [hhosts, List.mem_append, List.mem_cons] at hb
  rcases hb with hb | rfl | hb
  · exact absurd hb' (hbefore b hb)
  · exact le_rfl
  · exact (hsorted.2.1.1 b hb).le

/-- `reserve_ip` raises when there is no free host. -/
theorem reserveIp_error {e : Exn} {r' : PeerRegistry ι} (h : r.reserveIp = (.error e, r')) :
    e = .runtimeError "VPN address pool is exhausted" ∧ (∀ a ∈ r.network.hosts, ¬r.Free a) ∧
      r' = r := by
  rw [reserveIp] at h
  cases hfind : r.network.hosts.find? r.Free with
  | some a => simp [hfind] at h
  | none =>
    rw [hfind, Prod.mk.injEq, Except.error.injEq] at h
    refine ⟨h.1.symm, fun a ha => ?_, h.2.symm⟩
    simpa using List.find?_eq_none.1 hfind a ha

/-- `release_ip` frees at most the address, and touches nothing else. -/
theorem releaseIp_spec (s : String) : (r.releaseIp s).network = r.network ∧
    (r.releaseIp s).serverIp = r.serverIp ∧ (r.releaseIp s).peers = r.peers ∧
    (r.releaseIp s).tags = r.tags ∧ (r.releaseIp s).reserved ⊆ r.reserved := by
  rw [releaseIp]
  cases IPv4Address.ofText s with
  | none => exact ⟨rfl, rfl, rfl, rfl, Finset.Subset.refl _⟩
  | some a => exact ⟨rfl, rfl, rfl, rfl, Finset.erase_subset _ _⟩

variable [DecidableEq ι]

theorem register_of_notMem (h : p.vpnIp ∉ r.reserved) :
    r.register p = (.error (.valueError "peer IP was not reserved"), r) := if_pos h

/-- `register` moves the address of the peer from the reserved ones to the
    peers, and the tag of the peer to it. -/
theorem register_of_mem (h : p.vpnIp ∈ r.reserved) :
    (r.register p).2.network = r.network ∧ (r.register p).2.serverIp = r.serverIp ∧
      (r.register p).2.reserved = r.reserved.erase p.vpnIp ∧
      (r.register p).2.peers = Function.update r.peers p.vpnIp (some p) ∧
      ∀ t, (r.register p).2.tags t = if p.tag = some t then some p else r.tags t := by
  rw [register, if_neg (not_not.2 h)]
  cases ht : p.tag with
  | none => exact ⟨rfl, rfl, rfl, rfl, fun t => by simp⟩
  | some u =>
    refine ⟨rfl, rfl, rfl, rfl, fun t => ?_⟩
    by_cases htu : u = t
    · simp [htu]
    · simp [htu, Function.update_of_ne (Ne.symm htu)]

theorem delete_apply {κ α : Type} [DecidableEq κ] [DecidableEq α] (d : κ → Option α) (k x : κ)
    (v : α) : delete d k v x = if k = x ∧ d x = some v then none else d x := by
  rw [delete]
  by_cases hx : k = x
  · subst hx
    by_cases hd : d k = some v <;> simp [hd]
  · by_cases hd : d k = some v <;> simp [hd, hx, Function.update_of_ne (Ne.symm hx)]

/-- `remove` takes the peer, and no other, out of both tables. -/
theorem remove_spec (r : PeerRegistry ι) (p : PeerConnection ι) :
    (r.remove p).network = r.network ∧ (r.remove p).serverIp = r.serverIp ∧
      (r.remove p).reserved = r.reserved ∧
      (∀ a, (r.remove p).peers a = if p.vpnIp = a ∧ r.peers a = some p then none else r.peers a) ∧
      ∀ t, (r.remove p).tags t = if p.tag = some t ∧ r.tags t = some p then none else r.tags t := by
  refine ⟨rfl, rfl, rfl, fun a => delete_apply _ _ _ _, fun t => ?_⟩
  rw [remove]
  cases ht : p.tag with
  | none => simp
  | some u =>
    simp only [delete_apply, Option.some.injEq]

/-! ## The invariant -/

/-- The tables of a registry agree with each other and with the network. -/
structure Inv (r : PeerRegistry ι) : Prop where
  disjoint : ∀ a ∈ r.reserved, r.peers a = none
  reserved : ∀ a ∈ r.reserved, a ∈ r.network.hosts ∧ a ≠ r.serverIp
  peers : ∀ a p, r.peers a = some p → a ∈ r.network.hosts ∧ a ≠ r.serverIp
  vpnIp : ∀ a p, r.peers a = some p → p.vpnIp = a
  tags : ∀ t p, r.tags t = some p → p.tag = some t ∧ r.peers p.vpnIp = some p

omit [DecidableEq ι] in
/-- What the constructor accepts: an IPv4 network, and an address of it. -/
theorem init_eq_ok {network : IPNetwork} {serverIp : IPAddress}
    (h : init network serverIp = .ok r) :
    network = .v4 r.network ∧ serverIp = .v4 r.serverIp ∧ r.peers = (fun _ => none) ∧
      r.tags = (fun _ => none) ∧ r.reserved = ∅ := by
  cases network with
  | v6 => cases h
  | v4 network =>
    cases serverIp with
    | v6 => cases h
    | v4 serverIp =>
      simp only [init] at h
      split_ifs at h with hmem
      obtain rfl := Except.ok.inj h
      exact ⟨rfl, rfl, rfl, rfl, rfl⟩

omit [DecidableEq ι] in
theorem inv_init {network : IPNetwork} {serverIp : IPAddress} (h : init network serverIp = .ok r) :
    Inv r := by
  obtain ⟨-, -, hpeers, htags, hreserved⟩ := init_eq_ok h
  constructor <;> simp [hpeers, htags, hreserved]

omit [DecidableEq ι] in
theorem inv_reserveIp (hr : Inv r) : Inv r.reserveIp.2 := by
  rcases h : r.reserveIp with ⟨e | s, r'⟩
  · rw [(reserveIp_error h).2.2]
    exact hr
  · obtain ⟨a, before, after, -, hhosts, ⟨hserver, hfree, -⟩, -, rfl⟩ := reserveIp_ok h
    have ha : a ∈ r.network.hosts ∧ a ≠ r.serverIp := ⟨by simp [hhosts], hserver⟩
    refine ⟨fun b hb => ?_, fun b hb => ?_, hr.peers, hr.vpnIp, hr.tags⟩
    · rcases Finset.mem_insert.1 hb with rfl | hb
      · exact hfree
      · exact hr.disjoint b hb
    · rcases Finset.mem_insert.1 hb with rfl | hb
      · exact ha
      · exact hr.reserved b hb

omit [DecidableEq ι] in
theorem inv_releaseIp (hr : Inv r) (s : String) : Inv (r.releaseIp s) := by
  obtain ⟨hnet, hserver, hpeers, htags, hres⟩ := r.releaseIp_spec s
  constructor
  · rw [hpeers]
    exact fun a ha => hr.disjoint a (hres ha)
  · rw [hnet, hserver]
    exact fun a ha => hr.reserved a (hres ha)
  · rw [hnet, hserver, hpeers]
    exact hr.peers
  · rw [hpeers]
    exact hr.vpnIp
  · rw [hpeers, htags]
    exact hr.tags

/-- Registering a peer takes its address from nobody, as it was reserved. -/
theorem inv_register (hr : Inv r) (p : PeerConnection ι) : Inv (r.register p).2 := by
  by_cases hp : p.vpnIp ∈ r.reserved
  swap
  · rw [register_of_notMem hp]
    exact hr
  obtain ⟨hnet, hserver, hres, hpeers, htags⟩ := register_of_mem hp
  have hsome {a : IPv4Address} {q : PeerConnection ι} (h : (r.register p).2.peers a = some q) :
      a = p.vpnIp ∧ q = p ∨ r.peers a = some q := by
    rw [hpeers] at h
    by_cases ha : a = p.vpnIp
    · subst ha
      rw [Function.update_self] at h
      exact .inl ⟨rfl, (Option.some.inj h).symm⟩
    · rw [Function.update_of_ne ha] at h
      exact .inr h
  constructor
  · intro a ha
    rw [hres, Finset.mem_erase] at ha
    rw [hpeers, Function.update_of_ne ha.1]
    exact hr.disjoint a ha.2
  · intro a ha
    rw [hres, Finset.mem_erase] at ha
    rw [hnet, hserver]
    exact hr.reserved a ha.2
  · intro a q hq
    rw [hnet, hserver]
    rcases hsome hq with ⟨rfl, -⟩ | hq
    · exact hr.reserved _ hp
    · exact hr.peers a q hq
  · intro a q hq
    rcases hsome hq with ⟨rfl, rfl⟩ | hq
    · rfl
    · exact hr.vpnIp a q hq
  · intro t q hq
    rw [htags] at hq
    split_ifs at hq with ht
    · obtain rfl := Option.some.inj hq
      exact ⟨ht, by rw [hpeers, Function.update_self]⟩
    · obtain ⟨htag, hq⟩ := hr.tags t q hq
      refine ⟨htag, ?_⟩
      -- The peer of another tag has another address, as its address is not reserved.
      have hne : q.vpnIp ≠ p.vpnIp := by
        intro h
        rw [h, hr.disjoint _ hp] at hq
        cases hq
      rw [hpeers, Function.update_of_ne hne]
      exact hq

theorem inv_remove (hr : Inv r) (p : PeerConnection ι) : Inv (r.remove p) := by
  obtain ⟨hnet, hserver, hres, hpeers, htags⟩ := r.remove_spec p
  have hsome {a : IPv4Address} {q : PeerConnection ι} (h : (r.remove p).peers a = some q) :
      r.peers a = some q := by
    rw [hpeers] at h
    split_ifs at h
    exact h
  constructor
  · intro a ha
    rw [hres] at ha
    rw [hpeers, hr.disjoint a ha, ite_self]
  · rw [hnet, hserver, hres]
    exact hr.reserved
  · rw [hnet, hserver]
    exact fun a q hq => hr.peers a q (hsome hq)
  · exact fun a q hq => hr.vpnIp a q (hsome hq)
  · intro t q hq
    rw [htags] at hq
    split_ifs at hq with h
    obtain ⟨htag, hq'⟩ := hr.tags t q hq
    refine ⟨htag, ?_⟩
    rw [hpeers, if_neg, hq']
    -- A peer that is taken out is taken out of both tables.
    rintro ⟨-, hp⟩
    obtain rfl := Option.some.inj (hq'.symm.trans hp)
    exact h ⟨htag, hq⟩

theorem inv_next (hr : Inv r) (c : Call ι) : Inv (r.next c) := by
  cases c with
  | reserveIp => exact inv_reserveIp hr
  | releaseIp s => exact inv_releaseIp hr s
  | register p => exact inv_register hr p
  | remove p => exact inv_remove hr p

/-- The invariant holds of every registry, after any calls. -/
theorem inv_of_reachable {network : IPNetwork} {serverIp : IPAddress}
    (h : (system ι network serverIp).Reachable r) : Inv r :=
  h.invariant (fun _ => inv_init) fun _ c _ hr hstep => hstep ▸ inv_next hr c

/-- A call does not touch the network. -/
theorem network_next (r : PeerRegistry ι) (c : Call ι) :
    (r.next c).network = r.network ∧ (r.next c).serverIp = r.serverIp := by
  cases c with
  | reserveIp =>
    rw [next, reserveIp]
    split <;> exact ⟨rfl, rfl⟩
  | releaseIp s =>
    obtain ⟨hnet, hserver, -⟩ := r.releaseIp_spec s
    exact ⟨hnet, hserver⟩
  | register p =>
    by_cases hp : p.vpnIp ∈ r.reserved
    · obtain ⟨hnet, hserver, -⟩ := register_of_mem hp
      exact ⟨hnet, hserver⟩
    · rw [next, register_of_notMem hp]
      exact ⟨rfl, rfl⟩
  | remove p => exact ⟨rfl, rfl⟩

/-- The network is that of the constructor. -/
theorem network_of_reachable {network : IPNetwork} {serverIp : IPAddress}
    (h : (system ι network serverIp).Reachable r) :
    network = .v4 r.network ∧ serverIp = .v4 r.serverIp := by
  refine h.invariant (I := fun r => network = .v4 r.network ∧ serverIp = .v4 r.serverIp) ?_ ?_
  · intro r hr
    obtain ⟨hnet, hserver, -⟩ := init_eq_ok hr
    exact ⟨hnet, hserver⟩
  · intro r c _ hr hstep
    obtain rfl := hstep
    rw [(network_next r c).1, (network_next r c).2]
    exact hr

/-- `register` does not touch the address of another peer. -/
theorem register_peers (hr : Inv r) {a : IPv4Address} (hq : r.peers a = some q)
    (p : PeerConnection ι) : (r.register p).2.peers a = some q := by
  by_cases hp : p.vpnIp ∈ r.reserved
  · obtain ⟨-, -, -, hpeers, -⟩ := register_of_mem hp
    have hne : a ≠ p.vpnIp := by
      rintro rfl
      rw [hr.disjoint _ hp] at hq
      cases hq
    rw [hpeers, Function.update_of_ne hne, hq]
  · rw [register_of_notMem hp, hq]

/-- In every state of a registry: its tables agree with each other and with its
    network, `register` takes no address from another peer, and changes nothing
    when it raises, and `reserve_ip` returns the first free host, and raises when
    there is none. -/
theorem registry_invariant {network : IPNetwork} {serverIp : IPAddress}
    (h : (system ι network serverIp).Reachable r) :
    (network = .v4 r.network ∧ serverIp = .v4 r.serverIp) ∧
      (∀ a ∈ r.reserved, r.peers a = none) ∧
      (∀ a, a ∈ r.reserved ∨ r.peers a ≠ none → a ∈ r.network.hosts ∧ a ≠ r.serverIp) ∧
      (∀ a p, r.peers a = some p → p.vpnIp = a) ∧
      (∀ t p, r.tags t = some p → p.deviceTag = some t ∧ r.peers p.vpnIp = some p) ∧
      (∀ p a q, r.peers a = some q → (r.register p).2.peers a = some q) ∧
      (∀ p e, (r.register p).1 = .error e → (r.register p).2 = r) ∧
      (∀ s, r.reserveIp.1 = .ok s → ∃ a before after, s = a.text ∧
        r.network.hosts = before ++ a :: after ∧ r.Free a ∧ (∀ b ∈ before, ¬r.Free b) ∧
        r.reserveIp.2 = { r with reserved := insert a r.reserved }) ∧
      ((∃ e, r.reserveIp.1 = .error e) ↔ ∀ a ∈ r.network.hosts, ¬r.Free a) := by
  have hr := inv_of_reachable h
  refine ⟨network_of_reachable h, hr.disjoint, ?_, hr.vpnIp, ?_, ?_, ?_, ?_, ?_⟩
  · rintro a (ha | ha)
    · exact hr.reserved a ha
    · obtain ⟨p, hp⟩ := Option.ne_none_iff_exists'.1 ha
      exact hr.peers a p hp
  · intro t p hp
    obtain ⟨htag, hreg⟩ := hr.tags t p hp
    exact ⟨(tag_eq_some.1 htag).1, hreg⟩
  · exact fun p a q hq => register_peers hr hq p
  · intro p e he
    by_cases hp : p.vpnIp ∈ r.reserved
    · rw [register, if_neg (not_not.2 hp)] at he
      cases ht : p.tag <;> simp [ht] at he
    · rw [register_of_notMem hp]
  · intro s hs
    obtain ⟨a, before, after, htext, hhosts, hfree, hbefore, hr'⟩ := reserveIp_ok (Prod.ext hs rfl)
    exact ⟨a, before, after, htext, hhosts, hfree, hbefore, hr'⟩
  · constructor
    · rintro ⟨e, he⟩
      exact (reserveIp_error (Prod.ext he rfl)).2.1
    · intro hnone
      rcases hres : r.reserveIp with ⟨e | s, r'⟩
      · exact ⟨e, rfl⟩
      · obtain ⟨a, before, after, -, hhosts, hfree, -⟩ := reserveIp_ok hres
        exact absurd hfree (hnone a (by simp [hhosts]))

/-- `10.8.0.0/29`, with the server at its first host. -/
def smallRegistry : PeerRegistry ℕ :=
  ⟨.ofAddress ⟨0x0a080000, by norm_num⟩ 29 (by norm_num), ⟨0x0a080001, by norm_num⟩, by decide,
    fun _ => none, fun _ => none, ∅⟩

theorem init_smallRegistry :
    init (.v4 smallRegistry.network) (.v4 smallRegistry.serverIp) = .ok smallRegistry := by
  rw [init, dif_pos smallRegistry.serverIp_mem]
  rfl

/-- Two devices reserve addresses, the first registers and leaves, and another
    reserves. -/
def joinLeaveJoin : List (Call ℕ) :=
  let p : PeerConnection ℕ := ⟨0, ⟨0x0a080002, by norm_num⟩, some "alice"⟩
  [.reserveIp, .reserveIp, .register p, .remove p, .reserveIp]

/-- The address of the device that has left is given out again, and is that of
    no peer. -/
theorem registry_invariant_small :
    let r := joinLeaveJoin.foldl next smallRegistry
    ⟨0x0a080002, by norm_num⟩ ∈ r.reserved ∧ r.peers ⟨0x0a080002, by norm_num⟩ = none := by
  intro r
  have hmem : ⟨0x0a080002, by norm_num⟩ ∈ r.reserved := by decide
  have hreach : (system ℕ (.v4 smallRegistry.network) (.v4 smallRegistry.serverIp)).Reachable r :=
    ⟨smallRegistry, joinLeaveJoin, init_smallRegistry, .foldl _ _⟩
  obtain ⟨-, hdisjoint, -⟩ := registry_invariant hreach
  exact ⟨hmem, hdisjoint _ hmem⟩

end PeerRegistry

end SecNet
