import SecNet.Server.Ownership

/-!
# The sessions of a device

When a device connects again, `register` puts its new peer at the tag of the
device, and closes the one that was there after it has given up the lock. The
old peer stays among the peers of the registry until its own thread removes it.

* `Superseded`: a peer has been closed, or is about to be, at the end of a
  `register`;
* `superseded_or_current`: every peer of a tag is the one that `get_by_tag`
  returns, or is superseded, in every run;
* `one_open_session`: hence a device has one open session at most.

A thread that has removed its peer publishes that the device has left when it
finds no peer at the tag. The check and the publication are two steps.

* `leave_events_match`: when no session of the device is registered in between,
  and no replaced one is there at the check, leave events match the registry;
* `leave_after_join`: they do not otherwise.
-/

namespace SecNet

variable {ι : Type} [DecidableEq ι]

namespace PeerRegistry

variable {r r' : PeerRegistry ι} {p : PeerConnection ι}

/-- What `register` does when it returns, and the peer it leaves to be closed. -/
theorem register_eq_ok {previous : Option (PeerConnection ι)}
    (h : r.register p = (.ok previous, r')) :
    (∀ a, r'.peers a = if a = p.vpnIp then some p else r.peers a) ∧
      (∀ t, r'.tags t = if p.tag = some t then some p else r.tags t) ∧
      ∀ t q, p.tag = some t → r.tags t = some q → q ≠ p → previous = some q := by
  have hmem : p.vpnIp ∈ r.reserved := by
    by_contra hp
    rw [register_of_notMem hp] at h
    cases h
  obtain ⟨-, -, -, hpeers, htags⟩ := register_of_mem hmem
  rw [h] at hpeers htags
  refine ⟨fun a => ?_, htags, fun t q ht hq hne => ?_⟩
  · rw [hpeers, Function.update_apply]
  · rw [register, if_neg (not_not.2 hmem)] at h
    simp only [ht, hq] at h
    rw [← Except.ok.inj (Prod.mk.inj h).1, Option.filter_some, if_pos (decide_eq_true hne)]

/-- When it raises, it has changed nothing. -/
theorem register_eq_error {e : Exn} (h : r.register p = (.error e, r')) : r' = r := by
  by_cases hp : p.vpnIp ∈ r.reserved
  · rw [register, if_neg (not_not.2 hp)] at h
    cases ht : p.tag <;> simp [ht] at h
  · rw [register_of_notMem hp] at h
    exact (Prod.mk.inj h).2.symm

end PeerRegistry

namespace Server

/-- A peer has been closed, or is the one that a `register` has replaced and is
    about to close. -/
def Superseded (s : Server ι) (p : PeerConnection ι) : Prop :=
  s.closed p.id = true ∨ ∃ i reservedIp peer, s.pc i = .replacing reservedIp peer (some p)

/-- Every peer of a tag is the one that `get_by_tag` returns, or is superseded. -/
def Replaced (s : Server ι) : Prop :=
  ∀ t a p, s.registry.peers a = some p → p.tag = some t →
    s.registry.getByTag t = some p ∨ s.Superseded p

variable {s s' : Server ι} {i : ι}

/-- What has been closed stays so. -/
theorem closed_output (out : Output ι) {j : ι} (h : s.closed j = true) :
    (s.output i out).closed j = true := by
  rcases out with _ | peer | _ | _ | _ | ⟨packet, q | _⟩
  · exact h
  · by_cases hj : j = peer.id
    · simp [output, hj]
    · simp [output, hj, h]
  · exact h
  · exact h
  · exact h
  · exact h
  · exact h

omit [DecidableEq ι] in
theorem closed_routerOutput [DecidableEq ι] (out : Output ι) :
    (s.routerOutput out).closed = s.closed := by
  rcases out with _ | _ | _ | _ | _ | ⟨packet, q | _⟩ <;> rfl

/-- A peer that is superseded stays so. -/
theorem superseded_next {a : ServerAct ι} (hstep : next s a = some s') {p : PeerConnection ι}
    (h : s.Superseded p) : s'.Superseded p := by
  cases a with
  | route o =>
    obtain ⟨router, out, -, rfl⟩ := next_route hstep
    rw [Superseded]
    simp only [closed_routerOutput, (routerOutput_keeps s out).2.1]
    exact h
  | serve i o =>
    obtain ⟨pc, r, out, hserve, rfl⟩ := next_serve hstep
    rcases h with hclosed | ⟨j, reservedIp, peer, hj⟩
    · exact .inl (closed_output out hclosed)
    · by_cases hij : j = i
      · -- The thread closes the peer that it has replaced.
        subst hij
        rw [hj] at hserve
        cases o with
        | done =>
          simp only [serve, Option.some.injEq, Prod.mk.injEq] at hserve
          obtain ⟨-, -, rfl⟩ := hserve
          exact .inl (Function.update_self ..)
        | raises | session | packet => cases hserve
      · exact .inr ⟨j, reservedIp, peer, by simp only [Function.update_of_ne hij, hj]⟩

/-- What a step does to the peers and their tags: nothing, or a thread registers
    its peer, or removes it. -/
theorem tables_of_next {a : ServerAct ι} (hstep : next s a = some s') :
    (s'.registry.peers = s.registry.peers ∧ s'.registry.tags = s.registry.tags) ∨
    (∃ i reservedIp p previous o, a = .serve i o ∧ s.pc i = .connected reservedIp p ∧
      s'.pc i = .replacing reservedIp p previous ∧
      s.registry.register p = (.ok previous, s'.registry)) ∨
    ∃ i p, (s.pc i).registeredPeer = some p ∧ s'.registry = s.registry.remove p := by
  cases a with
  | route o =>
    obtain ⟨router, out, -, rfl⟩ := next_route hstep
    have hregistry := (routerOutput_keeps s out).1
    exact .inl ⟨congrArg PeerRegistry.peers hregistry, congrArg PeerRegistry.tags hregistry⟩
  | serve i o =>
    obtain ⟨pc, r, out, hserve, rfl⟩ := next_serve hstep
    have hreg := registryStep_of_serve hserve
    generalize hpc : s.pc i = pc₀ at hreg
    simp only
    cases hreg with
    | reserve hres =>
      obtain ⟨a, -, -, -, -, -, -, rfl⟩ := PeerRegistry.reserveIp_ok hres
      exact .inl ⟨rfl, rfl⟩
    | register hres => exact .inr (.inl ⟨i, _, _, _, o, rfl, hpc, Function.update_self .., hres⟩)
    | refuse hres =>
      rw [PeerRegistry.register_eq_error hres]
      exact .inl ⟨rfl, rfl⟩
    | remove hgives hreg' => exact .inr (.inr ⟨i, _, hpc ▸ hreg', rfl⟩)
    | release =>
      exact .inl ⟨(s.registry.releaseIp_spec _).2.2.1, (s.registry.releaseIp_spec _).2.2.2.1⟩
    | keep => exact .inl ⟨rfl, rfl⟩

theorem replaced_next {a : ServerAct ι} (hinv : s.registry.Inv) (h : s.Replaced)
    (hstep : next s a = some s') : s'.Replaced := by
  intro t b p hp ht
  -- A peer that was there before the step, at its tag or superseded.
  have hkeep (hbefore : s.registry.peers b = some p) (htag : s.registry.tags t = some p →
      s'.registry.tags t = some p ∨ s'.Superseded p) :
      s'.registry.tags t = some p ∨ s'.Superseded p := by
    rcases h t b p hbefore ht with hcurrent | hsuperseded
    · exact htag hcurrent
    · exact .inr (superseded_next hstep hsuperseded)
  rcases tables_of_next hstep with ⟨hpeers, htags⟩ | ⟨i, ip, q, previous, o, -, -, hpc, hreg⟩ |
    ⟨i, q, -, hremove⟩
  · exact hkeep (hpeers ▸ hp) fun hcurrent => .inl (htags ▸ hcurrent)
  · obtain ⟨hpeers, htags, hprevious⟩ := PeerRegistry.register_eq_ok hreg
    by_cases hpq : p = q
    · -- The peer that is registered.
      refine .inl ?_
      rw [PeerRegistry.getByTag, htags, ← hpq, if_pos ht]
    · rw [hpeers] at hp
      split_ifs at hp
      · exact absurd (Option.some.inj hp).symm hpq
      · refine hkeep hp fun hcurrent => ?_
        by_cases hq : q.tag = some t
        · -- The peer that it replaces is about to be closed.
          rw [hprevious t p hq hcurrent hpq] at hpc
          exact .inr (.inr ⟨i, ip, q, hpc⟩)
        · rw [htags, if_neg hq]
          exact .inl hcurrent
  · obtain ⟨-, -, -, hpeers, htags⟩ := s.registry.remove_spec q
    rw [hremove, hpeers] at hp
    split_ifs at hp with hq
    refine hkeep hp fun hcurrent => .inl ?_
    rw [hremove, htags, if_neg, hcurrent]
    -- Another peer than the one removed.
    rintro ⟨-, hq'⟩
    obtain rfl := Option.some.inj (hcurrent.symm.trans hq')
    exact hq ⟨hinv.vpnIp b p hp, hp⟩

/-- In every run, every peer of a tag is the one that `get_by_tag` returns, or
    is superseded. -/
theorem superseded_or_current {network : IPNetwork} {serverIp : IPAddress}
    (h : (system ι network serverIp).Reachable s) : s.Replaced := by
  suffices hinv : s.Inv ∧ s.Replaced from hinv.2
  refine h.invariant (I := fun s => s.Inv ∧ s.Replaced) (fun s hs => ⟨inv_init hs, ?_⟩)
    fun s a s' hs hstep =>
    ⟨inv_next hs.1 hstep, replaced_next hs.1.owned.inv hs.2 hstep⟩
  obtain ⟨r, hr, rfl⟩ := hs
  obtain ⟨-, -, hpeers, -, -⟩ := PeerRegistry.init_eq_ok hr
  intro t a p hp
  simp [new, hpeers] at hp

/-- One open session for each device: a registered peer of a tag other than the
    one that `get_by_tag` returns has been closed, or is the one that a `register`
    that has not returned yet has replaced. So when no `register` is being run, two
    registered peers of one tag are not both open. -/
theorem one_open_session {network : IPNetwork} {serverIp : IPAddress}
    (h : (system ι network serverIp).Reachable s) :
    (∀ t, t ≠ "" → ∀ a p, s.registry.peers a = some p → p.deviceTag = some t →
      s.registry.getByTag t ≠ some p →
        s.closed p.id = true ∨ ∃ i reservedIp peer, s.pc i = .replacing reservedIp peer (some p)) ∧
    ((∀ i reservedIp peer previous, s.pc i ≠ .replacing reservedIp peer previous) →
      ∀ t, t ≠ "" → ∀ a b p q, s.registry.peers a = some p → s.registry.peers b = some q →
        p.deviceTag = some t → q.deviceTag = some t →
        s.closed p.id = false → s.closed q.id = false → p = q) := by
  have hreplaced := superseded_or_current h
  constructor
  · intro t ht a p hp htag hne
    exact (hreplaced t a p hp (PeerRegistry.tag_eq_some.2 ⟨htag, ht⟩)).resolve_left hne
  · intro hnone t ht a b p q hp hq hptag hqtag hpopen hqopen
    have hcurrent {c : IPv4Address} {x : PeerConnection ι} (hx : s.registry.peers c = some x)
        (hxtag : x.deviceTag = some t) (hopen : s.closed x.id = false) :
        s.registry.getByTag t = some x := by
      rcases hreplaced t c x hx (PeerRegistry.tag_eq_some.2 ⟨hxtag, ht⟩) with
        hcurrent | hclosed | ⟨i, ip, peer, hi⟩
      · exact hcurrent
      · rw [hopen] at hclosed
        cases hclosed
      · exact absurd hi (hnone i ip peer _)
    have hpcurrent := hcurrent hp hptag hpopen
    rw [hcurrent hq hqtag hqopen] at hpcurrent
    exact (Option.some.inj hpcurrent).symm

/-- A device connects again, and the `register` of its second session has still
    to close the first one. -/
def connectsAgain : List (ServerAct ℕ) :=
  joins 0 "alice" ++ [.serve 1 .done, .serve 1 (.session (some "alice")), .serve 1 .done]

/-- What it leads to. -/
def afterConnectsAgain : Server ℕ :=
  (connectsAgain.foldlM next (new PeerRegistry.smallRegistry)).get (by decide)

theorem one_open_session_again :
    let p : PeerConnection ℕ := ⟨0, ⟨0x0a080002, by norm_num⟩, some "alice"⟩
    afterConnectsAgain.registry.peers p.vpnIp = some p ∧ (afterConnectsAgain.closed 0 = true ∨
      ∃ i reservedIp peer, afterConnectsAgain.pc i = .replacing reservedIp peer (some p)) := by
  intro p
  have hp : afterConnectsAgain.registry.peers p.vpnIp = some p := by decide
  have hreach : (system ℕ (.v4 PeerRegistry.smallRegistry.network)
      (.v4 PeerRegistry.smallRegistry.serverIp)).Reachable afterConnectsAgain :=
    ⟨_, connectsAgain, ⟨_, PeerRegistry.init_smallRegistry, rfl⟩,
      .of_foldlM (Option.some_get _).symm⟩
  exact ⟨hp, (one_open_session hreach).1 "alice" (by decide) _ p hp rfl (by decide)⟩

/-! ## Leave events -/

/-- A thread has found no session at the tag `t`, and is about to publish that the
    device has left. -/
def Announcing (s : Server ι) (t : String) : Prop := ∃ i p, s.pc i = .announcing p ∧ p.tag = some t

/-- A session of the tag `t` is registered. -/
def Present (s : Server ι) (t : String) : Prop :=
  ∃ a p, s.registry.peers a = some p ∧ p.tag = some t

/-- What makes leave events right: no session of a device is registered while a
    thread is about to publish that the device has left, and when a thread finds
    no session at a tag, there is no session that was replaced at it either. -/
def LeavesInOrder (s : Server ι) : ServerAct ι → Prop
  | .serve i _ =>
    match s.pc i with
    | .connected _ p => ∀ t, p.tag = some t → ¬ s.Announcing t
    | .leaving (some p) => ∀ t, p.tag = some t → s.registry.getByTag t = none → ¬ s.Present t
    | _ => True
  | .route _ => True

/-- While a thread is about to publish that a device has left, no session of it
    is registered. -/
def Left (s : Server ι) : Prop := ∀ t, s.Announcing t → ¬ s.Present t

/-- A session that is present after a step was there before, or is registered by it. -/
theorem present_of_next {a : ServerAct ι} (hstep : next s a = some s') {t : String}
    (h : s'.Present t) : s.Present t ∨
      ∃ i o reservedIp p, a = .serve i o ∧ s.pc i = .connected reservedIp p ∧ p.tag = some t := by
  obtain ⟨b, p, hp, ht⟩ := h
  rcases tables_of_next hstep with ⟨hpeers, -⟩ | ⟨i, ip, q, previous, o, ha, hpc, -, hreg⟩ |
    ⟨i, q, -, hremove⟩
  · exact .inl ⟨b, p, hpeers ▸ hp, ht⟩
  · rw [(PeerRegistry.register_eq_ok hreg).1] at hp
    split_ifs at hp
    · obtain rfl := Option.some.inj hp
      exact .inr ⟨i, o, ip, q, ha, hpc, ht⟩
    · exact .inl ⟨b, p, hp, ht⟩
  · rw [hremove, (s.registry.remove_spec q).2.2.2.1] at hp
    split_ifs at hp
    exact .inl ⟨b, p, hp, ht⟩

/-- A thread that is about to publish has found no session at the tag. -/
theorem leaving_of_serve {r r' : PeerRegistry ι} {pc : ServePc ι} {o : Outcome} {out : Output ι}
    {p : PeerConnection ι} (h : serve r i pc o = some (.announcing p, r', out)) :
    pc = .leaving (some p) ∧ ∃ t, p.tag = some t ∧ r.getByTag t = none := by
  revert h
  fun_cases serve r i pc o
  all_goals intro h
  all_goals simp only [Option.some.injEq, Prod.mk.injEq, reduceCtorEq, false_and] at h
  case case9 event => cases event <;> simp [JoinEvent.next] at h
  case case31 t ht hnone =>
    obtain ⟨hp, -, -⟩ := h
    obtain rfl := ServePc.announcing.inj hp
    exact ⟨rfl, t, ht, Option.isNone_iff_eq_none.1 hnone⟩

/-- What leads to a publication: the thread has found no session at the tag. -/
theorem announcing_of_next {a : ServerAct ι} (hstep : next s a = some s') {t : String}
    (h : s'.Announcing t) : s.Announcing t ∨ ∃ i o p, a = .serve i o ∧
      s.pc i = .leaving (some p) ∧ p.tag = some t ∧ s.registry.getByTag t = none := by
  obtain ⟨j, p, hj, ht⟩ := h
  cases a with
  | route o =>
    obtain ⟨router, out, -, rfl⟩ := next_route hstep
    exact .inl ⟨j, p, (routerOutput_keeps s out).2.1 ▸ hj, ht⟩
  | serve i o =>
    obtain ⟨pc, r, out, hserve, rfl⟩ := next_serve hstep
    by_cases hij : j = i
    · subst hij
      simp only [Function.update_self] at hj
      rw [hj] at hserve
      obtain ⟨hpc, t', ht', hnone⟩ := leaving_of_serve hserve
      obtain rfl := Option.some.inj (ht.symm.trans ht')
      exact .inr ⟨j, o, p, rfl, hpc, ht, hnone⟩
    · simp only [Function.update_of_ne hij] at hj
      exact .inl ⟨j, p, hj, ht⟩

theorem left_next {a : ServerAct ι} (h : s.Left) (hstep : next s a = some s')
    (horder : s.LeavesInOrder a) : s'.Left := by
  intro t hannouncing hpresent
  rcases announcing_of_next hstep hannouncing with hannouncing | ⟨i, o, p, rfl, hi, ht, hnone⟩
  · rcases present_of_next hstep hpresent with hpresent | ⟨i, o, ip, p, rfl, hi, ht⟩
    · exact h t hannouncing hpresent
    · -- The session would be registered while a thread is about to publish.
      simp only [LeavesInOrder, hi] at horder
      exact horder t ht hannouncing
  · rcases present_of_next hstep hpresent with hpresent | ⟨j, o', ip, q, ha, hj, -⟩
    · simp only [LeavesInOrder, hi] at horder
      exact horder t ht hnone hpresent
    · obtain ⟨rfl, -⟩ := ServerAct.serve.inj ha
      rw [hi] at hj
      cases hj

/-- A thread that is about to publish that a device has left knows its tag. -/
def Tagged (s : Server ι) : Prop := ∀ i p, s.pc i = .announcing p → ∃ t, p.tag = some t

theorem tagged_next {a : ServerAct ι} (h : s.Tagged) (hstep : next s a = some s') : s'.Tagged := by
  intro j p hj
  cases a with
  | route o =>
    obtain ⟨router, out, -, rfl⟩ := next_route hstep
    exact h j p ((routerOutput_keeps s out).2.1 ▸ hj)
  | serve i o =>
    obtain ⟨pc, r, out, hserve, rfl⟩ := next_serve hstep
    by_cases hij : j = i
    · subst hij
      simp only [Function.update_self] at hj
      rw [hj] at hserve
      obtain ⟨-, t, ht, -⟩ := leaving_of_serve hserve
      exact ⟨t, ht⟩
    · simp only [Function.update_of_ne hij] at hj
      exact h j p hj

/-- What a thread publishes when a device has left. -/
theorem announcing_of_serve {r r' : PeerRegistry ι} {pc pc' : ServePc ι} {o : Outcome}
    {e : NetworkEvent} (h : serve r i pc o = some (pc', r', .publishes e))
    (he : e.event = "peer_leave") : ∃ p, pc = .announcing p ∧ e.deviceTag = p.deviceTag := by
  revert h
  fun_cases serve r i pc o
  all_goals intro h
  all_goals simp only [Option.some.injEq, Prod.mk.injEq, reduceCtorEq, and_false] at h
  case case8 previous => cases previous <;> simp at h
  case case9 event =>
    obtain ⟨-, -, h⟩ := h
    rw [← Output.publishes.inj h] at he
    cases event <;> simp [JoinEvent.name] at he
  case case34 p =>
    obtain ⟨-, -, h⟩ := h
    exact ⟨p, rfl, congrArg NetworkEvent.deviceTag (Output.publishes.inj h).symm⟩

/-- A step that publishes that a device has left. -/
theorem announcing_of_publish {a : ServerAct ι} (hstep : next s a = some s') {e : NetworkEvent}
    (hevents : s'.events = s.events ++ [e]) (he : e.event = "peer_leave") :
    ∃ i p, s.pc i = .announcing p ∧ e.deviceTag = p.deviceTag := by
  have hquiet (h : s'.events = s.events) : False := by
    rw [h] at hevents
    simp at hevents
  cases a with
  | route o =>
    obtain ⟨router, out, -, rfl⟩ := next_route hstep
    refine (hquiet ?_).elim
    rcases out with _ | _ | _ | _ | _ | ⟨packet, q | _⟩ <;> rfl
  | serve i o =>
    obtain ⟨pc, r, out, hserve, rfl⟩ := next_serve hstep
    cases out with
    | publishes e' =>
      obtain rfl : e' = e := by simpa [output] using hevents
      obtain ⟨p, hp⟩ := announcing_of_serve hserve he
      exact ⟨i, p, hp⟩
    | forwards packet target => cases target <;> exact (hquiet rfl).elim
    | quiet | closes | arrives | finds => exact (hquiet rfl).elim

/-- Leave events match the registry, in the runs in which no session is registered
    between the check of a thread and its publication, and no session that was
    replaced is still there at the check: whenever a step appends a `peer_leave`,
    no session of its device is registered. -/
theorem leave_events_match {network : IPNetwork} {serverIp : IPAddress}
    (h : ((system ι network serverIp).restrict LeavesInOrder).Reachable s)
    {a : ServerAct ι} (hstep : next s a = some s') {e : NetworkEvent}
    (hevents : s'.events = s.events ++ [e]) (he : e.event = "peer_leave") :
    ∀ b p, s.registry.peers b = some p → p.deviceTag ≠ e.deviceTag := by
  have hinv : s.Tagged ∧ s.Left := by
    refine h.invariant (I := fun s => s.Tagged ∧ s.Left) (fun s hs => ?_) fun s a s' hs hstep =>
      ⟨tagged_next hs.1 (And.left hstep), left_next hs.2 (And.left hstep) (And.right hstep)⟩
    obtain ⟨r, -, rfl⟩ := hs
    exact ⟨nofun, fun t ⟨i, p, hi, _⟩ => nomatch hi⟩
  obtain ⟨i, p, hi, hdevice⟩ := announcing_of_publish hstep hevents he
  obtain ⟨t, ht⟩ := hinv.1 i p hi
  intro b q hq heq
  refine hinv.2 t ⟨i, p, hi, ht⟩ ⟨b, q, hq, ?_⟩
  rw [PeerConnection.tag, heq, hdevice]
  exact ht

/-- A session that is alone leaves in order. -/
theorem leavesInOrder_of_alone (hinv : s.Inv) (halone : ∀ j, j ≠ i → s.pc j = .start)
    (o : Outcome) : s.LeavesInOrder (.serve i o) := by
  rw [LeavesInOrder]
  split
  · -- A thread that registers its peer is not about to publish.
    rename_i ip p hi
    rintro t - ⟨j, q, hj, -⟩
    by_cases hji : j = i
    · rw [hji, hi] at hj
      cases hj
    · rw [halone j hji] at hj
      cases hj
  · -- A thread that has removed its peer has left no other one.
    rename_i p hi
    rintro t - - ⟨b, q, hq, -⟩
    have hregistered := (hinv.owned.peers q).1 (hinv.owned.inv.vpnIp b q hq ▸ hq)
    by_cases hqi : q.id = i
    · rw [hqi, hi] at hregistered
      cases hregistered
    · rw [halone _ hqi] at hregistered
      cases hregistered
  · trivial

/-- A run of one thread is in order. -/
theorem run_alone {network : IPNetwork} {serverIp : IPAddress} {r : PeerRegistry ι}
    (hr : PeerRegistry.init network serverIp = .ok r) {as : List (ServerAct ι)}
    (h : (system ι network serverIp).Run (new r) as s) (has : ∀ a ∈ as, ∃ o, a = .serve i o) :
    ((system ι network serverIp).restrict LeavesInOrder).Run (new r) as s ∧
      ∀ j, j ≠ i → s.pc j = .start := by
  induction h with
  | nil => exact ⟨.nil _, fun _ _ => rfl⟩
  | @snoc s s' as a hrun hstep ih =>
    obtain ⟨hrun', halone⟩ := ih fun a ha => has a (List.mem_append_left _ ha)
    obtain ⟨o, rfl⟩ := has a (List.mem_append_right _ (List.mem_singleton_self _))
    have hinv : s.Inv := inv_of_reachable ⟨_, as, ⟨r, hr, rfl⟩, hrun⟩
    refine ⟨.snoc hrun' ⟨hstep, leavesInOrder_of_alone hinv halone o⟩, fun j hj => ?_⟩
    obtain ⟨pc, r', out, -, rfl⟩ := next_serve hstep
    simp only [Function.update_of_ne hj]
    exact halone j hj

/-- The steps of a thread whose connection ends, up to the publication of
    `peer_leave`. -/
def leaves (i : ℕ) : List (ServerAct ℕ) := List.replicate 4 (.serve i .done)

/-- A device connects again after a thread has found no session of it, and before
    the thread publishes that the device has left. -/
def leavesLate : List (ServerAct ℕ) := joins 0 "alice" ++ leaves 0 ++ joins 1 "alice"

/-- What it leads to. -/
def afterLeavesLate : Server ℕ :=
  (leavesLate.foldlM next (new PeerRegistry.smallRegistry)).get (by decide)

/-- The leave event is published while the new session of the device is there. -/
theorem leave_after_join :
    (system ℕ (.v4 PeerRegistry.smallRegistry.network)
      (.v4 PeerRegistry.smallRegistry.serverIp)).Reachable afterLeavesLate ∧
    ∃ s' e, next afterLeavesLate (.serve 0 .done) = some s' ∧
      s'.events = afterLeavesLate.events ++ [e] ∧ e.event = "peer_leave" ∧
      ∃ b p, afterLeavesLate.registry.peers b = some p ∧ p.deviceTag = e.deviceTag := by
  refine ⟨⟨_, leavesLate, ⟨_, PeerRegistry.init_smallRegistry, rfl⟩,
    .of_foldlM (Option.some_get _).symm⟩, ?_⟩
  have hevents : (next afterLeavesLate (.serve 0 .done)).map Server.events =
    some (afterLeavesLate.events ++ [⟨"peer_leave", some "alice", "10.8.0.2"⟩]) := by decide
  obtain ⟨s', hstep, hevents⟩ := Option.map_eq_some_iff.1 hevents
  exact ⟨s', _, hstep, hevents, rfl, ⟨0x0a080002, by norm_num⟩,
    ⟨1, ⟨0x0a080002, by norm_num⟩, some "alice"⟩, by decide, rfl⟩

/-- A device that connects and leaves. -/
def afterLeaves : Server ℕ :=
  ((joins 0 "alice" ++ leaves 0).foldlM next (new PeerRegistry.smallRegistry)).get (by decide)

theorem leave_events_match_alone : ∃ s' e, next afterLeaves (.serve 0 .done) = some s' ∧
    s'.events = afterLeaves.events ++ [e] ∧ e.event = "peer_leave" ∧
    ∀ b p, afterLeaves.registry.peers b = some p → p.deviceTag ≠ e.deviceTag := by
  have hrun : (system ℕ (.v4 PeerRegistry.smallRegistry.network)
      (.v4 PeerRegistry.smallRegistry.serverIp)).Run (new PeerRegistry.smallRegistry)
      (joins 0 "alice" ++ leaves 0) afterLeaves := .of_foldlM (Option.some_get _).symm
  have hall : ∀ a ∈ joins 0 "alice" ++ leaves 0, ∃ o, a = ServerAct.serve 0 o := by
    simp [joins, leaves]
  have hreach : ((system ℕ (.v4 PeerRegistry.smallRegistry.network)
      (.v4 PeerRegistry.smallRegistry.serverIp)).restrict LeavesInOrder).Reachable afterLeaves :=
    ⟨_, _, ⟨_, PeerRegistry.init_smallRegistry, rfl⟩,
      (run_alone PeerRegistry.init_smallRegistry hrun hall).1⟩
  have hevents : (next afterLeaves (.serve 0 .done)).map Server.events =
    some (afterLeaves.events ++ [⟨"peer_leave", some "alice", "10.8.0.2"⟩]) := by decide
  obtain ⟨s', hstep, hevents⟩ := Option.map_eq_some_iff.1 hevents
  exact ⟨s', _, hstep, hevents, rfl, leave_events_match hreach hstep hevents rfl⟩

end Server

end SecNet
