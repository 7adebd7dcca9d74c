import SecNet.Chat.CryptoAgent
import SecNet.Chat.MlsEvents
import SecNet.Handshake.DeviceAuth
import SecNet.Lib.Transition

/-!
# The key of the general group

Every client of the chat runs `initializeGroup("general")`: it reads the state of the
server, has its agent create the next state, which the agent installs at once, and posts
it. The server accepts the events one at a time, and every accepted event is pushed to
every client, whose agent installs it, also in place of a state of the same epoch.

* `GroupInit.Inv`: the agent of a client has installed the last event pushed to it, or
  holds a later epoch that it has created itself;
* `group_key_converges`: so all clients end with the key of the last accepted event, when
  none creates the epoch of an event that it has already installed;
* `create_late`, `group_key_diverges`: one that does is left with a key of its own.
-/

namespace SecNet

variable {C : Crypto} {F : Type} {δ ι : Type}

/-- The clients, by the identities of their agents, and the devices of the directory, which
    has each tag once, and every client. -/
structure Clients (C : Crypto) (δ : Type) where
  identity : δ → DeviceIdentity C
  tag : δ → PyStr
  directory : List Member
  nodup : (directory.map Member.deviceTag).Nodup
  mem : ∀ d, ⟨tag d, b64Str (identity d).directPublicKeyBytes⟩ ∈ directory

/-- The members: the devices that have an encryption key. -/
def Clients.members (c : Clients C δ) : List Member :=
  c.directory.filter fun member => member.encryptionPublicKey ≠ []

/-- The group of all devices. -/
def general : PyStr := .ofString "general"

/-- Where a call of `initializeGroup` is: it has read the epoch of the latest event, then
    its agent has created a state (with a key), and then the state has been posted. -/
inductive InitPhase (F : Type)
  | idle
  | read (parentEpoch : ℤ)
  | created (parentEpoch : ℤ) (state : Dict F) (key : Bytes)
  | done

/-- A state that has been created is not posted yet. -/
def InitPhase.isCreated : InitPhase F → Bool
  | .created _ _ _ => true
  | _ => false

/-- The latest event of the server, the accepted ones with their keys, the agents, how
    many events have been pushed to each client, and the calls. -/
structure GroupInit (C : Crypto) (F δ ι : Type) where
  latest : Option (Dict F)
  accepted : List (Dict F × Bytes)
  agent : δ → CryptoAgent C F
  pushed : δ → ℕ
  phase : ι → InitPhase F

/-- The steps. -/
inductive InitAct (C : Crypto) (F δ ι : Type)
  /-- The call reads the directory and the state of the server. -/
  | read (i : ι)
  /-- The agent creates a state, and installs it. -/
  | create (i : ι) (draws : GroupDraws C)
  /-- The state is posted. -/
  | post (i : ι) (createdAt : F) (publish : String → Except Exn Unit)
  /-- The next accepted event is pushed to a client. -/
  | push (d : δ)

/-- `current.payload ? Number(current.payload.epoch) : 0`, where the epoch is an integer. -/
def parentEpochOf : Option (Dict F) → Option ℤ
  | none => some 0
  | some record =>
    match record.get "payload" with
    | .null => some 0
    | .obj payload =>
      match Dict.get payload "epoch" with
      | .int epoch => some epoch
      | _ => none
    | _ => none

/-- The request with which a client posts a state. -/
def Clients.request (c : Clients C δ) (d : δ) (parentEpoch : ℤ) (state : Dict F) (createdAt : F)
    (publish : String → Except Exn Unit) : MlsRequest F where
  tag := .ok (c.tag d)
  body := .ok (.obj (Dict.ofList [("group_id", .str general), ("parent_epoch", .int parentEpoch),
    ("event", .obj state)]))
  createdAt := createdAt
  publish := publish

variable [PyFloat F] [PyFloatInt F]

instance (latest : Option (Dict F)) (request : MlsRequest F) :
    Decidable (Accepted latest request) :=
  match hcheck : checkMlsEvent latest request, hpublish : request.publish "mls-group-events" with
  | .ok record, .ok () => .isTrue ⟨record, hcheck, hpublish⟩
  | .error _, _ => .isFalse fun ⟨_, h, _⟩ => by rw [hcheck] at h; cases h
  | .ok _, .error _ => .isFalse fun ⟨_, _, h⟩ => by rw [hpublish] at h; cases h

/-- The epoch that is used for a group. -/
def CryptoAgent.heldEpoch (a : CryptoAgent C F) (groupId : PyStr) : Option ℤ :=
  match a.groupKey groupId with
  | .ok (_, epoch) => some epoch
  | .error _ => none

omit [PyFloat F] [PyFloatInt F] in
/-- A state that is created for the members can be opened by every client. -/
theorem Clients.opens (hC : C.Correct) (c : Clients C δ) {draws : GroupDraws C} {epoch : ℤ}
    {ownTag : PyStr} {state : Dict F}
    (h : makeGroupState draws c.members epoch ownTag general = .ok state) (d : δ) :
    Opens (c.identity d) (c.tag d) general state draws.key epoch := by
  have hnodup : (c.members.map Member.deviceTag).Nodup :=
    c.nodup.sublist (List.filter_sublist.map _)
  have hne : b64Str (c.identity d).directPublicKeyBytes ≠ [] := by
    intro hnil
    have hdecode := b64decode_b64encode (c.identity d).directPublicKeyBytes
    rw [List.map_eq_nil_iff.1 hnil] at hdecode
    have hlength : (c.identity d).directPublicKeyBytes.length = 32 := hC.length_x25519Public _
    rw [← Option.some.inj hdecode] at hlength
    cases hlength
  have hmem : (⟨c.tag d, b64Str (c.identity d).directPublicKeyBytes⟩ : Member) ∈ c.members :=
    List.mem_filter.2 ⟨c.mem d, decide_eq_true hne⟩
  exact makeGroupState_opens hC h hnodup hmem (agentUnb64_b64 _)

/-! ## A state at the server -/

omit [PyFloatInt F] in
theorem Clients.event_request (c : Clients C δ) (d : δ) (parentEpoch : ℤ) (state : Dict F)
    (createdAt : F) (publish : String → Except Exn Unit) :
    (c.request d parentEpoch state createdAt publish).event =
      if 4000000 < (Json.dumpsSpaced (.obj state)).length then
        .error (.valueError "invalid MLS event")
      else .ok (Dict.ofList [("group_id", .str general), ("parent_epoch", .int parentEpoch),
        ("event", .obj state)], state) := by
  have hitem : (Dict.ofList [("group_id", .str general), ("parent_epoch", .int parentEpoch),
      ("event", .obj state)]).getItem "event" = .ok (.obj state) := Dict.getItem_ofList rfl
  rw [MlsRequest.event, Clients.request]
  simp only [bind, Except.bind, Json.getItem, hitem]
  rfl

/-- The server accepts the state of a client when its parent epoch is the current one, it
    is not too long, and it is published. -/
theorem Clients.accepted_iff (c : Clients C δ) (d : δ) {parentEpoch : ℤ} {state : Dict F}
    (hepoch : state.lookup (.ofString "epoch") = some (.int (parentEpoch + 1)))
    (createdAt : F) (publish : String → Except Exn Unit) (latest : Option (Dict F)) :
    Accepted latest (c.request d parentEpoch state createdAt publish) ↔
      currentEpoch latest = .ok parentEpoch ∧
        (Json.dumpsSpaced (.obj state)).length ≤ 4000000 ∧
        publish "mls-group-events" = .ok () := by
  have hparent : pyInt (Dict.getD (F := F) (.ofList [("group_id", .str general),
      ("parent_epoch", .int parentEpoch), ("event", .obj state)]) "parent_epoch" (.int (-1))) =
      .ok parentEpoch := by
    rw [Dict.getD_ofList rfl]
    rfl
  constructor
  · rintro ⟨record, hcheck, hpublish⟩
    obtain ⟨tag, body, event, e, -, hevent, he, hcurrent, -⟩ := checkMlsEvent_eq_ok.1 hcheck
    rw [c.event_request] at hevent
    split_ifs at hevent with hlength
    obtain ⟨rfl, rfl⟩ := Prod.mk.inj (Except.ok.inj hevent)
    obtain rfl := Except.ok.inj (hparent.symm.trans he)
    exact ⟨hcurrent, not_lt.1 hlength, hpublish⟩
  · rintro ⟨hcurrent, hlength, hpublish⟩
    refine ⟨_, checkMlsEvent_eq_ok.2
      ⟨_, _, state, parentEpoch, rfl, ?_, hparent, hcurrent, ?_, rfl⟩, hpublish⟩
    · rw [c.event_request, if_neg (not_lt.2 hlength)]
    · intro _
      rw [Dict.getD, hepoch]
      rfl

/-- The epoch of an accepted state is the current one, for the server and for the clients. -/
theorem Clients.epoch_publish (c : Clients C δ) (d : δ) {parentEpoch : ℤ} {state : Dict F}
    (hepoch : state.lookup (.ofString "epoch") = some (.int (parentEpoch + 1)))
    {createdAt : F} {publish : String → Except Exn Unit} {latest : Option (Dict F)}
    (h : Accepted latest (c.request d parentEpoch state createdAt publish)) :
    parentEpochOf (publishMlsEvent latest
        (c.request d parentEpoch state createdAt publish)).1 = some (parentEpoch + 1) ∧
      currentEpoch (publishMlsEvent latest
        (c.request d parentEpoch state createdAt publish)).1 = .ok (parentEpoch + 1) := by
  obtain ⟨record, hcheck, hpublish⟩ := h
  have hpublished : (publishMlsEvent latest
      (c.request d parentEpoch state createdAt publish)).1 = some record := by
    rw [publishMlsEvent, hcheck]
    simp only [hpublish]
  obtain ⟨tag, body, event, e, -, hevent, -, -, -, rfl⟩ := checkMlsEvent_eq_ok.1 hcheck
  rw [c.event_request] at hevent
  split_ifs at hevent
  obtain ⟨-, rfl⟩ := Prod.mk.inj (Except.ok.inj hevent)
  rw [hpublished]
  constructor
  · have hpayload : Dict.get (eventRecord tag body state createdAt) "payload" = .obj state :=
      Dict.get_ofList rfl
    have hget : Dict.get state "epoch" = .int (parentEpoch + 1) := by
      rw [Dict.get, hepoch]
      rfl
    rw [parentEpochOf, show (c.request d parentEpoch state createdAt publish).createdAt = createdAt
      from rfl, hpayload]
    simp only [hget]
  · rw [currentEpoch_eventRecord, Dict.getD, hepoch]
    rfl

/-! ## The calls -/

/-- What a call has got is of an epoch that is there, and a state that has been created can
    be opened by every client. -/
def InitPhase.Fine (c : Clients C δ) (n : ℕ) : InitPhase F → Prop
  | .read e => 0 ≤ e ∧ e ≤ n
  | .created e state key =>
    0 ≤ e ∧ e ≤ n ∧ ∀ d, Opens (c.identity d) (c.tag d) general state key (e + 1)
  | _ => True

omit [PyFloat F] [PyFloatInt F] in
theorem InitPhase.Fine.mono {c : Clients C δ} {n n' : ℕ} {phase : InitPhase F}
    (h : phase.Fine c n) (hn : n ≤ n') : phase.Fine c n' := by
  cases phase with
  | read e => exact ⟨h.1, h.2.trans (Int.ofNat_le.2 hn)⟩
  | created e state key => exact ⟨h.1, h.2.1.trans (Int.ofNat_le.2 hn), h.2.2⟩
  | idle | done => trivial

omit [PyFloat F] [PyFloatInt F] in
theorem fine_update [DecidableEq ι] {c : Clients C δ} {n : ℕ} {phases : ι → InitPhase F}
    (h : ∀ i, (phases i).Fine c n) {i : ι} {phase : InitPhase F} (hphase : phase.Fine c n) (j : ι) :
    (Function.update phases i phase j).Fine c n := by
  by_cases hj : j = i
  · subst hj
    rwa [Function.update_self]
  · rw [Function.update_of_ne hj]
    exact h j

namespace GroupInit

variable [DecidableEq δ] [DecidableEq ι] (c : Clients C δ) (owner : ι → δ)

/-- No client has begun. -/
def start : GroupInit C F δ ι where
  latest := none
  accepted := []
  agent d := ⟨c.identity d, fun _ => none, [], fun _ => none⟩
  pushed _ := 0
  phase _ := .idle

/-- The creation of a state by the agent of the client. -/
def create (s : GroupInit C F δ ι) (i : ι) (draws : GroupDraws C) : Option (GroupInit C F δ ι) :=
  match s.phase i with
  | .read parentEpoch =>
    -- The agent has installed the state when it returns it.
    let (agent, state) := (s.agent (owner i)).createGroupState draws c.members (parentEpoch + 1)
      (c.tag (owner i)) general (.ok ())
    some { s with
      agent := Function.update s.agent (owner i) agent
      phase := Function.update s.phase i <|
        match state with
        | .ok state => .created parentEpoch state draws.key
        | .error _ => .done }
  | _ => none

/-- The request of a client, at the server. -/
def post (s : GroupInit C F δ ι) (i : ι) (createdAt : F) (publish : String → Except Exn Unit) :
    Option (GroupInit C F δ ι) :=
  match s.phase i with
  | .created parentEpoch state key =>
    let request := c.request (owner i) parentEpoch state createdAt publish
    some { s with
      latest := (publishMlsEvent s.latest request).1
      -- When the request is rejected, the agent keeps the state.
      accepted := if Accepted s.latest request then s.accepted ++ [(state, key)] else s.accepted
      phase := Function.update s.phase i .done }
  | _ => none

/-- The next event, at the agent of a client. -/
def push (s : GroupInit C F δ ι) (d : δ) : Option (GroupInit C F δ ι) :=
  match s.accepted[s.pushed d]? with
  | some (event, _) =>
    let agent :=
      if (event.get "kind").isStr "tree-group-state-v1" then
        ((s.agent d).installGroupState event (c.tag d) (.ok ())).1
      else s.agent d
    some { s with
      agent := Function.update s.agent d agent
      pushed := Function.update s.pushed d (s.pushed d + 1) }
  | none => none

/-- A step. -/
def next (s : GroupInit C F δ ι) : InitAct C F δ ι → Option (GroupInit C F δ ι)
  | .read i =>
    match s.phase i with
    | .idle => do
      let parentEpoch ← parentEpochOf s.latest
      some { s with phase := Function.update s.phase i (.read parentEpoch) }
    | _ => none
  | .create i draws => s.create c owner i draws
  | .post i createdAt publish => s.post c owner i createdAt publish
  | .push d => s.push c d

variable (F) in
/-- Any number of calls, each of a client, in any order of their steps. -/
def system : System (GroupInit C F δ ι) (InitAct C F δ ι) :=
  .ofPartial (· = start c) (next c owner)

/-- All that has been created has been posted, and all that was accepted has been pushed. -/
def Quiet (s : GroupInit C F δ ι) : Prop :=
  (∀ i, (s.phase i).isCreated = false) ∧ ∀ d, s.pushed d = s.accepted.length

instance [Fintype δ] [Fintype ι] (s : GroupInit C F δ ι) : Decidable s.Quiet :=
  inferInstanceAs (Decidable (_ ∧ _))

/-- The agent of every client has the key and the epoch of the last accepted event: the
    key to which its own envelope opens. -/
def Converged (s : GroupInit C F δ ι) : Prop :=
  ∀ event key, s.accepted.getLast? = some (event, key) → ∃ epoch,
    currentEpoch s.latest = .ok epoch ∧ ∀ d,
      Opens (c.identity d) (c.tag d) general event key epoch ∧
        (s.agent d).groupKey general = .ok (key, epoch)

/-- The condition of a step. A client does not create the state of an epoch while its
    agent holds the event of that epoch, which was pushed to it. And of the events whose
    parent epoch is the current one, none is too long, and none fails to be published. -/
def Timely (s : GroupInit C F δ ι) : InitAct C F δ ι → Prop
  | .create i _ =>
    match s.phase i with
    | .read parentEpoch => ¬((s.pushed (owner i) : ℤ) = parentEpoch + 1 ∧
        (s.agent (owner i)).heldEpoch general = some (parentEpoch + 1))
    | _ => True
  | .post i _ publish =>
    match s.phase i with
    | .created parentEpoch state _ => currentEpoch s.latest = .ok parentEpoch →
        (Json.dumpsSpaced (.obj state)).length ≤ 4000000 ∧ publish "mls-group-events" = .ok ()
    | _ => True
  | _ => True

instance (s : GroupInit C F δ ι) (a : InitAct C F δ ι) : Decidable (s.Timely owner a) :=
  match a with
  | .create i _ =>
    match h : s.phase i with
    | .read _ => decidable_of_iff (¬(_ ∧ _)) (by rw [Timely, h])
    | .idle | .created _ _ _ | .done => .isTrue (by rw [Timely, h]; trivial)
  | .post i _ _ =>
    match h : s.phase i with
    | .created _ _ _ => decidable_of_iff (_ → _ ∧ _) (by rw [Timely, h])
    | .idle | .read _ | .done => .isTrue (by rw [Timely, h]; trivial)
  | .read _ | .push _ => .isTrue trivial

/-! ## The invariant -/

/-- What the agent of a client holds: nothing while nothing has been pushed; the last event
    pushed; or a later epoch, which has been accepted or is about to be posted by it. -/
def Held (s : GroupInit C F δ ι) (d : δ) : Prop :=
  (s.agent d).groupStates general = none ∧ s.pushed d = 0 ∨
    ∃ key epoch, (s.agent d).Holds general key epoch ∧ key.length = 32 ∧
      ((epoch = s.pushed d ∧ ∃ n event, s.pushed d = n + 1 ∧ s.accepted[n]? = some (event, key)) ∨
        (s.pushed d < epoch ∧ (epoch ≤ s.accepted.length ∨ epoch = s.accepted.length + 1 ∧
          ∃ i state key', owner i = d ∧ s.phase i = .created s.accepted.length state key')))

/-- The accepted events are those of the epochs from one on, and can be opened by every
    client, as those that are about to be posted. -/
structure Inv (s : GroupInit C F δ ι) : Prop where
  identity : ∀ d, (s.agent d).identity = c.identity d
  parentEpoch : parentEpochOf s.latest = some (s.accepted.length : ℤ)
  currentEpoch : currentEpoch s.latest = .ok (s.accepted.length : ℤ)
  accepted : ∀ {n : ℕ} {event key}, s.accepted[n]? = some (event, key) → ∀ d,
    Opens (c.identity d) (c.tag d) general event key (n + 1 : ℤ)
  phase : ∀ i, (s.phase i).Fine c s.accepted.length
  pushed : ∀ d, s.pushed d ≤ s.accepted.length
  held : ∀ d, s.Held owner d

variable {c owner} {s s' : GroupInit C F δ ι}

omit [PyFloat F] [DecidableEq δ] [DecidableEq ι] in
theorem inv_start : (start c : GroupInit C F δ ι).Inv c owner where
  identity _ := rfl
  parentEpoch := rfl
  currentEpoch := rfl
  accepted h := by cases h
  phase _ := trivial
  pushed _ := le_refl 0
  held _ := .inl ⟨rfl, rfl⟩

omit [PyFloat F] [PyFloatInt F] [DecidableEq δ] in
/-- What another call does leaves what an agent holds, when it was not about to post, or
    was not with the current epoch. -/
theorem Held.of_phase {d : δ} (h : s.Held owner d) {i : ι} (phase : InitPhase F)
    (hi : ∀ state key, s.phase i ≠ .created s.accepted.length state key) :
    ({ s with phase := Function.update s.phase i phase } : GroupInit C F δ ι).Held owner d := by
  rcases h with hnone |
    ⟨key, epoch, hholds, hkey, hsynced | ⟨hlt, hle | ⟨heq, j, state, key', hj, hphase⟩⟩⟩
  · exact .inl hnone
  · exact .inr ⟨key, epoch, hholds, hkey, .inl hsynced⟩
  · exact .inr ⟨key, epoch, hholds, hkey, .inr ⟨hlt, .inl hle⟩⟩
  · refine .inr ⟨key, epoch, hholds, hkey, .inr ⟨hlt, .inr ⟨heq, j, state, key', hj, ?_⟩⟩⟩
    have hji : j ≠ i := by
      rintro rfl
      exact hi state key' hphase
    exact (Function.update_of_ne hji ..).trans hphase

theorem inv_read (hs : s.Inv c owner) {i : ι} (h : s.next c owner (.read i) = some s') :
    s'.Inv c owner := by
  rw [next] at h
  split at h
  · rename_i hphase
    rw [hs.parentEpoch] at h
    obtain rfl := Option.some.inj h
    refine { hs with
      phase := fine_update hs.phase ⟨Int.natCast_nonneg _, le_refl _⟩
      held := fun d => (hs.held d).of_phase _ fun state key hi => by rw [hphase] at hi; cases hi }
  · cases h

omit [PyFloat F] [PyFloatInt F] [DecidableEq ι] in
/-- What the other agents hold, and what has been pushed to them, does not matter. -/
theorem Held.of_ne {d d' : δ} (h : s.Held owner d') (hd : d' ≠ d) (agent : CryptoAgent C F)
    (pushed : ℕ) :
    ({ s with
      agent := Function.update s.agent d agent
      pushed := Function.update s.pushed d pushed } : GroupInit C F δ ι).Held owner d' := by
  rw [Held] at h ⊢
  simpa only [Function.update_of_ne hd] using h

omit [PyFloat F] [DecidableEq ι] in
/-- The agents keep their identities, when the one that changes does. -/
theorem Inv.identity_update (hs : s.Inv c owner) {d : δ} {agent : CryptoAgent C F}
    (hagent : agent.identity = (s.agent d).identity) (d' : δ) :
    (Function.update s.agent d agent d').identity = c.identity d' := by
  by_cases hd : d' = d
  · subst hd
    rw [Function.update_self]
    exact hagent.trans (hs.identity d')
  · rw [Function.update_of_ne hd]
    exact hs.identity d'

omit [DecidableEq δ] [DecidableEq ι] in
/-- The epoch of a state that is created in time is beyond the last one pushed: otherwise
    the agent would hold the event of that very epoch. -/
theorem Inv.pushed_lt (hs : s.Inv c owner) {i : ι} {draws : GroupDraws C} {parentEpoch : ℤ}
    (hphase : s.phase i = .read parentEpoch) (htimely : s.Timely owner (.create i draws))
    (hlater : ∀ key epoch, (s.agent (owner i)).Holds general key epoch → epoch ≤ parentEpoch + 1) :
    (s.pushed (owner i) : ℤ) < parentEpoch + 1 := by
  have hfine := hs.phase i
  rw [hphase] at hfine
  rcases hs.held (owner i) with ⟨-, hzero⟩ | ⟨key, epoch, hheld, hkey, hcases⟩
  · rw [hzero]
    exact Int.lt_add_one_of_le hfine.1
  · have hle := hlater key epoch hheld
    rcases hcases with ⟨hsynced, -⟩ | ⟨hahead, -⟩
    · rw [Timely, hphase] at htimely
      refine lt_of_le_of_ne (hsynced ▸ hle) fun heq => htimely ⟨heq, ?_⟩
      rw [CryptoAgent.heldEpoch, hheld.groupKey hkey, hsynced, heq]
    · exact hahead.trans_le hle

theorem inv_create (hC : C.Correct) (hs : s.Inv c owner) {i : ι} {draws : GroupDraws C}
    (h : s.next c owner (.create i draws) = some s') (htimely : s.Timely owner (.create i draws)) :
    s'.Inv c owner := by
  rw [next, create] at h
  split at h
  case h_2 => cases h
  rename_i parentEpoch hphase
  obtain ⟨h0, hle⟩ : 0 ≤ parentEpoch ∧ parentEpoch ≤ s.accepted.length := by
    have hfine := hs.phase i
    rwa [hphase] at hfine
  have hnot : ∀ state key, s.phase i ≠ .created s.accepted.length state key := by
    intro state key hi
    rw [hphase] at hi
    cases hi
  rcases (s.agent (owner i)).createGroupState_cases draws c.members (parentEpoch + 1)
    (c.tag (owner i)) general with ⟨e, hcreate⟩ | ⟨state, a, hmake, hinstall, hcreate⟩
  · rw [hcreate] at h
    obtain rfl := Option.some.inj h
    simp only [Function.update_eq_self]
    exact { hs with
      phase := fine_update hs.phase trivial
      held := fun d => (hs.held d).of_phase _ hnot }
  · rw [hcreate] at h
    obtain rfl := Option.some.inj h
    have hopens := c.opens hC hmake
    have hopen := hopens (owner i)
    rw [← hs.identity (owner i)] at hopen
    obtain ⟨hholds, hidentity, hlater⟩ := CryptoAgent.holds_of_installGroupState hopen hinstall
    have hlt := hs.pushed_lt hphase htimely hlater
    refine { hs with
      identity := hs.identity_update hidentity
      phase := fine_update hs.phase ⟨h0, hle, hopens⟩
      held := fun d => ?_ }
    by_cases hd : d = owner i
    · subst hd
      refine .inr ⟨draws.key, parentEpoch + 1, ?_, draws.length_key, .inr ⟨hlt, ?_⟩⟩
      · simp only [Function.update_self]
        exact hholds
      -- The new epoch has been accepted already, or is the next one, which is about to be posted.
      · rcases hle.lt_or_eq with hlt | heq
        · exact .inl (Int.add_one_le_of_lt hlt)
        · refine .inr ⟨by rw [heq], i, state, draws.key, rfl, ?_⟩
          simp only [Function.update_self, heq]
    · have hheld := ((hs.held d).of_phase (.created parentEpoch state draws.key) hnot).of_ne hd a
        (s.pushed (owner i))
      simpa only [Function.update_eq_self] using hheld

omit [PyFloat F] [PyFloatInt F] [DecidableEq δ] [DecidableEq ι] in
/-- What an agent holds is fine when one more event has been accepted. -/
theorem Held.accept {d : δ} (h : s.Held owner d) {latest : Option (Dict F)}
    {entry : Dict F × Bytes} {phase : ι → InitPhase F} :
    ({ s with latest := latest, accepted := s.accepted ++ [entry], phase := phase } :
      GroupInit C F δ ι).Held owner d := by
  have hlength : ((s.accepted ++ [entry]).length : ℤ) = s.accepted.length + 1 := by
    rw [List.length_append, List.length_singleton, Nat.cast_succ]
  rcases h with hnone | ⟨key, epoch, hholds, hkey, ⟨hsynced, n, event, hn, hevent⟩ | ⟨hlt, hle⟩⟩
  · exact .inl hnone
  · refine .inr ⟨key, epoch, hholds, hkey, .inl ⟨hsynced, n, event, hn, ?_⟩⟩
    exact (List.getElem?_append_left (List.getElem?_eq_some_iff.1 hevent).1).trans hevent
  · refine .inr ⟨key, epoch, hholds, hkey, .inr ⟨hlt, .inl ?_⟩⟩
    dsimp only
    rw [hlength]
    rcases hle with hle | ⟨heq, -⟩
    · exact hle.trans (Int.le_add_one (le_refl _))
    · exact heq.le

omit [PyFloat F] [DecidableEq δ] in
/-- One more event is accepted, of the next epoch. -/
theorem Inv.accept (hs : s.Inv c owner) {state : Dict F} {key : Bytes}
    (hopens : ∀ d, Opens (c.identity d) (c.tag d) general state key (s.accepted.length + 1 : ℤ))
    {latest : Option (Dict F)} (hparent : parentEpochOf latest = some (s.accepted.length + 1 : ℤ))
    (hepoch : SecNet.currentEpoch latest = .ok (s.accepted.length + 1 : ℤ)) (i : ι) :
    ({ s with
      latest := latest
      accepted := s.accepted ++ [(state, key)]
      phase := Function.update s.phase i .done } : GroupInit C F δ ι).Inv c owner := by
  have hlength : (s.accepted ++ [(state, key)]).length = s.accepted.length + 1 := by
    rw [List.length_append, List.length_singleton]
  refine ⟨hs.identity, ?_, ?_, fun {n event key'} hn d => ?_, fine_update (fun j => ?_) trivial,
    fun d => ?_, fun d => (hs.held d).accept⟩
  · rw [hparent, hlength, Nat.cast_succ]
  · rw [hepoch, hlength, Nat.cast_succ]
  · dsimp only at hn
    rcases lt_or_ge n s.accepted.length with hlt | hge
    · rw [List.getElem?_append_left hlt] at hn
      exact hs.accepted hn d
    · rw [List.getElem?_append_right hge, List.getElem?_singleton] at hn
      split_ifs at hn with hzero
      obtain ⟨rfl, rfl⟩ := Prod.mk.inj (Option.some.inj hn)
      obtain rfl : n = s.accepted.length := le_antisymm (Nat.sub_eq_zero_iff_le.1 hzero) hge
      exact hopens d
  · exact (hs.phase j).mono (by rw [hlength]; exact Nat.le_succ _)
  · exact (hs.pushed d).trans (by rw [hlength]; exact Nat.le_succ _)

theorem inv_post (hs : s.Inv c owner) {i : ι} {createdAt : F} {publish : String → Except Exn Unit}
    (h : s.next c owner (.post i createdAt publish) = some s')
    (htimely : s.Timely owner (.post i createdAt publish)) : s'.Inv c owner := by
  rw [next, post] at h
  split at h
  case h_2 => cases h
  rename_i parentEpoch state key hphase
  obtain rfl := Option.some.inj h
  obtain ⟨h0, hle, hopens⟩ : 0 ≤ parentEpoch ∧ parentEpoch ≤ s.accepted.length ∧
      ∀ d, Opens (c.identity d) (c.tag d) general state key (parentEpoch + 1) := by
    have hfine := hs.phase i
    rwa [hphase] at hfine
  have haccepted := c.accepted_iff (owner i) (hopens (owner i)).epoch createdAt publish s.latest
  by_cases hcurrent : parentEpoch = s.accepted.length
  · -- The state is accepted, since the post is timely.
    rw [Timely, hphase] at htimely
    have hlatest : currentEpoch s.latest = .ok parentEpoch := by
      rw [hcurrent]
      exact hs.currentEpoch
    have hyes := haccepted.2 ⟨hlatest, htimely hlatest⟩
    obtain ⟨hparent, hepoch⟩ := c.epoch_publish (owner i) (hopens (owner i)).epoch hyes
    simp only [if_pos hyes]
    exact hs.accept (fun d => hcurrent ▸ hopens d) (hcurrent ▸ hparent) (hcurrent ▸ hepoch) i
  · -- Its parent epoch is not the current one.
    have hno : ¬Accepted s.latest (c.request (owner i) parentEpoch state createdAt publish) := by
      intro hyes
      have hlatest := (haccepted.1 hyes).1
      rw [hs.currentEpoch] at hlatest
      exact hcurrent (Except.ok.inj hlatest).symm
    simp only [if_neg hno, publishMlsEvent_of_not_accepted hno]
    exact { hs with
      phase := fine_update hs.phase trivial
      held := fun d => (hs.held d).of_phase _ fun state' key' hi => by
        rw [hphase] at hi
        exact hcurrent (InitPhase.created.inj hi).1 }

omit [PyFloat F] [DecidableEq ι] in
/-- What an agent holds once the next event has been pushed to it: the event, or a later
    epoch, as before. -/
theorem Held.push {d : δ} (h : s.Held owner d) {event : Dict F} {key : Bytes}
    (hopen : Opens (s.agent d).identity (c.tag d) general event key (s.pushed d + 1 : ℤ))
    (hevent : s.accepted[s.pushed d]? = some (event, key)) {agent : CryptoAgent C F}
    (hagent : ((s.agent d).installGroupState event (c.tag d) (.ok ())).1 = agent) :
    agent.identity = (s.agent d).identity ∧
      ({ s with
        agent := Function.update s.agent d agent
        pushed := Function.update s.pushed d (s.pushed d + 1) } :
          GroupInit C F δ ι).Held owner d := by
  -- The event is installed where no later epoch is held.
  have hinstalled (hepoch : (s.agent d).NotAhead general (s.pushed d + 1)) :
      agent.Holds general key (s.pushed d + 1) ∧ agent.identity = (s.agent d).identity := by
    rw [CryptoAgent.installGroupState_of_opens hopen hepoch] at hagent
    obtain rfl := hagent
    refine ⟨CryptoAgent.holds_of_groupStates hopen ?_, rfl⟩
    dsimp only
    rw [Function.update_self]
  have hsynced (hholds : agent.Holds general key (s.pushed d + 1)) :
      ({ s with
        agent := Function.update s.agent d agent
        pushed := Function.update s.pushed d (s.pushed d + 1) } :
          GroupInit C F δ ι).Held owner d := by
    refine .inr ⟨key, s.pushed d + 1, ?_, hopen.length_key,
      .inl ⟨?_, s.pushed d, event, ?_, hevent⟩⟩
    · simp only [Function.update_self]
      exact hholds
    · simp only [Function.update_self, Nat.cast_succ]
    · simp only [Function.update_self]
  rcases h with ⟨hnone, -⟩ | ⟨key', epoch', hheld, hkey, hcases⟩
  · obtain ⟨hholds, hidentity⟩ := hinstalled (CryptoAgent.notAhead_of_none hnone)
    exact ⟨hidentity, hsynced hholds⟩
  rcases le_or_gt epoch' (s.pushed d + 1 : ℤ) with hle | hlt
  · obtain ⟨hholds, hidentity⟩ := hinstalled (hheld.notAhead_iff.2 hle)
    exact ⟨hidentity, hsynced hholds⟩
  · -- A later epoch, which is not the last one pushed, stays.
    obtain ⟨e, he⟩ := CryptoAgent.installGroupState_of_lt hopen hheld hlt
    rw [he] at hagent
    obtain rfl : s.agent d = agent := hagent
    refine ⟨rfl, .inr ⟨key', epoch', ?_, hkey, .inr ⟨?_, ?_⟩⟩⟩
    · simp only [Function.update_self]
      exact hheld
    · simp only [Function.update_self, Nat.cast_succ]
      exact hlt
    · rcases hcases with ⟨hsynced, -⟩ | ⟨-, hahead⟩
      · rw [hsynced] at hlt
        exact absurd hlt (not_lt.2 (Int.le_add_one (le_refl _)))
      · exact hahead

theorem inv_push (hs : s.Inv c owner) {d : δ} (h : s.next c owner (.push d) = some s') :
    s'.Inv c owner := by
  rw [next, push] at h
  split at h
  case h_2 => cases h
  rename_i event key hevent
  obtain rfl := Option.some.inj h
  have hopen := hs.accepted hevent d
  rw [if_pos hopen.kind]
  rw [← hs.identity d] at hopen
  obtain ⟨hidentity, hheld⟩ := (hs.held d).push hopen hevent rfl
  refine { hs with
    identity := hs.identity_update hidentity
    pushed := fun d' => ?_
    held := fun d' => ?_ }
  · by_cases hd : d' = d
    · subst hd
      simp only [Function.update_self]
      exact (List.getElem?_eq_some_iff.1 hevent).1
    · simp only [Function.update_of_ne hd]
      exact hs.pushed d'
  · by_cases hd : d' = d
    · subst hd
      exact hheld
    · exact (hs.held d').of_ne hd _ _

theorem inv_next (hC : C.Correct) (hs : s.Inv c owner) {a : InitAct C F δ ι}
    (h : s.next c owner a = some s') (htimely : s.Timely owner a) : s'.Inv c owner := by
  cases a with
  | read i => exact inv_read hs h
  | create i draws => exact inv_create hC hs h htimely
  | post i createdAt publish => exact inv_post hs h htimely
  | push d => exact inv_push hs h

omit [DecidableEq δ] [DecidableEq ι] in
/-- When nothing is left to be done, the last event pushed is what every agent holds. -/
theorem Inv.converged (hs : s.Inv c owner) (hquiet : s.Quiet) : s.Converged c := by
  intro event key hlast
  obtain ⟨n, hn⟩ : ∃ n, s.accepted.length = n + 1 := by
    refine Nat.exists_eq_add_one_of_ne_zero fun hzero => ?_
    rw [List.length_eq_zero_iff.1 hzero] at hlast
    cases hlast
  rw [List.getLast?_eq_getElem?, hn, Nat.add_sub_cancel] at hlast
  refine ⟨s.accepted.length, hs.currentEpoch, fun d => ⟨?_, ?_⟩⟩
  · rw [hn, Nat.cast_succ]
    exact hs.accepted hlast d
  · have hpushed := hquiet.2 d
    rcases hs.held d with ⟨-, hzero⟩ | ⟨key', epoch, hheld, hkey, ⟨heq, m, event', hm, hevent⟩ |
      ⟨hlt, hle | ⟨-, i, state, key'', -, hphase⟩⟩⟩
    · rw [hpushed, hn] at hzero
      cases hzero
    · obtain rfl : m = n := Nat.succ.inj (hm.symm.trans (hpushed.trans hn))
      rw [hlast] at hevent
      obtain ⟨rfl, rfl⟩ := Prod.mk.inj (Option.some.inj hevent)
      rw [hheld.groupKey hkey, heq, hpushed]
    · rw [hpushed] at hlt
      exact absurd hle (not_le.2 hlt)
    · have hposted := hquiet.1 i
      rw [hphase] at hposted
      cases hposted

/-- While the clients are timely, they converge: when all states have been posted, and all
    accepted events pushed, every agent has the key and the epoch of the last one. -/
theorem group_key_converges (hC : C.Correct) (c : Clients C δ) (owner : ι → δ)
    {as : List (InitAct C F δ ι)}
    (h : ((system F c owner).restrict (Timely owner)).Run (start c) as s) (hquiet : s.Quiet) :
    s.Converged c :=
  (h.invariant (I := Inv c owner) (fun _ _ _ hs (ha : _ ∧ _) => inv_next hC hs ha.1 ha.2)
    inv_start).converged hquiet

/-! ## A client that is late -/

/-- What is not timely does harm: the agent held the key of the accepted event of the epoch,
    and now has the new key for it. -/
theorem create_late (hC : C.Correct) (hs : s.Inv c owner) {i : ι} {parentEpoch : ℤ}
    (hphase : s.phase i = .read parentEpoch) {draws : GroupDraws C}
    (hlate : ¬s.Timely owner (.create i draws))
    (h : s.next c owner (.create i draws) = some s') (hcreated : (s'.phase i).isCreated) :
    (∃ (n : ℕ) (event : Dict F) (key : Bytes), parentEpoch = n ∧
      s.accepted[n]? = some (event, key) ∧
      (s.agent (owner i)).groupKey general = .ok (key, parentEpoch + 1)) ∧
    (s'.agent (owner i)).groupKey general = .ok (draws.key, parentEpoch + 1) := by
  rw [Timely, hphase, not_not] at hlate
  obtain ⟨hpushed, hepoch⟩ := hlate
  constructor
  · rcases hs.held (owner i) with ⟨-, hzero⟩ | ⟨key, epoch, hheld, hkey, hcases⟩
    · have hfine := hs.phase i
      rw [hphase] at hfine
      rw [hzero] at hpushed
      exact absurd hpushed.symm (Int.lt_add_one_of_le hfine.1).ne'
    · have hgroupKey := hheld.groupKey hkey
      rw [CryptoAgent.heldEpoch, hgroupKey] at hepoch
      obtain rfl := Option.some.inj hepoch
      rcases hcases with ⟨-, n, event, hn, hevent⟩ | ⟨hlt, -⟩
      · refine ⟨n, event, key, ?_, hevent, hgroupKey⟩
        rw [hn, Nat.cast_succ] at hpushed
        exact (add_right_cancel hpushed).symm
      · exact absurd hpushed hlt.ne
  · rw [next, create, hphase] at h
    rcases (s.agent (owner i)).createGroupState_cases draws c.members (parentEpoch + 1)
      (c.tag (owner i)) general with ⟨e, hcreate⟩ | ⟨state, a, hmake, hinstall, hcreate⟩
    · simp only [hcreate] at h
      obtain rfl := Option.some.inj h
      simp only [Function.update_self] at hcreated
      cases hcreated
    · simp only [hcreate] at h
      obtain rfl := Option.some.inj h
      have hopen := c.opens hC hmake (owner i)
      rw [← hs.identity (owner i)] at hopen
      simp only [Function.update_self]
      exact (CryptoAgent.holds_of_installGroupState hopen hinstall).1.groupKey draws.length_key

/-- Two clients, each with one call. -/
def plainClients : Clients plainCrypto Bool where
  identity
    | true => plainDevice
    | false => ⟨(7 : UInt8), (8 : UInt8)⟩
  tag
    | true => .ofString "dev-a"
    | false => .ofString "dev-b"
  directory := [⟨.ofString "dev-a", b64Str (List.replicate 32 6)⟩,
    ⟨.ofString "dev-b", b64Str (List.replicate 32 8)⟩]
  nodup := by decide
  mem
    | true => .head _
    | false => .tail _ (.head _)

/-- What a client draws, with a key of one byte repeated. -/
def plainDraws (x : UInt8) : GroupDraws plainCrypto where
  key := List.replicate 32 x
  length_key := List.length_replicate
  ephemeral _ := (9 : UInt8)
  nonce _ := List.replicate 12 1

/-- Both clients create a state before one is accepted. -/
def raceWon : List (InitAct plainCrypto (List Char) Bool Bool) :=
  [.read true, .read false, .create true (plainDraws 1), .create false (plainDraws 2),
    .post true [] fun _ => .ok (), .post false [] fun _ => .ok (), .push true, .push false]

/-- Then the state that is accepted replaces the one of the other client. -/
theorem group_key_converges_race : ∃ s : GroupInit plainCrypto (List Char) Bool Bool,
    ((system (List Char) plainClients id).restrict (Timely id)).Run (start plainClients)
      raceWon s ∧ ∀ d, (s.agent d).groupKey general = .ok (List.replicate 32 1, 1) := by
  have hrun : (raceWon.foldlM (System.guarded (next plainClients id) (Timely id))
      (start plainClients)).any (fun s => decide (s.Quiet ∧
        s.accepted.map Prod.snd = [List.replicate 32 1] ∧ currentEpoch s.latest = .ok 1)) =
          true := by
    decide +kernel
  obtain ⟨s, hs, hfacts⟩ := (Option.any_eq_true _ _).1 hrun
  obtain ⟨hquiet, hkeys, hepoch⟩ := of_decide_eq_true hfacts
  have hsteps : ((system (List Char) plainClients id).restrict (Timely id)).Run
      (start plainClients) raceWon s := .ofPartial_foldlM hs
  obtain ⟨⟨event, key⟩, haccepted, hkey⟩ := List.map_eq_singleton_iff.1 hkeys
  obtain rfl : key = List.replicate 32 1 := hkey
  obtain ⟨epoch, hepoch', hall⟩ := group_key_converges plainCrypto_correct plainClients id hsteps
    hquiet event _ (by rw [haccepted]; rfl)
  obtain rfl := Except.ok.inj (hepoch.symm.trans hepoch')
  exact ⟨s, hsteps, fun d => (hall d).2⟩

/-- Both clients read that there is no event, and the first one posts a state, which is
    pushed to both. -/
def raceLost : List (InitAct plainCrypto (List Char) Bool Bool) :=
  [.read true, .read false, .create true (plainDraws 1), .post true [] fun _ => .ok (), .push true,
    .push false, .create false (plainDraws 2), .post false [] fun _ => .ok ()]

/-- The second client then replaces the state of the first epoch, which is accepted, by its
    own, which is rejected. -/
theorem group_key_diverges : ∃ s : GroupInit plainCrypto (List Char) Bool Bool,
    (system (List Char) plainClients id).Run (start plainClients) raceLost s ∧ s.Quiet ∧
      ¬ s.Converged plainClients := by
  have hrun : (raceLost.foldlM (next plainClients id) (start plainClients)).any (fun s =>
      decide (s.Quiet ∧ s.accepted.map Prod.snd = [List.replicate 32 1] ∧
        (s.agent false).groupKey general = .ok (List.replicate 32 2, 1))) = true := by
    decide +kernel
  obtain ⟨s, hs, hfacts⟩ := (Option.any_eq_true _ _).1 hrun
  obtain ⟨hquiet, hkeys, hheld⟩ := of_decide_eq_true hfacts
  refine ⟨s, .of_foldlM hs, hquiet, fun hconverged => ?_⟩
  obtain ⟨⟨event, key⟩, haccepted, hkey⟩ := List.map_eq_singleton_iff.1 hkeys
  obtain ⟨epoch, -, hall⟩ := hconverged event key (by rw [haccepted]; rfl)
  obtain rfl : key = List.replicate 32 1 := hkey
  have hsame := Except.ok.inj ((hall false).2.symm.trans hheld)
  exact absurd (Prod.mk.inj hsame).1 (by decide)

end GroupInit

end SecNet
