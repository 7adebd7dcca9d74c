import SecNet.Chat.JsonValue

/-!
# Group events

`POST /api/mls/events`: an event is accepted when it names as its parent the epoch of
the latest event, which is read again from that event at every request. Only an event of
kind `tree-group-state-v1` must carry the next epoch itself, and there is one latest
event for all groups.

* `checkMlsEvent_eq_ok`: what an accepted event says;
* `epoch_advances_iff`: every accepted event advances the epoch by one just when those of
  another kind carry the next epoch too;
* `groups_independent_iff`: what the server demands for a group does not depend on the
  requests for other groups just when the accepted ones of these change no epoch.
-/

namespace SecNet

variable {F : Type} [PyFloat F] [PyFloatInt F]

/-- A request to `POST /api/mls/events`, with what it finds when it is served. -/
structure MlsRequest (F : Type) where
  /-- What `_authenticated_tag` returns or raises. -/
  tag : Except Exn PyStr
  /-- What `request.json()` returns or raises. -/
  body : Except Exn (Json F)
  /-- The time. -/
  createdAt : F
  /-- What `publish` on a topic returns or raises. -/
  publish : String → Except Exn Unit

/-- The epoch of the latest event, as a request reads it. -/
def currentEpoch : Option (Dict F) → Except Exn ℤ
  | none => .ok 0
  | some record => do
    -- `if self._latest_mls_event`: an empty record counts as none.
    if record.isEmpty then return 0
    let payload ← (record.getD "payload" (.obj [])).asDict
    pyInt (payload.getD "epoch" (.int 0))

/-- The body of a request and its event, where they have the right form. -/
def MlsRequest.event (request : MlsRequest F) : Except Exn (Dict F × Dict F) := do
  let body ← request.body
  match ← body.getItem "event" with
  | .obj event =>
    if 4000000 < (Json.dumpsSpaced (.obj event)).length then
      .error (.valueError "invalid MLS event")
    else do return (← body.asDict, event)
  | _ => .error (.valueError "invalid MLS event")

/-- `event_record`. -/
def eventRecord (tag : PyStr) (body event : Dict F) (createdAt : F) : Dict F :=
  .ofList [("event", .ofString "mls_group_event"), ("sender_tag", .str tag),
    ("group_id", body.getD "group_id" (.ofString "general")),
    ("parent_epoch", body.get "parent_epoch"), ("payload", .obj event),
    ("created_at", .float createdAt)]

/-- The checks of the parent epoch and of the epoch of the event. -/
def checkEpochs (event : Dict F) (parentEpoch current : ℤ) : Except Exn Unit :=
  if parentEpoch ≠ current then
    .error (.valueError s!"stale MLS parent epoch; expected {current}")
  -- Events of another kind may carry any epoch.
  else if (event.get "kind").isStr "tree-group-state-v1" then do
    let epoch ← pyInt (event.getD "epoch" (.int (-1)))
    if epoch ≠ current + 1 then
      .error (.valueError "MLS group event must advance exactly one epoch")
    else .ok ()
  else .ok ()

/-- `publish_mls_event`, up to its first `publish`: the record of the event, if it is
    accepted. -/
def checkMlsEvent (latest : Option (Dict F)) (request : MlsRequest F) : Except Exn (Dict F) := do
  let tag ← request.tag
  let parts ← request.event
  let parentEpoch ← pyInt (parts.1.getD "parent_epoch" (.int (-1)))
  let current ← currentEpoch latest
  checkEpochs parts.2 parentEpoch current
  return eventRecord tag parts.1 parts.2 request.createdAt

/-- `publish_mls_event`: the latest event afterwards, and what is answered. -/
def publishMlsEvent (latest : Option (Dict F)) (request : MlsRequest F) :
    Option (Dict F) × Except Exn Unit :=
  match checkMlsEvent latest request with
  | .error e => (latest, .error e)
  | .ok record =>
    match request.publish "mls-group-events" with
    | .error e => (latest, .error e)
    -- When the second publish raises, the event has been stored.
    | .ok () => (some record, request.publish "network-events")

/-- The request is accepted: its record is published. -/
def Accepted (latest : Option (Dict F)) (request : MlsRequest F) : Prop :=
  ∃ record, checkMlsEvent latest request = .ok record ∧
    request.publish "mls-group-events" = .ok ()

/-! ## What an accepted event says -/

omit [PyFloat F] in
theorem currentEpoch_eventRecord (tag : PyStr) (body event : Dict F) (createdAt : F) :
    currentEpoch (some (eventRecord tag body event createdAt)) =
      pyInt (event.getD "epoch" (.int 0)) := by
  have hpayload : (eventRecord tag body event createdAt).lookup (.ofString "payload") =
      some (.obj event) := lookup_ofList _ _
  have hempty : (eventRecord tag body event createdAt).isEmpty = false := by
    cases h : eventRecord tag body event createdAt with
    | nil => rw [h] at hpayload; cases hpayload
    | cons => rfl
  rw [currentEpoch, hempty, Dict.getD, hpayload]
  rfl

omit [PyFloatInt F] in
/-- The body is an object. -/
theorem MlsRequest.body_of_event {request : MlsRequest F} {body event : Dict F}
    (h : request.event = .ok (body, event)) : request.body = .ok (.obj body) := by
  obtain ⟨v, hbody, h⟩ := bind_eq_ok.1 h
  obtain ⟨item, -, h⟩ := bind_eq_ok.1 h
  split at h
  · split_ifs at h
    obtain ⟨d, hdict, hpair⟩ := bind_eq_ok.1 h
    obtain ⟨rfl, -⟩ := Prod.mk.inj (Except.ok.inj hpair)
    cases v with
    | obj ms => rw [hbody, Except.ok.inj hdict]
    | null | bool | int | float | str | arr => cases hdict
  · cases h

omit [PyFloat F] in
theorem checkEpochs_eq_ok {event : Dict F} {parentEpoch current : ℤ} :
    checkEpochs event parentEpoch current = .ok () ↔ parentEpoch = current ∧
      ((event.get "kind").isStr "tree-group-state-v1" →
        pyInt (event.getD "epoch" (.int (-1))) = .ok (current + 1)) := by
  rw [checkEpochs]
  by_cases hparent : parentEpoch = current
  · by_cases hkind : (event.get "kind").isStr "tree-group-state-v1"
    · rw [if_neg (not_not_intro hparent), if_pos hkind, bind_eq_ok]
      constructor
      · rintro ⟨epoch, hepoch, h⟩
        split_ifs at h with hnext
        exact ⟨hparent, fun _ => not_not.1 hnext ▸ hepoch⟩
      · rintro ⟨-, hepoch⟩
        exact ⟨current + 1, hepoch hkind, if_neg (not_not_intro rfl)⟩
    · rw [if_neg (not_not_intro hparent), if_neg hkind]
      exact ⟨fun _ => ⟨hparent, fun h => absurd h hkind⟩, fun _ => rfl⟩
  · rw [if_pos hparent]
    exact ⟨nofun, fun h => absurd h.1 hparent⟩

/-- An event is accepted when it names the current epoch as its parent and, if it is of
    kind `tree-group-state-v1`, carries the next one. -/
theorem checkMlsEvent_eq_ok {latest : Option (Dict F)} {request : MlsRequest F} {record : Dict F} :
    checkMlsEvent latest request = .ok record ↔
      ∃ tag body event e, request.tag = .ok tag ∧ request.event = .ok (body, event) ∧
        pyInt (body.getD "parent_epoch" (.int (-1))) = .ok e ∧ currentEpoch latest = .ok e ∧
        ((event.get "kind").isStr "tree-group-state-v1" →
          pyInt (event.getD "epoch" (.int (-1))) = .ok (e + 1)) ∧
        record = eventRecord tag body event request.createdAt := by
  constructor
  · intro h
    obtain ⟨tag, htag, h⟩ := bind_eq_ok.1 h
    obtain ⟨⟨body, event⟩, hevent, h⟩ := bind_eq_ok.1 h
    obtain ⟨e, hparent, h⟩ := bind_eq_ok.1 h
    obtain ⟨current, hcurrent, h⟩ := bind_eq_ok.1 h
    obtain ⟨⟨⟩, hcheck, hrecord⟩ := bind_eq_ok.1 h
    obtain ⟨rfl, hepoch⟩ := checkEpochs_eq_ok.1 hcheck
    exact ⟨tag, body, event, e, htag, hevent, hparent, hcurrent, hepoch,
      (Except.ok.inj hrecord).symm⟩
  · rintro ⟨tag, body, event, e, htag, hevent, hparent, hcurrent, hepoch, rfl⟩
    exact bind_eq_ok.2 ⟨tag, htag, bind_eq_ok.2 ⟨(body, event), hevent, bind_eq_ok.2 ⟨e, hparent,
      bind_eq_ok.2 ⟨e, hcurrent, bind_eq_ok.2 ⟨(), checkEpochs_eq_ok.2 ⟨rfl, hepoch⟩, rfl⟩⟩⟩⟩⟩

/-- The record of an accepted event becomes the latest one. -/
theorem Accepted.publishMlsEvent {latest : Option (Dict F)} {request : MlsRequest F}
    (h : Accepted latest request) : ∃ body event e, request.event = .ok (body, event) ∧
      pyInt (body.getD "parent_epoch" (.int (-1))) = .ok e ∧ currentEpoch latest = .ok e ∧
      ((event.get "kind").isStr "tree-group-state-v1" →
        pyInt (event.getD "epoch" (.int (-1))) = .ok (e + 1)) ∧
      currentEpoch (publishMlsEvent latest request).1 = pyInt (event.getD "epoch" (.int 0)) := by
  obtain ⟨record, hcheck, hpublish⟩ := h
  obtain ⟨tag, body, event, e, -, hevent, hparent, hcurrent, hepoch, rfl⟩ :=
    checkMlsEvent_eq_ok.1 hcheck
  refine ⟨body, event, e, hevent, hparent, hcurrent, hepoch, ?_⟩
  rw [SecNet.publishMlsEvent, hcheck]
  dsimp only
  rw [hpublish]
  exact currentEpoch_eventRecord tag body event request.createdAt

/-- After a request that is not accepted, the latest event is as before. -/
theorem publishMlsEvent_of_not_accepted {latest : Option (Dict F)} {request : MlsRequest F}
    (h : ¬Accepted latest request) : (publishMlsEvent latest request).1 = latest := by
  rw [publishMlsEvent]
  split
  · rfl
  · rename_i record hcheck
    split
    · rfl
    · rename_i hpublish
      exact absurd ⟨record, hcheck, hpublish⟩ h

/-! ## Whether every accepted event advances the epoch -/

/-- The latest event after some requests, where the consumer keeps up: it applies to
    `_latest_mls_event` the record that is already there. -/
def latestAfter (requests : List (MlsRequest F)) : Option (Dict F) :=
  requests.foldl (fun latest request => (publishMlsEvent latest request).1) none

theorem latestAfter_concat (requests : List (MlsRequest F)) (request : MlsRequest F) :
    latestAfter (requests ++ [request]) =
      (publishMlsEvent (latestAfter requests) request).1 := by
  rw [latestAfter, List.foldl_append]
  rfl

/-- After each accepted request, the epoch is one more than before. -/
def EpochAdvances (requests : List (MlsRequest F)) : Prop :=
  ∀ before request, before ++ [request] <+: requests → Accepted (latestAfter before) request →
    ∃ e, currentEpoch (latestAfter before) = .ok e ∧
      currentEpoch (latestAfter (before ++ [request])) = .ok (e + 1)

/-- At no time are all events rejected from then on. -/
def NeverStuck (requests : List (MlsRequest F)) : Prop :=
  ∀ before, before <+: requests → ∃ request : MlsRequest F, Accepted (latestAfter before) request

/-- The event is of the kind that is checked, or its epoch is the one after the parent
    epoch of the request. -/
def MlsRequest.Advances (request : MlsRequest F) : Prop :=
  ∀ body event, request.event = .ok (body, event) →
    (event.get "kind").isStr "tree-group-state-v1" ∨
      ∃ e, pyInt (body.getD "parent_epoch" (.int (-1))) = .ok e ∧
        pyInt (event.getD "epoch" (.int 0)) = .ok (e + 1)

omit [PyFloat F] in
/-- An epoch that is there is read the same, whatever stands for one that is not. -/
theorem pyInt_getD_epoch {event : Dict F} {n : ℤ} (hn : n ≠ -1)
    (h : pyInt (event.getD "epoch" (.int (-1))) = .ok n) :
    pyInt (event.getD "epoch" (.int 0)) = .ok n := by
  rw [Dict.getD] at h ⊢
  rcases hlookup : event.lookup (.ofString "epoch") with _ | v
  · rw [hlookup] at h
    exact absurd (Except.ok.inj h).symm hn
  · rw [hlookup] at h ⊢
    exact h

/-- An accepted event that meets the condition advances an epoch that is not negative. -/
theorem Accepted.advances {latest : Option (Dict F)} {request : MlsRequest F} {e : ℤ}
    (h : Accepted latest request) (hadvances : request.Advances)
    (he : currentEpoch latest = .ok e) (h0 : 0 ≤ e) :
    currentEpoch (SecNet.publishMlsEvent latest request).1 = .ok (e + 1) := by
  obtain ⟨body, event, e', hevent, hparent, hcurrent, hepoch, hlatest⟩ := h.publishMlsEvent
  obtain rfl : e' = e := Except.ok.inj (hcurrent.symm.trans he)
  rw [hlatest]
  rcases hadvances body event hevent with hkind | ⟨e, hparent', hnext⟩
  · exact pyInt_getD_epoch (by omega) (hepoch hkind)
  · rw [hnext, Except.ok.inj (hparent'.symm.trans hparent)]

/-- While all accepted events meet the condition, the epoch is there, and not negative. -/
theorem currentEpoch_latestAfter {requests : List (MlsRequest F)}
    (h : ∀ before request, before ++ [request] <+: requests →
      Accepted (latestAfter before) request → request.Advances) :
    ∃ e, currentEpoch (latestAfter requests) = .ok e ∧ 0 ≤ e := by
  induction requests using List.reverseRecOn with
  | nil => exact ⟨0, rfl, le_refl 0⟩
  | append_singleton requests request ih =>
    obtain ⟨e, he, h0⟩ := ih fun before r hr => h before r (hr.trans (List.prefix_append _ _))
    rw [latestAfter_concat]
    by_cases haccepted : Accepted (latestAfter requests) request
    · have hadvances := h requests request (List.prefix_refl _) haccepted
      exact ⟨e + 1, haccepted.advances hadvances he h0, by omega⟩
    · rw [publishMlsEvent_of_not_accepted haccepted]
      exact ⟨e, he, h0⟩

/-- A request with an empty event, whose parent epoch is the current one. -/
def emptyRequest (e : ℤ) : MlsRequest F where
  tag := .ok []
  body := .ok (.obj (Dict.ofList [("event", .obj []), ("parent_epoch", .int e)]))
  createdAt := PyFloat.nan
  publish _ := .ok ()

theorem accepted_emptyRequest {latest : Option (Dict F)} {e : ℤ} (h : currentEpoch latest = .ok e) :
    Accepted latest (emptyRequest e) := by
  have hitem : List.lookup (PyStr.ofString "event")
      (Dict.ofList [("event", .obj []), ("parent_epoch", .int (F := F) e)]) = some (.obj []) :=
    lookup_ofList _ _
  have hparent : List.lookup (PyStr.ofString "parent_epoch")
      (Dict.ofList [("event", .obj []), ("parent_epoch", .int (F := F) e)]) = some (.int e) :=
    lookup_ofList _ _
  have hevent : (emptyRequest e : MlsRequest F).event = .ok
      (Dict.ofList [("event", .obj []), ("parent_epoch", .int e)], []) := by
    refine bind_eq_ok.2 ⟨_, rfl, bind_eq_ok.2 ⟨.obj [], ?_,
      if_neg (show ¬4000000 < 2 by decide)⟩⟩
    rw [Json.getItem, Dict.getItem, hitem]
  have hkind : ¬(Dict.get (F := F) [] "kind").isStr "tree-group-state-v1" = true :=
    Bool.false_ne_true
  refine ⟨_, checkMlsEvent_eq_ok.2 ⟨[], _, [], e, rfl, hevent, ?_, h,
    fun h => absurd h hkind, rfl⟩, rfl⟩
  rw [Dict.getD, hparent]
  rfl

/-- Every accepted event advances the epoch by one, and none leaves the group stuck,
    just when the accepted events that are of no checked kind carry the epoch after their
    parent epoch. -/
theorem epoch_advances_iff (requests : List (MlsRequest F)) :
    EpochAdvances requests ∧ NeverStuck requests ↔
      ∀ before request, before ++ [request] <+: requests →
        Accepted (latestAfter before) request → request.Advances := by
  constructor
  · rintro ⟨hadvances, -⟩ before request hbefore haccepted body event hevent
    obtain ⟨e, he, he'⟩ := hadvances before request hbefore haccepted
    obtain ⟨body', event', e', hevent', hparent, hcurrent, -, hlatest⟩ := haccepted.publishMlsEvent
    obtain ⟨rfl, rfl⟩ := Prod.mk.inj (Except.ok.inj (hevent.symm.trans hevent'))
    obtain rfl : e' = e := Except.ok.inj (hcurrent.symm.trans he)
    rw [latestAfter_concat, hlatest] at he'
    exact .inr ⟨e', hparent, he'⟩
  · intro h
    have hbefore (before : List (MlsRequest F)) (hbefore : before <+: requests) :=
      currentEpoch_latestAfter fun before' request hr => h before' request (hr.trans hbefore)
    refine ⟨fun before request hr haccepted => ?_, fun before hr => ?_⟩
    · obtain ⟨e, he, h0⟩ := hbefore before ((List.prefix_append _ _).trans hr)
      refine ⟨e, he, ?_⟩
      rw [latestAfter_concat]
      exact haccepted.advances (h before request hr haccepted) he h0
    · obtain ⟨e, he, -⟩ := hbefore before hr
      exact ⟨emptyRequest e, accepted_emptyRequest he⟩

/-- A request of a device for a group. -/
def mlsRequest (group : String) (parentEpoch : ℤ) (event : List (String × Json (List Char))) :
    MlsRequest (List Char) where
  tag := .ok (.ofString "alice")
  body := .ok (.obj (Dict.ofList [("group_id", .ofString group), ("parent_epoch", .int parentEpoch),
    ("event", .obj (Dict.ofList event))]))
  createdAt := []
  publish _ := .ok ()

/-- A request with a group state. -/
def stateRequest (group : String) (parentEpoch epoch : ℤ) : MlsRequest (List Char) :=
  mlsRequest group parentEpoch [("kind", .ofString "tree-group-state-v1"), ("epoch", .int epoch)]

/-- An event without an epoch resets it to zero; after an event whose epoch is not a
    number, every event is rejected. -/
theorem epoch_reset_and_stuck :
    ¬EpochAdvances [stateRequest "general" 0 1, mlsRequest "general" 1 []] ∧
      ¬NeverStuck [mlsRequest "general" 0 [("epoch", .ofString "next")]] := by
  constructor
  · intro h
    obtain ⟨e, he, he'⟩ := h [stateRequest "general" 0 1] _ (List.prefix_refl _) ⟨_, rfl, rfl⟩
    have hbefore : currentEpoch (latestAfter [stateRequest "general" 0 1]) = .ok 1 := by decide
    have hafter : currentEpoch
        (latestAfter [stateRequest "general" 0 1, mlsRequest "general" 1 []]) = .ok 0 := by decide
    obtain rfl := Except.ok.inj (hbefore.symm.trans he)
    cases Except.ok.inj (hafter.symm.trans he')
  · intro h
    obtain ⟨request, record, hcheck, -⟩ := h _ (List.prefix_refl _)
    obtain ⟨-, -, -, e, -, -, -, hcurrent, -⟩ := checkMlsEvent_eq_ok.1 hcheck
    have hstuck :
        currentEpoch (latestAfter [mlsRequest "general" 0 [("epoch", .ofString "next")]]) =
          .error (.valueError "invalid literal for int() with base 10") := by decide
    rw [hstuck] at hcurrent
    cases hcurrent

/-! ## Whether the groups are independent -/

/-- The request is for the group. -/
def MlsRequest.isFor (group : PyStr) (request : MlsRequest F) : Bool :=
  match request.body with
  | .ok (.obj body) =>
    match Dict.getD body "group_id" (.ofString "general") with
    | .str s => s = group
    | _ => false
  | _ => false

/-- The epoch of the event is the parent epoch of the request. -/
def MlsRequest.KeepsEpoch (request : MlsRequest F) : Prop :=
  ∀ body event, request.event = .ok (body, event) →
    ∃ e, pyInt (body.getD "parent_epoch" (.int (-1))) = .ok e ∧
      pyInt (event.getD "epoch" (.int 0)) = .ok e

/-- The accepted requests for other groups keep the epoch. -/
def OthersKeepEpoch (group : PyStr) (requests : List (MlsRequest F)) : Prop :=
  ∀ before request, before ++ [request] <+: requests → ¬request.isFor group →
    Accepted (latestAfter before) request → request.KeepsEpoch

/-- After the same requests for the group, the same epoch is demanded, and the same
    requests for the group are accepted. -/
def Independent (group : PyStr) (requests requests' : List (MlsRequest F)) : Prop :=
  ∀ before before', before <+: requests → before' <+: requests' →
    before.filter (·.isFor group) = before'.filter (·.isFor group) →
    currentEpoch (latestAfter before) = currentEpoch (latestAfter before') ∧
      ∀ request : MlsRequest F, request.isFor group →
        (Accepted (latestAfter before) request ↔ Accepted (latestAfter before') request)

/-- Of the latest event, only the epoch matters. -/
theorem accepted_congr {latest latest' : Option (Dict F)}
    (h : currentEpoch latest = currentEpoch latest') (request : MlsRequest F) :
    Accepted latest request ↔ Accepted latest' request := by
  simp only [Accepted, checkMlsEvent, h]

theorem currentEpoch_congr {latest latest' : Option (Dict F)}
    (h : currentEpoch latest = currentEpoch latest') (request : MlsRequest F) :
    currentEpoch (publishMlsEvent latest request).1 =
      currentEpoch (publishMlsEvent latest' request).1 := by
  by_cases haccepted : Accepted latest request
  · obtain ⟨body, event, -, hevent, -, -, -, hlatest⟩ := haccepted.publishMlsEvent
    obtain ⟨body', event', -, hevent', -, -, -, hlatest'⟩ :=
      ((accepted_congr h request).1 haccepted).publishMlsEvent
    obtain ⟨-, rfl⟩ := Prod.mk.inj (Except.ok.inj (hevent.symm.trans hevent'))
    rw [hlatest, hlatest']
  · rw [publishMlsEvent_of_not_accepted haccepted,
      publishMlsEvent_of_not_accepted (mt (accepted_congr h request).2 haccepted), h]

/-- While the others keep the epoch, it is what the requests for the group make it. -/
theorem OthersKeepEpoch.currentEpoch_latestAfter {group : PyStr} {requests : List (MlsRequest F)}
    (h : OthersKeepEpoch group requests) :
    currentEpoch (latestAfter requests) =
      currentEpoch (latestAfter (requests.filter (·.isFor group))) := by
  induction requests using List.reverseRecOn with
  | nil => rfl
  | append_singleton requests request ih =>
    have hih := ih fun before r hr => h before r (hr.trans (List.prefix_append _ _))
    rw [List.filter_append, latestAfter_concat]
    by_cases hgroup : request.isFor group
    · rw [List.filter_cons_of_pos hgroup, List.filter_nil, latestAfter_concat]
      exact currentEpoch_congr hih request
    · rw [List.filter_cons_of_neg hgroup, List.filter_nil, List.append_nil, ← hih]
      by_cases haccepted : Accepted (latestAfter requests) request
      · obtain ⟨body, event, e, hevent, hparent, hcurrent, -, hlatest⟩ := haccepted.publishMlsEvent
        obtain ⟨e', hparent', hepoch⟩ :=
          h requests request (List.prefix_refl _) hgroup haccepted body event hevent
        rw [hlatest, hepoch, hcurrent, Except.ok.inj (hparent'.symm.trans hparent)]
      · rw [publishMlsEvent_of_not_accepted haccepted]

theorem Independent.symm {group : PyStr} {requests requests' : List (MlsRequest F)}
    (h : Independent group requests requests') : Independent group requests' requests := by
  intro before before' hr hr' hsame
  obtain ⟨hepoch, haccepted⟩ := h before' before hr' hr hsame.symm
  exact ⟨hepoch.symm, fun request hgroup => (haccepted request hgroup).symm⟩

/-- When the groups are independent, a request for another group makes no difference to
    the epoch: the other run has a time with the same requests for the group, which is
    compared with the times before and after the request. -/
theorem Independent.othersKeepEpoch {group : PyStr} {requests requests' : List (MlsRequest F)}
    (hsame : requests.filter (·.isFor group) = requests'.filter (·.isFor group))
    (h : Independent group requests requests') : OthersKeepEpoch group requests := by
  intro before request hr hgroup haccepted body event hevent
  have hfilter : before.filter (·.isFor group) <+: requests'.filter (·.isFor group) := by
    rw [← hsame]
    exact ((List.prefix_append _ _).trans hr).filter _
  obtain ⟨before', hbefore', hsame'⟩ := List.prefix_filter_iff.1 hfilter
  have hconcat : (before ++ [request]).filter (·.isFor group) = before'.filter (·.isFor group) := by
    rw [List.filter_append, List.filter_cons_of_neg hgroup, List.filter_nil, List.append_nil,
      hsame']
  have hkeep := (h before before' ((List.prefix_append _ _).trans hr) hbefore' hsame').1.trans
    (h _ before' hr hbefore' hconcat).1.symm
  obtain ⟨body', event', e, hevent', hparent, hcurrent, -, hlatest⟩ := haccepted.publishMlsEvent
  obtain ⟨rfl, rfl⟩ := Prod.mk.inj (Except.ok.inj (hevent.symm.trans hevent'))
  rw [hcurrent, latestAfter_concat, hlatest] at hkeep
  exact ⟨e, hparent, hkeep.symm⟩

theorem OthersKeepEpoch.of_prefix {group : PyStr} {requests before : List (MlsRequest F)}
    (h : OthersKeepEpoch group requests) (hr : before <+: requests) :
    OthersKeepEpoch group before := fun b request hb => h b request (hb.trans hr)

/-- The epochs of a group do not depend on the requests for other groups just when the
    accepted ones of these keep the epoch. -/
theorem groups_independent_iff (group : PyStr) (requests requests' : List (MlsRequest F))
    (hsame : requests.filter (·.isFor group) = requests'.filter (·.isFor group)) :
    Independent group requests requests' ↔
      OthersKeepEpoch group requests ∧ OthersKeepEpoch group requests' := by
  constructor
  · intro h
    exact ⟨h.othersKeepEpoch hsame, h.symm.othersKeepEpoch hsame.symm⟩
  · rintro ⟨h, h'⟩ before before' hr hr' hsame'
    have hepoch : currentEpoch (latestAfter before) = currentEpoch (latestAfter before') := by
      rw [(h.of_prefix hr).currentEpoch_latestAfter, (h'.of_prefix hr').currentEpoch_latestAfter,
        hsame']
    exact ⟨hepoch, fun request _ => accepted_congr hepoch request⟩

/-- A state for the first epoch is rejected once that has been reached. -/
theorem not_accepted_stale {latest : Option (Dict (List Char))}
    (hlatest : currentEpoch latest = .ok 1) (group : String) :
    ¬Accepted latest (stateRequest group 0 1) := by
  rintro ⟨record, hcheck, -⟩
  obtain ⟨tag, body, event, e, -, hevent, hparent, hcurrent, -⟩ := checkMlsEvent_eq_ok.1 hcheck
  obtain rfl := Json.obj.inj (Except.ok.inj (MlsRequest.body_of_event hevent))
  rw [Dict.getD, lookup_ofList, ← hlatest.symm.trans hcurrent] at hparent
  cases hparent

/-- A request for one group makes the server reject a request for another one. -/
theorem group_blocked :
    let other := stateRequest "one" 0 1
    let request := stateRequest "two" 0 1
    [other, request].filter (·.isFor (.ofString "two")) =
        [request].filter (·.isFor (.ofString "two")) ∧
      Accepted (latestAfter []) request ∧ ¬Accepted (latestAfter [other]) request :=
  ⟨rfl, ⟨_, rfl, rfl⟩, not_accepted_stale (by decide) "two"⟩

/-- A request for another group that is rejected changes nothing. -/
theorem groups_independent_stale :
    Independent (.ofString "two") [stateRequest "two" 0 1, stateRequest "one" 0 1]
      [stateRequest "two" 0 1] := by
  have hsame : [stateRequest "two" 0 1, stateRequest "one" 0 1].filter
      (·.isFor (.ofString "two")) =
        [stateRequest "two" 0 1].filter (·.isFor (.ofString "two")) := rfl
  refine (groups_independent_iff _ _ _ hsame).2 ⟨?_, ?_⟩
  · rintro (_ | ⟨r, _ | ⟨r', before⟩⟩) request ⟨rest, hrest⟩ hgroup haccepted
    · obtain ⟨rfl, -⟩ := List.cons.inj hrest
      exact absurd rfl hgroup
    · obtain ⟨rfl, -⟩ := List.cons.inj (List.cons.inj hrest).2
      obtain rfl := (List.cons.inj hrest).1
      exact absurd haccepted (not_accepted_stale (by decide) "one")
    · simp at hrest
  · rintro (_ | ⟨r, before⟩) request ⟨rest, hrest⟩ hgroup -
    · obtain ⟨rfl, -⟩ := List.cons.inj hrest
      exact absurd rfl hgroup
    · simp at hrest

end SecNet
