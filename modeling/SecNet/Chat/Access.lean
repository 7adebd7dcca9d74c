import SecNet.Chat.Topics

/-!
# What the chat service tells a device

The service hands out what it has consumed from its topics. What is in the topics, it has published
for requests that were authenticated; so what a device is told can be followed back to the requests
that others have made, and to the group that let both of them in.

* `Sent`: the records that the requests of a run have made, with the tags of their senders;
* `Sound`: the topics have no other records;
* `reads_entitled`: a device reads private messages that were sent to it, and messages of groups of
  which it is a member, sent by members;
* `pushes_entitled`: the same is pushed to the websockets that it has opened, and to no others;
* `unacknowledged_kept`: a private message stays until the device to which it was sent has
  acknowledged it.
-/

namespace SecNet

variable {F W : Type} [PyFloat F] [PyFloatInt F] [PyRepr F]

/-- The records that requests have made, with the tags of their senders. -/
inductive Sent (as : List (ClusterAct W F)) : String → ChatTopic → Dict F → Prop
  | general {request : ChatRequest F} {uuid_ne : request.uuid ≠ ""} {sender : String}
    {message : Dict F} : .post (.route .general) request uuid_ne ∈ as →
    checkGeneral request = .ok (sender, message) → Sent as sender .general message
  | privateMessage {request : ChatRequest F} {uuid_ne : request.uuid ≠ ""}
    {m : PrivateMessage F} : .post (.route .privateMessage) request uuid_ne ∈ as →
    checkPrivate request = .ok m → Sent as m.sender .privateMessages m.message
  | group {request : ChatRequest F} {uuid_ne : request.uuid ≠ ""} {g : NewGroup F} :
    .post (.route .createGroup) request uuid_ne ∈ as → checkGroup request = .ok g →
    Sent as g.admin .groupDirectory (g.record request)
  /-- The sender is a member of the group that has been created. -/
  | groupMessage {s : ChatState W F} {groupId admin sender : String} {group message : Dict F}
    {request : ChatRequest F} {uuid_ne : request.uuid ≠ ""} :
    .post (.groupMessage groupId) request uuid_ne ∈ as → request.tag = .ok sender →
    checkGroupMessage s groupId request = .ok message → Sent as admin .groupDirectory group →
    group.get "group_id" = .ofString groupId → sender ∈ memberTags group →
    Sent as sender .groups message
  | mlsEvent {latest : Option (Dict F)} {request : ChatRequest F} {uuid_ne : request.uuid ≠ ""}
    {sender : String} {record : Dict F} : .post (.route .mlsEvents) request uuid_ne ∈ as →
    checkMls latest request = .ok (sender, record) → Sent as sender .mlsEvents record

/-- A device has acknowledged a message. -/
inductive Acknowledged (as : List (ClusterAct W F)) : String × String → Prop
  | route {request : ChatRequest F} {uuid_ne : request.uuid ≠ ""} {k : String × String} :
    .post (.route .ack) request uuid_ne ∈ as → checkAck request = .ok k → Acknowledged as k
  | websocket {messageId tag : String} {request : ChatRequest F} {uuid_ne : request.uuid ≠ ""} :
    .post (.websocketAck (.ofString messageId)) request uuid_ne ∈ as → request.tag = .ok tag →
    Acknowledged as (tag, messageId)

/-- A record of a topic that the requests have made. -/
def Legitimate (as : List (ClusterAct W F)) (topic : ChatTopic) (value : Dict F) : Prop :=
  if topic = .delivery then ∀ k, deliveredPair value = some k → Acknowledged as k
  else ∃ sender, Sent as sender topic value

/-- The topics have the records of the requests, and no others, and the websockets have been
    opened by those that have their tags. -/
structure Sound (as : List (ClusterAct W F)) (s : ChatState W F) : Prop where
  legitimate : ∀ topic, ∀ value ∈ s.values topic, Legitimate as topic value
  connected : ∀ tag w, w ∈ s.websockets.sockets tag → .connect tag w ∈ as

section

variable {as bs : List (ClusterAct W F)} {sender : String} {topic : ChatTopic} {value : Dict F}
  {s : ChatState W F} {request : ChatRequest F}

/-- More requests have made no fewer records. -/
theorem Sent.mono (hsub : as ⊆ bs) (h : Sent as sender topic value) :
    Sent bs sender topic value := by
  induction h with
  | general hact hchecked => exact .general (hsub hact) hchecked
  | privateMessage hact hchecked => exact .privateMessage (hsub hact) hchecked
  | group hact hchecked => exact .group (hsub hact) hchecked
  | groupMessage hact htag hchecked _ hid hmem ih =>
    exact .groupMessage (hsub hact) htag hchecked ih hid hmem
  | mlsEvent hact hchecked => exact .mlsEvent (hsub hact) hchecked

omit [PyFloat F] [PyFloatInt F] in
theorem Acknowledged.mono {k : String × String} (hsub : as ⊆ bs) (h : Acknowledged as k) :
    Acknowledged bs k := by
  cases h with
  | route hact hchecked => exact .route (hsub hact) hchecked
  | websocket hact htag => exact .websocket (hsub hact) htag

theorem Legitimate.mono (hsub : as ⊆ bs) (h : Legitimate as topic value) :
    Legitimate bs topic value := by
  rw [Legitimate] at h ⊢
  split_ifs with htopic
  · rw [if_pos htopic] at h
    exact fun k hk => (h k hk).mono hsub
  · rw [if_neg htopic] at h
    exact h.imp fun _ hsent => hsent.mono hsub

theorem Sound.mono (hsub : as ⊆ bs) (h : Sound as s) : Sound bs s where
  legitimate topic value hvalue := (h.legitimate topic value hvalue).mono hsub
  connected tag w hw := hsub (h.connected tag w hw)

/-! ## What a request appends -/

omit [PyFloat F] [PyFloatInt F] [PyRepr F] in
/-- What is appended to the topics meets a condition. -/
structure Grows (P : ChatTopic → Dict F → Prop) (s s' : ChatState W F) : Prop where
  websockets : s'.websockets = s.websockets
  values : ∀ topic, ∀ value ∈ s'.values topic, value ∈ s.values topic ∨ P topic value

variable {P : ChatTopic → Dict F → Prop} {p : Plan Exn (ChatState W F)}

omit [PyFloat F] [PyFloatInt F] [PyRepr F] in
theorem Grows.refl (P : ChatTopic → Dict F → Prop) (s : ChatState W F) : Grows P s s :=
  ⟨rfl, fun _ _ => .inl⟩

omit [PyFloat F] [PyFloatInt F] [PyRepr F] in
theorem Grows.trans {s s' s'' : ChatState W F} (h : Grows P s s') (h' : Grows P s' s'') :
    Grows P s s'' where
  websockets := h'.websockets.trans h.websockets
  values topic value hvalue := (h'.values topic value hvalue).elim (h.values topic value) .inr

omit [PyFloat F] [PyFloatInt F] [PyRepr F] in
theorem grows_append {name key : String} (h : ∀ topic, ChatTopic.name topic = name →
    P topic value) (s : ChatState W F) : Grows P s (s.append name key value) where
  websockets := rfl
  values topic v hv := by
    rw [values_append, List.mem_append] at hv
    refine hv.imp_right fun hv => ?_
    split_ifs at hv with hname
    · rw [List.mem_singleton.1 hv]
      exact h topic hname
    · cases hv

omit [PyFloat F] [PyFloatInt F] [PyRepr F] in
/-- A record that is published to a topic of the service. -/
theorem grows_topic {t : ChatTopic} {key : String} (h : P t value) (s : ChatState W F) :
    Grows P s ((request.publishStep t.name key value).effect s) :=
  grows_append (fun _ hname => ChatTopic.name_injective hname ▸ h) s

omit [PyFloat F] [PyFloatInt F] [PyRepr F] in
/-- A record of a topic that the service does not consume. -/
theorem grows_other {name key : String} (hname : ∀ topic, ChatTopic.name topic ≠ name)
    (s : ChatState W F) : Grows P s ((request.publishStep name key value).effect s) :=
  grows_append (fun topic h => absurd h (hname topic)) s

omit [PyFloat F] [PyFloatInt F] [PyRepr F] in
theorem grows_handle {α β : Type} {checked : Except Exn α} {plan : α → Plan Exn (ChatState W F)}
    {answer : α → β} (h : ∀ a, checked = .ok a → ∀ x ∈ plan a, ∀ s, Grows P s (x.effect s)) :
    Grows P s (Plan.handle checked plan answer s).1 := by
  rcases hchecked : checked with e | a
  · rw [Plan.handle_of_error rfl]
    exact .refl P s
  · rw [Plan.handle_of_ok rfl]
    exact Plan.run_invariant (I := Grows P s)
      (fun x hx t ht => ht.trans (h a hchecked x hx t)) (.refl P s)

theorem name_ne_networkEvents (topic : ChatTopic) : topic.name ≠ "network-events" := by
  cases topic <;> decide

theorem legitimate_of_sent (htopic : topic ≠ .delivery) (h : Sent as sender topic value) :
    Legitimate as topic value := by
  rw [Legitimate, if_neg htopic]
  exact ⟨sender, h⟩

theorem legitimate_delivery (h : ∀ k, deliveredPair value = some k → Acknowledged as k) :
    Legitimate as .delivery value := by
  rwa [Legitimate, if_pos rfl]

variable {uuid_ne : request.uuid ≠ ""}

theorem grows_general (hact : .post (.route .general) request uuid_ne ∈ as) :
    Grows (Legitimate as) s (publishGeneral request s).1 :=
  grows_handle fun m hchecked => by
    simp only [generalPlan, List.forall_mem_cons]
    exact ⟨grows_topic (t := .general) (legitimate_of_sent (by decide) (.general hact hchecked)),
      grows_other name_ne_networkEvents, List.forall_mem_nil _⟩

theorem grows_private (hact : .post (.route .privateMessage) request uuid_ne ∈ as) :
    Grows (Legitimate as) s (publishPrivate request s).1 :=
  grows_handle fun m hchecked => by
    simp only [privatePlan, List.forall_mem_cons]
    refine ⟨grows_topic (t := .privateMessages)
      (legitimate_of_sent (by decide) (.privateMessage hact hchecked)),
      grows_topic (t := .delivery) (legitimate_delivery fun k hk => ?_),
      grows_other name_ne_networkEvents, List.forall_mem_nil _⟩
    -- The record says that the message is pending.
    have hstate : ("pending" : String) = "delivered" :=
      Json.ofString_inj.1 ((Dict.get_ofList rfl).symm.trans (deliveredPair_eq_some.1 hk).1)
    exact absurd hstate (by decide)

theorem grows_createGroup (hact : .post (.route .createGroup) request uuid_ne ∈ as) :
    Grows (Legitimate as) s (createGroup request s).1 :=
  grows_handle fun g hchecked => by
    simp only [groupPlan, List.forall_mem_cons]
    exact ⟨grows_topic (t := .groupDirectory)
      (legitimate_of_sent (by decide) (.group hact hchecked)),
      fun s => ⟨rfl, fun _ _ => .inl⟩, grows_other name_ne_networkEvents, List.forall_mem_nil _⟩

theorem grows_mlsEvents (hact : .post (.route .mlsEvents) request uuid_ne ∈ as) :
    Grows (Legitimate as) s (handleMlsEvent request s).1 :=
  grows_handle fun m hchecked => by
    simp only [mlsPlan, List.forall_mem_cons]
    exact ⟨grows_topic (t := .mlsEvents)
      (legitimate_of_sent (by decide) (.mlsEvent hact hchecked)),
      fun s => ⟨rfl, fun _ _ => .inl⟩, grows_other name_ne_networkEvents, List.forall_mem_nil _⟩

/-- What a record of an acknowledgement says. -/
theorem legitimate_ack {tag : String} {messageId createdAt : Json F}
    (h : ∀ id, messageId = .ofString id → Acknowledged as (tag, id)) :
    Legitimate as .delivery (Dict.ofList [("state", .ofString "delivered"),
      ("recipient_tag", .ofString tag), ("message_id", messageId), ("created_at", createdAt)]) := by
  refine legitimate_delivery fun k hk => ?_
  obtain ⟨-, ⟨htag, -⟩, hid, -⟩ := deliveredPair_eq_some.1 hk
  obtain rfl : tag = k.1 := Json.ofString_inj.1 ((Dict.get_ofList rfl).symm.trans htag)
  exact h k.2 ((Dict.get_ofList rfl).symm.trans hid)

theorem grows_ack (hact : .post (.route .ack) request uuid_ne ∈ as) :
    Grows (Legitimate as) s (ack request s).1 :=
  grows_handle fun m hchecked => by
    simp only [ackPlan, List.forall_mem_cons]
    refine ⟨grows_topic (t := .delivery) (legitimate_ack fun id hid => ?_),
      fun s => ⟨rfl, fun _ _ => .inl⟩, List.forall_mem_nil _⟩
    obtain rfl := Json.ofString_inj.1 hid
    exact .route hact hchecked

theorem grows_websocketAck {messageId : Json F}
    (hact : .post (.websocketAck messageId) request uuid_ne ∈ as) :
    Grows (Legitimate as) s (websocketAck messageId request s).1 := by
  rw [websocketAck]
  split_ifs
  swap
  · exact .refl _ s
  refine grows_handle fun m hchecked => ?_
  simp only [List.forall_mem_cons]
  refine ⟨grows_topic (t := .delivery) (legitimate_ack fun id hid => ?_), fun s => ?_,
    List.forall_mem_nil _⟩
  · simp only [checkWebsocketAck, bind_eq_ok] at hchecked
    obtain ⟨tag, htag, hchecked⟩ := hchecked
    split at hchecked
    · cases hchecked
    · obtain rfl := Except.ok.inj hchecked
      subst hid
      exact .websocket hact htag
  · unfold websocketAckStep
    dsimp only
    split
    · split
      · exact ⟨rfl, fun _ _ => .inl⟩
      · exact .refl _ s
    · exact .refl _ s

/-! ## Messages to groups -/

omit [PyFloat F] [PyFloatInt F] [PyRepr F] in
/-- The sender of a request is a member of its group. -/
theorem checkMember_eq_ok {tag groupId : String} {group : Dict F}
    (h : s.checkMember tag groupId = .ok group) :
    s.groups (.ofString groupId) = some group ∧
      pyIn tag (group.getD "members" (.arr [])) = .ok true := by
  rw [ChatState.checkMember] at h
  split at h
  · cases h
  · cases h
  · next group' _ hgroup =>
    obtain ⟨b, hb, h⟩ := bind_eq_ok.1 h
    cases b with
    | false => cases h
    | true =>
      obtain rfl := Except.ok.inj h
      exact ⟨hgroup, hb⟩

omit [PyFloat F] [PyFloatInt F] [PyRepr F] in
theorem pyIn_arr {tag : String} {tags : List String}
    (h : pyIn (F := F) tag (.arr (tags.map .ofString)) = .ok true) : tag ∈ tags := by
  obtain ⟨v, hv, hstr⟩ := List.any_eq_true.1 (Except.ok.inj h)
  obtain ⟨tag', htag', rfl⟩ := List.mem_map.1 hv
  exact ofString_injective (of_decide_eq_true hstr) ▸ htag'

/-- The members of a group that has been created. -/
theorem Sent.members (h : Sent as sender .groupDirectory value) : "" ∉ memberTags value ∧
    value.getD "members" (.arr []) = .arr ((memberTags value).map .ofString) := by
  cases h with
  | @group request _ g _ hchecked =>
    obtain ⟨tags, hempty, htags⟩ := checkGroup_eq_ok hchecked
    have hmembers : (g.record request).getD "members" (.arr []) = .arr (tags.map .ofString) :=
      htags ▸ Dict.getD_ofList rfl
    have hmemberTags : memberTags (g.record request) = tags := by
      rw [memberTags, hmembers]
      dsimp only
      rw [List.filterMap_map]
      exact (List.filterMap_congr fun tag _ => PyStr.toText_ofString tag).trans
        List.filterMap_some
    rw [hmemberTags]
    exact ⟨hempty, hmembers⟩

variable {position : ChatTopic → ℕ}

theorem Sound.sent (h : Sound as s) (hvalue : value ∈ s.values topic) (htopic : topic ≠ .delivery) :
    ∃ sender, Sent as sender topic value := by
  have hlegitimate := h.legitimate topic value hvalue
  rwa [Legitimate, if_neg htopic] at hlegitimate

/-- A member of a group that the service knows is a member of the group that has been created. -/
theorem Sound.group (h : Sound as s) (hc : Consistent s position) {tag groupId : String}
    {group : Dict F} (hmember : s.checkMember tag groupId = .ok group) :
    ∃ admin, Sent as admin .groupDirectory group ∧ group.get "group_id" = .ofString groupId ∧
      tag ∈ memberTags group := by
  obtain ⟨hgroup, htag⟩ := checkMember_eq_ok hmember
  obtain ⟨value, hvalue, hkey, hid⟩ := Replica.mem (hc .groupDirectory) hgroup
  obtain rfl : value = group := hid
  obtain ⟨admin, hsent⟩ := h.sent hvalue (by decide)
  rw [hsent.members.2] at htag
  exact ⟨admin, hsent, (groupKey_eq_some.1 hkey).1, pyIn_arr htag⟩

theorem grows_groupMessage {groupId : String} (h : Sound as s) (hc : Consistent s position)
    (hact : .post (.groupMessage groupId) request uuid_ne ∈ as) :
    Grows (Legitimate as) s (publishGroupMessage groupId request s).1 :=
  grows_handle fun message hchecked => by
    have hsteps := hchecked
    simp only [checkGroupMessage, bind_eq_ok] at hsteps
    obtain ⟨sender, htag, group, hmember, -⟩ := hsteps
    obtain ⟨admin, hsent, hid, hmem⟩ := h.group hc hmember
    exact List.forall_mem_cons.2 ⟨grows_topic (t := .groups) (legitimate_of_sent (by decide)
      (.groupMessage hact htag hchecked hsent hid hmem)), List.forall_mem_nil _⟩

/-! ## Runs -/

omit [PyFloatInt F] [PyRepr F] in
theorem websockets_consume (s : ChatState W F) (value : Dict F) (topic : ChatTopic) :
    (s.consume value topic).1.websockets = s.websockets := by
  cases topic with
  | general => rw [ChatState.consume, ChatState.consumeGeneral]
  | groups => rw [ChatState.consume, groupHistory_consumeGroupMessage]
  | groupDirectory => rw [ChatState.consume, groups_consumeGroupDirectory]
  | privateMessages => rw [ChatState.consume, delivery_consumePrivate]
  | _ => rfl

theorem grows_post (h : Sound as s) (hc : Consistent s position) {post : ChatPost F}
    (hact : .post post request uuid_ne ∈ as) : Grows (Legitimate as) s (s.post request post) := by
  cases post with
  | route route =>
    cases route with
    | general => exact grows_general hact
    | privateMessage => exact grows_private hact
    | createGroup => exact grows_createGroup hact
    | mlsEvents => exact grows_mlsEvents hact
    | ack => exact grows_ack hact
  | groupMessage groupId => exact grows_groupMessage h hc hact
  | keyPackage =>
    refine grows_handle fun m _ => ?_
    simp only [List.forall_mem_cons]
    exact ⟨grows_other fun topic => by cases topic <;> decide,
      grows_other name_ne_networkEvents, List.forall_mem_nil _⟩
  | websocketAck messageId => exact grows_websocketAck hact

/-- What has been appended is legitimate too. -/
theorem Sound.grows {s' : ChatState W F} (h : Sound as s) (hgrows : Grows (Legitimate as) s s') :
    Sound as s' where
  legitimate topic value hvalue :=
    (hgrows.values topic value hvalue).elim (h.legitimate topic value) id
  connected := hgrows.websockets ▸ h.connected

end

section Runs

namespace Websockets

variable [DecidableEq W] {ws : Websockets W} {tag tag' : String} {w w' : W}

omit [PyFloat F] [PyFloatInt F] [PyRepr F] in
theorem mem_add (h : w' ∈ (ws.add tag w).sockets tag') :
    (tag' = tag ∧ w' = w) ∨ w' ∈ ws.sockets tag' := by
  simp only [add, Function.update_apply] at h
  split_ifs at h with htag
  · rw [htag]
    exact (Finset.mem_insert.1 h).imp_left fun hw => ⟨rfl, hw⟩
  · exact .inr h

omit [PyFloat F] [PyFloatInt F] [PyRepr F] in
theorem mem_remove (h : w' ∈ (ws.remove tag w).sockets tag') : w' ∈ ws.sockets tag' := by
  simp only [remove, Function.update_apply] at h
  split_ifs at h with htag
  · rw [htag]
    exact Finset.mem_of_mem_erase h
  · exact h

end Websockets

variable [DecidableEq W] {as : List (ClusterAct W F)} {s s' : ChatCluster W F}

/-- Every step keeps the topics as they should be. -/
theorem Sound.next {act : ClusterAct W F} (h : Sound as s.service)
    (hc : Consistent s.service s.position) (hnext : s.next act = some s') :
    Sound (as ++ [act]) s'.service := by
  have hmono : Sound (as ++ [act]) s.service := h.mono (List.subset_append_left as [act])
  have hact : act ∈ as ++ [act] := List.mem_append_right _ (List.mem_singleton_self act)
  cases act with
  | post post request uuid_ne =>
    obtain rfl := Option.some.inj hnext
    exact hmono.grows (grows_post hmono hc hact)
  | consume topic =>
    obtain ⟨value, hvalue, hnext⟩ := Option.bind_eq_some_iff.1 hnext
    obtain rfl := Option.some.inj hnext
    have hvalues := values_congr (records_consume s.service value topic)
    refine ⟨?_, ?_⟩
    · dsimp only
      rw [hvalues]
      exact hmono.legitimate
    · dsimp only
      rw [websockets_consume]
      exact hmono.connected
  | connect tag w =>
    obtain rfl := Option.some.inj hnext
    refine ⟨hmono.legitimate, fun tag' w' hw => ?_⟩
    rcases Websockets.mem_add hw with ⟨rfl, rfl⟩ | hw
    · exact hact
    · exact hmono.connected tag' w' hw
  | disconnect tag w =>
    obtain rfl := Option.some.inj hnext
    exact ⟨hmono.legitimate,
      fun tag' w' hw => hmono.connected tag' w' (Websockets.mem_remove hw)⟩
  | restart =>
    obtain rfl := Option.some.inj hnext
    exact ⟨hmono.legitimate, fun tag w hw => absurd hw (Finset.notMem_empty w)⟩

theorem Sound.of_run {s₀ : ChatCluster W F} (h₀ : (ChatCluster.system W F).init s₀)
    (hrun : (ChatCluster.system W F).Run s₀ as s) :
    Sound as s.service ∧ Consistent s.service s.position := by
  induction hrun with
  | nil =>
    obtain rfl := h₀
    exact ⟨⟨fun _ _ hvalue => absurd hvalue List.not_mem_nil,
      fun _ _ hw => absurd hw (Finset.notMem_empty _)⟩, consistent_new _⟩
  | snoc _ hnext ih => exact ⟨ih.1.next ih.2 hnext, ChatCluster.consistent_next hnext ih.2⟩

/-! ## What is read -/

/-- The id that a request draws, if it does. -/
def ClusterAct.drawnId : ClusterAct W F → Option String
  | .post (.route .general) request _ | .post (.route .privateMessage) request _
  | .post (.route .createGroup) request _ | .post (.groupMessage _) request _ => some request.uuid
  | _ => none

/-- No id is drawn twice. -/
def FreshIds (as : List (ClusterAct W F)) : Prop := (as.filterMap ClusterAct.drawnId).Nodup

omit [PyFloat F] [PyFloatInt F] [PyRepr F] [DecidableEq W] in
instance (as : List (ClusterAct W F)) : Decidable (FreshIds as) :=
  inferInstanceAs (Decidable (as.filterMap ClusterAct.drawnId).Nodup)

end Runs

section

variable {as : List (ClusterAct W F)} {s : ChatState W F} {position : ChatTopic → ℕ}

omit [PyFloat F] [PyFloatInt F] [PyRepr F] in
/-- An id has been drawn by one request. -/
theorem FreshIds.eq_of_drawnId (h : FreshIds as) {a b : ClusterAct W F} {id : String} (ha : a ∈ as)
    (hb : b ∈ as) (hid : a.drawnId = some id) (hid' : b.drawnId = some id) : a = b := by
  have hsymm : Std.Symm fun a a' : ClusterAct W F =>
      ∀ b, a.drawnId = some b → ∀ b', a'.drawnId = some b' → b ≠ b' :=
    ⟨fun a a' h b hb b' hb' => (h b' hb' b hb).symm⟩
  rw [FreshIds, List.Nodup, List.pairwise_filterMap] at h
  by_contra hne
  exact h.forall ha hb hne id hid id hid' rfl

/-- A group has one record. -/
theorem Sent.group_unique (hfresh : FreshIds as) {admin admin' : String} {group group' : Dict F}
    {groupId : PyStr} (h : Sent as admin .groupDirectory group)
    (h' : Sent as admin' .groupDirectory group') (hid : group.get "group_id" = .str groupId)
    (hid' : group'.get "group_id" = .str groupId) : group = group' := by
  cases h with
  | @group request uuid_ne g hact hchecked =>
  cases h' with
  | @group request' uuid_ne' g' hact' hchecked' =>
    have huuid : groupId = .ofString request.uuid :=
      Json.str.inj (hid.symm.trans (Dict.get_ofList rfl))
    have huuid' : groupId = .ofString request'.uuid :=
      Json.str.inj (hid'.symm.trans (Dict.get_ofList rfl))
    have hact_eq := hfresh.eq_of_drawnId hact hact' rfl
      (congrArg some (ofString_injective (huuid'.symm.trans huuid)))
    obtain ⟨-, rfl⟩ := ClusterAct.post.inj hact_eq
    rw [Except.ok.inj (hchecked.symm.trans hchecked')]

omit [PyFloatInt F] [PyRepr F] in
/-- What a message to a group says of its group and its sender. -/
theorem get_groupMessage {groupId sender : String} {request : ChatRequest F} {message : Dict F}
    (h : checkGroupMessage s groupId request = .ok message) (htag : request.tag = .ok sender) :
    message.get "group_id" = .ofString groupId ∧ message.get "sender_tag" = .ofString sender := by
  simp only [checkGroupMessage, htag, bind_eq_ok] at h
  obtain ⟨_, ⟨rfl⟩, group, -, body, -, envelope, -, ⟨⟩, -, h⟩ := h
  obtain rfl := Except.ok.inj h
  exact ⟨Dict.get_ofList rfl, Dict.get_ofList rfl⟩

omit [PyFloatInt F] in
/-- What a private message says of itself and its sender. -/
theorem get_privateMessage {request : ChatRequest F} {m : PrivateMessage F}
    (h : checkPrivate request = .ok m) : m.message.get "message_id" = .ofString request.uuid ∧
      m.message.get "sender_tag" = .ofString m.sender := by
  simp only [checkPrivate, bind_eq_ok] at h
  obtain ⟨tag, -, body, -, recipient, -, h⟩ := h
  split at h
  · cases h
  · simp only [bind_eq_ok] at h
    obtain ⟨⟨⟩, -, envelope, -, ⟨⟩, -, h⟩ := h
    obtain rfl := Except.ok.inj h
    exact ⟨Dict.get_ofList rfl, Dict.get_ofList rfl⟩

/-- The sender that a message shows is the one that has sent it. -/
theorem Sent.sender_tag {topic : ChatTopic} {sender : String} {value : Dict F}
    (h : Sent as sender topic value) (htopic : topic ≠ .groupDirectory) :
    value.get "sender_tag" = .ofString sender := by
  cases h with
  | general hact hchecked =>
    simp only [checkGeneral, bind_eq_ok] at hchecked
    obtain ⟨tag, -, body, -, envelope, -, ⟨⟩, -, d, -, h⟩ := hchecked
    obtain ⟨rfl, rfl⟩ := Prod.mk.inj (Except.ok.inj h)
    exact Dict.get_ofList rfl
  | privateMessage hact hchecked => exact (get_privateMessage hchecked).2
  | group => exact absurd rfl htopic
  | groupMessage hact htag hchecked => exact (get_groupMessage hchecked htag).2
  | mlsEvent hact hchecked =>
    simp only [checkMls, checkMlsEvent, ChatRequest.mls, bind_eq_ok] at hchecked
    obtain ⟨tag, htag, record, ⟨tag', htag', _, -, _, -, _, -, ⟨⟩, -, hrecord⟩, h⟩ := hchecked
    obtain ⟨rfl, rfl⟩ := Prod.mk.inj (Except.ok.inj h)
    obtain rfl := Except.ok.inj hrecord
    rw [htag] at htag'
    obtain rfl := Except.ok.inj htag'
    exact Dict.get_ofList rfl

omit [PyFloat F] [PyFloatInt F] [PyRepr F] in
theorem mem_of_mem_lastOf {α : Type} {n : ℕ} {a : α} {l : List α} (h : a ∈ lastOf n l) : a ∈ l :=
  List.mem_of_mem_drop h

/-- A message of the general channel has been sent by somebody. -/
theorem Sound.generalHistory (h : Sound as s) (hc : Consistent s position) {message : Dict F}
    (hmem : message ∈ s.generalHistory) : ∃ sender, Sent as sender .general message := by
  rw [Replica.eq_foldl (hc .general), foldl_lastOf] at hmem
  exact h.sent (List.mem_of_mem_take (mem_of_mem_lastOf hmem)) (by decide)

/-- A message that is pending has been sent to the device for which it is kept. -/
theorem Sound.pending (h : Sound as s) (hc : Consistent s position) {tag id : String}
    {record : PrivateRecord (Dict F)} (hmem : (s.delivery.pending tag).lookup id = some record) :
    record.rest.get "recipient_tag" = .ofString tag ∧
      ∃ sender, Sent as sender .privateMessages record.rest := by
  have hpending : s.memory.pending (tag, id) = some record := hmem
  rw [(hc .privateMessages).2] at hpending
  split_ifs at hpending
  obtain ⟨value, hlatest, rfl⟩ := Option.map_eq_some_iff.1 hpending
  obtain ⟨hvalue, hkey⟩ := mem_of_latest hlatest
  obtain ⟨⟨htag, -⟩, -⟩ := bothTrue_eq_some.1 hkey
  exact ⟨Dict.text_eq_some.1 htag, h.sent (List.mem_of_mem_take hvalue) (by decide)⟩

/-- A message of a group has been sent by one of its members. -/
theorem Sound.groupMessage (h : Sound as s) (hfresh : FreshIds as) {value group : Dict F}
    {groupId : PyStr} {admin : String} (hvalue : value ∈ s.values .groups)
    (hid : value.get "group_id" = .str groupId) (hgroup : Sent as admin .groupDirectory group)
    (hgroupId : group.get "group_id" = .str groupId) :
    ∃ sender ∈ memberTags group, Sent as sender .groups value := by
  obtain ⟨sender, hsent⟩ := h.sent hvalue (by decide)
  cases hsent with
  | @groupMessage s' groupId' admin' _ group' _ request _ hact htag hchecked hgroup' hid' hmem =>
    have hgroupId' : groupId = .ofString groupId' :=
      Json.str.inj (hid.symm.trans (get_groupMessage hchecked htag).1)
    obtain rfl := hgroup.group_unique hfresh hgroup' hgroupId (hgroupId' ▸ hid')
    exact ⟨sender, hmem, .groupMessage hact htag hchecked hgroup' hid' hmem⟩

end

section Reads

variable [DecidableEq W] {as : List (ClusterAct W F)} {s₀ s : ChatCluster W F}
  {request : ChatRequest F} {tag : String}

/-- A device reads messages that have been sent under the tags which they carry: private messages
    that were sent to it, and messages of groups of which it is a member, sent by members. -/
theorem reads_entitled (h₀ : (ChatCluster.system W F).init s₀)
    (hrun : (ChatCluster.system W F).Run s₀ as s) (hfresh : FreshIds as)
    (htag : request.tag = .ok tag) :
    (∀ history, generalHistory request s.service = .ok history → ∀ message ∈ history,
      ∃ sender, message.get "sender_tag" = .ofString sender ∧ Sent as sender .general message) ∧
    (∀ messages, pending request s.service = .ok messages → ∀ id record,
      messages.lookup id = some record → record.rest.get "recipient_tag" = .ofString tag ∧
        ∃ sender, record.rest.get "sender_tag" = .ofString sender ∧
          Sent as sender .privateMessages record.rest) ∧
    (∀ event, mlsState request s.service = .ok event → event ≠ [] →
      ∃ sender, event.get "sender_tag" = .ofString sender ∧ Sent as sender .mlsEvents event) ∧
    ∀ groupId history, groupHistory groupId request s.service = .ok history →
      ∃ admin group, Sent as admin .groupDirectory group ∧
        group.get "group_id" = .ofString groupId ∧ tag ∈ memberTags group ∧
        ∀ message ∈ history, ∃ sender ∈ memberTags group,
          message.get "sender_tag" = .ofString sender ∧ Sent as sender .groups message := by
  obtain ⟨hsound, hc⟩ := Sound.of_run h₀ hrun
  refine ⟨fun history hhistory message hmem => ?_, fun messages hmessages id record hmem => ?_,
    fun event hevent hne => ?_, fun groupId history hhistory => ?_⟩
  · simp only [generalHistory, htag] at hhistory
    obtain rfl := Except.ok.inj hhistory
    obtain ⟨sender, hsent⟩ := hsound.generalHistory hc hmem
    exact ⟨sender, hsent.sender_tag (by decide), hsent⟩
  · simp only [pending, htag] at hmessages
    obtain rfl := Except.ok.inj hmessages
    obtain ⟨hrecipient, sender, hsent⟩ := hsound.pending hc hmem
    exact ⟨hrecipient, sender, hsent.sender_tag (by decide), hsent⟩
  · simp only [mlsState, htag] at hevent
    obtain rfl := Except.ok.inj hevent
    rcases hlatest : s.service.latestMlsEvent with _ | event
    · rw [hlatest] at hne
      exact absurd rfl hne
    · obtain ⟨_, hvalue, -, rfl⟩ := Replica.mem (k := ()) (hc .mlsEvents) hlatest
      obtain ⟨sender, hsent⟩ := hsound.sent hvalue (by decide)
      exact ⟨sender, hsent.sender_tag (by decide), hsent⟩
  · rw [groupHistory, htag] at hhistory
    obtain ⟨_, ⟨rfl⟩, hhistory⟩ := bind_eq_ok.1 hhistory
    obtain ⟨group, hmember, hhistory⟩ := bind_eq_ok.1 hhistory
    obtain rfl := Except.ok.inj hhistory
    obtain ⟨admin, hgroup, hid, hmem⟩ := hsound.group hc hmember
    refine ⟨admin, group, hgroup, hid, hmem, fun message hmessage => ?_⟩
    rw [Replica.eq_foldl (hc .groups), foldl_addToHistory] at hmessage
    obtain ⟨hvalue, hkey⟩ := List.mem_filter.1 (mem_of_mem_lastOf hmessage)
    obtain ⟨sender, hsender, hsent⟩ := hsound.groupMessage hfresh (List.mem_of_mem_take hvalue)
      (groupKey_eq_some.1 (of_decide_eq_true hkey)).1 hgroup hid
    exact ⟨sender, hsender, hsent.sender_tag (by decide), hsent⟩

/-! ## What is pushed -/

omit [PyFloatInt F] [PyRepr F] in
theorem Websockets.mem_targets {ws : Websockets W} {recipient : Json F} {targets : Multiset W}
    {w : W} (h : ws.targets recipient = .ok targets) (hw : w ∈ targets) :
    ∃ tag, w ∈ ws.sockets tag := by
  unfold Websockets.targets at h
  split_ifs at h
  · split at h
    · next text _ =>
      obtain rfl := Except.ok.inj h
      rcases htext : PyStr.toText text with _ | tag
      · rw [htext] at hw
        exact absurd hw (Multiset.notMem_zero w)
      · rw [htext] at hw
        exact ⟨tag, hw⟩
    · cases h
    · cases h
    · obtain rfl := Except.ok.inj h
      exact absurd hw (Multiset.notMem_zero w)
  · obtain rfl := Except.ok.inj h
    exact Websockets.mem_everyone.1 (Multiset.mem_toFinset.2 hw)

omit [PyFloatInt F] [PyRepr F] in
theorem mem_broadcast {s : ChatState W F} {recipient payload payload' : Json F} {w : W}
    (h : (w, payload') ∈ (s.broadcast recipient payload).1) :
    ∃ tag, w ∈ s.websockets.sockets tag := by
  rw [ChatState.broadcast] at h
  split at h
  · next targets htargets =>
    obtain ⟨_, hw, heq⟩ := Multiset.mem_map.1 h
    exact Websockets.mem_targets htargets ((Prod.mk.inj heq).1 ▸ hw)
  · exact absurd h (Multiset.notMem_zero _)

omit [PyFloatInt F] [PyRepr F] [DecidableEq W] in
/-- A private message is pushed to websockets of its recipient. -/
theorem mem_consumePrivate {s : ChatState W F} {value : Dict F} {w : W} {payload : Json F}
    (h : (w, payload) ∈ (s.consumePrivate value).2.1) :
    ∃ tag, value.get "recipient_tag" = .ofString tag ∧ w ∈ s.websockets.sockets tag := by
  rw [ChatState.consumePrivate] at h
  split at h
  · exact absurd h (Multiset.notMem_zero _)
  · next recipient messageId hpair =>
    obtain ⟨⟨hrecipient, hne⟩, -⟩ := bothTrue_eq_some.1 hpair
    split_ifs at h
    · exact absurd h (Multiset.notMem_zero _)
    · rw [ChatState.broadcast_ofString hne] at h
      obtain ⟨_, hw, heq⟩ := Multiset.mem_map.1 h
      exact ⟨recipient, Dict.text_eq_some.1 hrecipient, (Prod.mk.inj heq).1 ▸ hw⟩

omit [DecidableEq W] in
/-- A message to a group is pushed to websockets of its members. -/
theorem Sound.mem_consumeGroupMessage {s : ChatState W F} {position : ChatTopic → ℕ}
    (h : Sound as s) (hc : Consistent s position) {value : Dict F} {w : W} {payload : Json F}
    (hpush : (w, payload) ∈ (s.consumeGroupMessage value).2.1) :
    ∃ groupId admin group tag, value.get "group_id" = .str groupId ∧
      Sent as admin .groupDirectory group ∧ group.get "group_id" = .str groupId ∧
      tag ∈ memberTags group ∧ w ∈ s.websockets.sockets tag := by
  rw [ChatState.consumeGroupMessage] at hpush
  split at hpush
  swap
  · exact absurd hpush (Multiset.notMem_zero _)
  next groupId hid =>
  split_ifs at hpush with hnil
  · exact absurd hpush (Multiset.notMem_zero _)
  dsimp only at hpush
  rcases hgroup : s.groups groupId with _ | group
  · -- Nobody is told of a message to a group that is not known.
    rw [hgroup] at hpush
    exact absurd hpush (Multiset.notMem_zero _)
  obtain ⟨group', hdirectory, hkey, heq⟩ := Replica.mem (hc .groupDirectory) hgroup
  obtain rfl : group' = group := heq
  obtain ⟨admin, hsent⟩ := h.sent hdirectory (by decide)
  rw [hgroup, Option.getD_some, hsent.members.2, pyList] at hpush
  dsimp only at hpush
  rw [ChatState.fst_broadcastAll hsent.members.1] at hpush
  obtain ⟨_, hw, heq⟩ := Multiset.mem_map.1 hpush
  obtain ⟨tag, htag, hw⟩ := Multiset.mem_bind.1 hw
  exact ⟨groupId, admin, group', tag, hid, hsent, (groupKey_eq_some.1 hkey).1, htag,
    (Prod.mk.inj heq).1 ▸ hw⟩

/-- What is consumed is pushed to websockets that devices have opened: a private message, to those
    of its recipient, and a message to a group, to those of its members. -/
theorem pushes_entitled (h₀ : (ChatCluster.system W F).init s₀)
    (hrun : (ChatCluster.system W F).Run s₀ as s) (hfresh : FreshIds as) {topic : ChatTopic}
    {value : Dict F} (hvalue : (s.service.values topic)[s.position topic]? = some value) {w : W}
    {payload : Json F} (hpush : (w, payload) ∈ (s.service.consume value topic).2.1) :
    ∃ tag, .connect tag w ∈ as ∧
      (topic = .privateMessages → value.get "recipient_tag" = .ofString tag) ∧
      (topic = .groups → ∃ admin group, Sent as admin .groupDirectory group ∧
        group.get "group_id" = value.get "group_id" ∧ tag ∈ memberTags group ∧
        ∃ sender ∈ memberTags group, Sent as sender .groups value) := by
  obtain ⟨hsound, hc⟩ := Sound.of_run h₀ hrun
  cases topic with
  | general =>
    obtain ⟨tag, htag⟩ := mem_broadcast hpush
    exact ⟨tag, hsound.connected tag w htag, nofun, nofun⟩
  | mlsEvents =>
    obtain ⟨tag, htag⟩ := mem_broadcast hpush
    exact ⟨tag, hsound.connected tag w htag, nofun, nofun⟩
  | groupDirectory => exact absurd hpush (Multiset.notMem_zero _)
  | delivery => exact absurd hpush (Multiset.notMem_zero _)
  | privateMessages =>
    obtain ⟨tag, hrecipient, hw⟩ := mem_consumePrivate hpush
    exact ⟨tag, hsound.connected tag w hw, fun _ => hrecipient, nofun⟩
  | groups =>
    obtain ⟨groupId, admin, group, tag, hid, hsent, hgroupId, htag, hw⟩ :=
      hsound.mem_consumeGroupMessage hc hpush
    exact ⟨tag, hsound.connected tag w hw, nofun, fun _ => ⟨admin, group, hsent,
      hgroupId.trans hid.symm, htag,
      hsound.groupMessage hfresh (List.mem_of_getElem? hvalue) hid hsent hgroupId⟩⟩

/-! ## What is kept -/

omit [DecidableEq W] in
/-- A private message has one record. -/
theorem Sent.private_unique (hfresh : FreshIds as) {sender sender' : String}
    {value value' : Dict F} {id : String} (h : Sent as sender .privateMessages value)
    (h' : Sent as sender' .privateMessages value') (hid : value.get "message_id" = .ofString id)
    (hid' : value'.get "message_id" = .ofString id) : value = value' := by
  cases h with
  | @privateMessage request uuid_ne m hact hchecked =>
  cases h' with
  | @privateMessage request' uuid_ne' m' hact' hchecked' =>
    have huuid : id = request.uuid :=
      Json.ofString_inj.1 (hid.symm.trans (get_privateMessage hchecked).1)
    have huuid' : id = request'.uuid :=
      Json.ofString_inj.1 (hid'.symm.trans (get_privateMessage hchecked').1)
    have hact_eq := hfresh.eq_of_drawnId hact hact' rfl
      (congrArg some (huuid'.symm.trans huuid))
    obtain ⟨-, rfl⟩ := ClusterAct.post.inj hact_eq
    rw [Except.ok.inj (hchecked.symm.trans hchecked')]

/-- A private message that has been consumed stays until the device to which it was sent has
    acknowledged it. -/
theorem unacknowledged_kept (h₀ : (ChatCluster.system W F).init s₀)
    (hrun : (ChatCluster.system W F).Run s₀ as s) (hfresh : FreshIds as) {value : Dict F}
    {id : String} (hvalue : value ∈ (s.service.values .privateMessages).take
      (s.position .privateMessages)) (hpair : privatePair value = some (tag, id))
    (hack : ¬Acknowledged as (tag, id)) :
    (s.service.delivery.pending tag).lookup id = some (privateRecord value) := by
  obtain ⟨hsound, hc⟩ := Sound.of_run h₀ hrun
  obtain ⟨⟨htag, hr⟩, hid, hm⟩ := bothTrue_eq_some.1 hpair
  have hdelivered : (tag, id) ∉ s.service.delivery.delivered := by
    intro hmem
    obtain ⟨record, hrecord, hkey, -⟩ := Replica.mem (k := (tag, id)) (hc .delivery)
      (if_pos ⟨⟨hr, hm⟩, hmem⟩)
    have hlegitimate := hsound.legitimate .delivery record hrecord
    rw [Legitimate, if_pos rfl] at hlegitimate
    exact hack (hlegitimate _ hkey)
  have hpending := (hc .privateMessages).2 (tag, id)
  rw [if_neg hdelivered] at hpending
  refine hpending.trans ?_
  rcases hlatest : latest privatePair _ (some (tag, id)) with _ | value'
  · exact absurd hpair (latest_eq_none.1 hlatest value hvalue)
  · obtain ⟨hvalue', hpair'⟩ := mem_of_latest hlatest
    obtain ⟨-, hid', -⟩ := bothTrue_eq_some.1 hpair'
    obtain ⟨sender, hsent⟩ := hsound.sent (List.mem_of_mem_take hvalue) (by decide)
    obtain ⟨sender', hsent'⟩ := hsound.sent (List.mem_of_mem_take hvalue') (by decide)
    rw [hsent.private_unique hfresh hsent' (Dict.text_eq_some.1 hid) (Dict.text_eq_some.1 hid')]
    rfl

end Reads

/-! ## Concrete runs -/

theorem run_afterAlice : (ChatCluster.system Unit (List Char)).Run ⟨.new, fun _ => 0⟩ aliceActs
    afterAlice :=
  .of_foldlM (Option.some_get _).symm

/-- Alice reads what she has written to her group. -/
theorem reads_entitled_alice : ∃ admin group, Sent aliceActs admin .groupDirectory group ∧
    "alice" ∈ memberTags group ∧ afterAlice.service.groupHistory (.ofString "3") ≠ [] ∧
    ∀ message ∈ afterAlice.service.groupHistory (.ofString "3"),
      ∃ sender ∈ memberTags group, Sent aliceActs sender .groups message := by
  have hhistory : groupHistory "3" (aliceRequest "5" []) afterAlice.service =
      .ok (afterAlice.service.groupHistory (.ofString "3")) := rfl
  have htag : (aliceRequest "5" []).tag = .ok "alice" := rfl
  obtain ⟨-, -, -, hgroups⟩ := reads_entitled rfl run_afterAlice (by decide) htag
  obtain ⟨admin, group, hgroup, -, hmem, hsent⟩ := hgroups _ _ hhistory
  refine ⟨admin, group, hgroup, hmem, by decide, fun message hmessage => ?_⟩
  obtain ⟨sender, hsender, -, hsent⟩ := hsent message hmessage
  exact ⟨sender, hsender, hsent⟩

/-- Alice writes to bob, who has opened a websocket. -/
def openActs : List (ClusterAct Unit (List Char)) := [.connect "bob" (), writeToBob]

/-- The service after that. -/
def afterOpen : ChatCluster Unit (List Char) :=
  (openActs.foldlM ChatCluster.next ⟨.new, fun _ => 0⟩).get (by decide)

/-- The record of the message. -/
def privateHello : Dict (List Char) := Dict.ofList [("message_id", .ofString "2"),
  ("sender_tag", .ofString "alice"), ("recipient_tag", .ofString "bob"),
  ("envelope", sealedHello), ("created_at", .float [])]

/-- The message is pushed to bob's websocket. -/
theorem pushes_entitled_bob : (afterOpen.service.consume privateHello .privateMessages).2.1 =
    {((), payload "private" "message" privateHello)} ∧
    ∃ tag, .connect tag () ∈ openActs ∧ privateHello.get "recipient_tag" = .ofString tag := by
  have hpushed : (afterOpen.service.consume privateHello .privateMessages).2.1 =
      {((), payload "private" "message" privateHello)} := rfl
  have hnext : (afterOpen.service.values .privateMessages)[afterOpen.position .privateMessages]? =
      some privateHello := rfl
  obtain ⟨tag, htag, hrecipient, -⟩ := pushes_entitled rfl
    (.of_foldlM (Option.some_get _).symm) (by decide) hnext
    (hpushed ▸ Multiset.mem_singleton_self _)
  exact ⟨hpushed, tag, htag, hrecipient rfl⟩

/-- What alice has written to bob is kept for him. -/
theorem unacknowledged_kept_bob :
    (afterAlice.service.delivery.pending "bob").lookup "2" = some (privateRecord privateHello) := by
  refine unacknowledged_kept rfl run_afterAlice (by decide) (List.mem_of_mem_head? rfl) rfl ?_
  intro hack
  cases hack with
  | route hact _ => simp [aliceActs, writeToBob] at hact
  | websocket hact _ => simp [aliceActs, writeToBob] at hact

end SecNet
