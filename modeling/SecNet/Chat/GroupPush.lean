import SecNet.Chat.Broadcast

/-!
# Pushes to the members of a group

Who is told of a message to a group, and of a private message. The members of a group are those of
the request that has created it, one after the other: a tag that occurs twice is pushed to twice.

* `checkMembers_eq_ok`: the members that are accepted are tags of the directory;
* `GroupsHaveTags.nextPush`: so are those of the groups that the service knows;
* `pushesOnce_iff`: a message is pushed once to each member exactly when no two entries of the list
  share a websocket;
* `members_pushed_once`: so along every run.
-/

namespace SecNet

variable {F W : Type} [PyFloat F] [PyFloatInt F] [PyRepr F] [DecidableEq W]

theorem ofString_ne_nil {text : String} (h : text ≠ "") : PyStr.ofString text ≠ [] := by
  rw [PyStr.ofString, ne_eq, List.map_eq_nil_iff, String.toList_eq_nil_iff]
  exact h

/-- What happens to the groups and the websockets. A group that is created has a name of
    `uuid4`, which is not empty. -/
inductive GroupEvent (W F : Type)
  | createGroup (request : ChatRequest F) (uuid_ne : request.uuid ≠ "")
  | connect (tag : String) (w : W)
  | disconnect (tag : String) (w : W)
  | groupMessage (value : Dict F)
  | privateMessage (value : Dict F)

/-- What happens to the service. -/
def GroupEvent.toChatEvent : GroupEvent W F → ChatEvent W F
  | .createGroup request _ => .post .createGroup request
  | .connect tag w => .addWebsocket tag w
  | .disconnect tag w => .removeWebsocket tag w
  | .groupMessage value => .groupMessage value
  | .privateMessage value => .privateMessage value

/-- The tags of the members of a group. -/
def memberTags (group : Dict F) : List String :=
  match group.getD "members" (.arr []) with
  | .arr members => members.filterMap fun
    | .str s => s.toText
    | _ => none
  | _ => []

namespace ChatState

/-- What an event does to the service. -/
def nextPush (s : ChatState W F) (event : GroupEvent W F) : ChatState W F :=
  s.next event.toChatEvent

/-- A message to a group that is known is pushed once to every websocket that is registered under
    the tag of a member, and to no other; a private message that has not been delivered, to those
    of its recipient. -/
def PushesOnce (s : ChatState W F) : GroupEvent W F → Prop
  | .groupMessage value => ∀ groupId group, value.get "group_id" = .str groupId →
    s.groups groupId = some group → PushedOnce (s.consumeGroupMessage value).2
      (groupPayload groupId value) (s.websockets.registered (memberTags group))
  | .privateMessage value => ∀ recipient messageId,
    (privateRecord value).pair = some (recipient, messageId) →
    (recipient, messageId) ∉ s.delivery.delivered → PushedOnce (s.consumePrivate value).2
      (payload "private" "message" value) (s.websockets.sockets recipient)
  | _ => True

/-- No two entries of the list of the members share a websocket. -/
def MembersApart (s : ChatState W F) : GroupEvent W F → Prop
  | .groupMessage value => ∀ groupId group, value.get "group_id" = .str groupId →
    s.groups groupId = some group → (memberTags group).Pairwise fun tag tag' =>
      Disjoint (s.websockets.sockets tag) (s.websockets.sockets tag')
  | _ => True

/-- The groups have names, and members that are tags. -/
def GroupsHaveTags (s : ChatState W F) : Prop :=
  ∀ groupId group, s.groups groupId = some group → groupId ≠ [] ∧
    ∃ tags : List String, "" ∉ tags ∧ group.getD "members" (.arr []) = .arr (tags.map .ofString)

end ChatState

/-! ## The groups that are created -/

omit [PyFloat F] [PyFloatInt F] [PyRepr F] in
/-- The members that are accepted are tags of the directory. -/
theorem checkMembers_eq_ok {d : Directory} {members : List (Json F)}
    (h : checkMembers d members = .ok ()) :
    ∃ tags : List String, members = tags.map .ofString ∧ ∀ tag ∈ tags, (d.byTag tag).isSome := by
  induction members with
  | nil => exact ⟨[], rfl, nofun⟩
  | cons v members ih =>
    rw [checkMembers, bind_eq_ok] at h
    obtain ⟨r, hr, h⟩ := h
    rw [bind_eq_ok] at h
    obtain ⟨⟨⟩, hcheck, h⟩ := h
    obtain ⟨tags, rfl, htags⟩ := ih h
    rw [check_eq_ok] at hcheck
    obtain ⟨tag, rfl, htag⟩ : ∃ tag, v = .ofString tag ∧ (d.byTag tag).isSome := by
      cases v with
      | str s =>
        obtain rfl := Except.ok.inj hr
        rcases htext : s.toText with _ | tag
        · rw [htext] at hcheck
          cases hcheck
        · rw [htext] at hcheck
          exact ⟨tag, congrArg _ (PyStr.toText_eq_some.1 htext), hcheck⟩
      | arr _ => cases hr
      | obj _ => cases hr
      -- What can be hashed and is not a string is not in the directory.
      | _ =>
        obtain rfl := Except.ok.inj hr
        cases hcheck
    exact ⟨tag :: tags, rfl, List.forall_mem_cons.2 ⟨htag, htags⟩⟩

omit [PyFloat F] [PyFloatInt F] in
/-- A group that is accepted has members that are tags. -/
theorem checkGroup_eq_ok {request : ChatRequest F} {g : NewGroup F}
    (h : checkGroup request = .ok g) :
    ∃ tags : List String, "" ∉ tags ∧ g.members = tags.map .ofString := by
  simp only [checkGroup, bind_eq_ok] at h
  obtain ⟨admin, -, v, -, body, -, ⟨⟩, -, members, -, ⟨⟩, hmembers, hg⟩ := h
  obtain ⟨tags, htags, hknown⟩ := checkMembers_eq_ok hmembers
  obtain rfl := Except.ok.inj hg
  -- The empty tag, which would be broadcast to everyone, is not in the directory.
  refine ⟨tags, fun hempty => ?_, htags⟩
  have hsome := hknown _ hempty
  rw [request.byTag_empty] at hsome
  cases hsome

namespace ChatState

variable {s : ChatState W F}

omit [PyFloat F] [PyFloatInt F] [DecidableEq W] in
/-- The groups after a group has been created, or not. -/
theorem groups_createGroup (s : ChatState W F) (request : ChatRequest F) :
    (SecNet.createGroup request s).1.groups = s.groups ∨
    ∃ g, checkGroup request = .ok g ∧ (SecNet.createGroup request s).1.groups =
      Function.update s.groups (.ofString request.uuid) (some (g.record request)) := by
  rw [SecNet.createGroup]
  rcases hchecked : checkGroup request with e | g
  · exact .inl rfl
  rw [Plan.handle_of_ok rfl, groupPlan]
  rcases hfirst : request.publish "group-directory" with e | ⟨⟩
  · rw [Plan.run_cons_of_error hfirst]
    exact .inl rfl
  · -- The group stays when the audit record cannot be published.
    refine .inr ⟨g, rfl, ?_⟩
    rw [Plan.run_cons_of_ok hfirst, Plan.run_cons_of_ok rfl]
    rcases hlater : request.publish "network-events" with e | ⟨⟩
    · rw [Plan.run_cons_of_error hlater]
      rfl
    · rw [Plan.run_cons_of_ok hlater]
      rfl

omit [PyFloatInt F] [PyRepr F] [DecidableEq W] in
theorem groups_consumeGroupMessage (s : ChatState W F) (value : Dict F) :
    (s.consumeGroupMessage value).1.groups = s.groups := by
  rw [consumeGroupMessage]
  split
  · split_ifs
    · rfl
    · rfl
  · rfl

omit [PyFloatInt F] [PyRepr F] [DecidableEq W] in
theorem groups_consumePrivate (s : ChatState W F) (value : Dict F) :
    (s.consumePrivate value).1.groups = s.groups := by
  rw [consumePrivate]
  split
  · rfl
  · split_ifs
    · rfl
    · rfl

/-- The groups that the service knows have names, and members that are tags. -/
theorem GroupsHaveTags.nextPush (h : s.GroupsHaveTags) (event : GroupEvent W F) :
    (s.nextPush event).GroupsHaveTags := by
  cases event with
  | createGroup request uuid_ne =>
    intro groupId group hgroup
    have hnext : (s.nextPush (.createGroup request uuid_ne)).groups =
        (SecNet.createGroup request s).1.groups := rfl
    rcases groups_createGroup s request with hsame | ⟨g, hchecked, hupdate⟩
    · rw [hnext, hsame] at hgroup
      exact h groupId group hgroup
    · rw [hnext, hupdate] at hgroup
      by_cases hid : groupId = .ofString request.uuid
      · rw [hid, Function.update_self] at hgroup
        obtain rfl := Option.some.inj hgroup
        obtain ⟨tags, hempty, htags⟩ := checkGroup_eq_ok hchecked
        refine ⟨hid ▸ ofString_ne_nil uuid_ne, tags, hempty, ?_⟩
        rw [← htags]
        exact Dict.getD_ofList rfl
      · rw [Function.update_of_ne hid] at hgroup
        exact h groupId group hgroup
  | groupMessage value =>
    have hnext : (s.nextPush (.groupMessage value)).groups = s.groups :=
      groups_consumeGroupMessage s value
    rwa [GroupsHaveTags, hnext]
  | privateMessage value =>
    have hnext : (s.nextPush (.privateMessage value)).groups = s.groups :=
      groups_consumePrivate s value
    rwa [GroupsHaveTags, hnext]
  | _ => exact h

omit [PyFloatInt F] [PyRepr F] [DecidableEq W] in
/-- What is pushed to a tag. -/
theorem broadcast_ofString {tag : String} (h : tag ≠ "") (payload : Json F) :
    s.broadcast (.ofString tag) payload =
      ((s.websockets.sockets tag).val.map fun w => (w, payload), .ok ()) := by
  have htruth : (Json.ofString (F := F) tag).truth := decide_eq_true (ofString_ne_nil h)
  unfold broadcast Websockets.targets
  rw [if_pos htruth, Json.ofString]
  simp only [PyStr.toText_ofString, Option.map_some, Option.getD_some]

omit [PyFloatInt F] [PyRepr F] [DecidableEq W] in
/-- What is pushed to some tags, one after the other. -/
theorem fst_broadcastAll {tags : List String} (h : "" ∉ tags) (payload : Json F) :
    (s.broadcastAll payload (tags.map .ofString)).1 =
      (s.websockets.ofTags tags).map fun w => (w, payload) := by
  induction tags with
  | nil => rfl
  | cons tag tags ih =>
    rw [List.mem_cons, not_or] at h
    rw [List.map_cons, broadcastAll, broadcast_ofString (Ne.symm h.1)]
    dsimp only
    rw [ih h.2, Websockets.ofTags, Websockets.ofTags, ← Multiset.cons_coe, Multiset.cons_bind,
      Multiset.map_add]

omit [PyFloatInt F] [PyRepr F] in
/-- A message is pushed once to every member's websockets, exactly when no two entries of the list
    of the members share one. -/
theorem pushedOnce_groupMessage_iff (h : s.GroupsHaveTags) {value group : Dict F} {groupId : PyStr}
    (hid : value.get "group_id" = .str groupId) (hgroup : s.groups groupId = some group) :
    PushedOnce (s.consumeGroupMessage value).2 (groupPayload groupId value)
      (s.websockets.registered (memberTags group)) ↔
    (memberTags group).Pairwise fun tag tag' =>
      Disjoint (s.websockets.sockets tag) (s.websockets.sockets tag') := by
  obtain ⟨hne, tags, hempty, hmembers⟩ := h groupId group hgroup
  have htags : memberTags group = tags := by
    rw [memberTags, hmembers]
    dsimp only
    rw [List.filterMap_map]
    exact (List.filterMap_congr fun tag _ => PyStr.toText_ofString tag).trans List.filterMap_some
  have hpushes : (s.consumeGroupMessage value).2.1 =
      (s.websockets.ofTags (memberTags group)).map fun w => (w, groupPayload groupId value) := by
    rw [htags, ← fst_broadcastAll hempty, consumeGroupMessage, hid]
    dsimp only
    rw [if_neg hne, hgroup, Option.getD_some, hmembers]
    rfl
  exact (pushedOnce_toFinset_iff hpushes).trans Websockets.nodup_ofTags

omit [PyFloatInt F] [PyRepr F] [DecidableEq W] in
/-- A private message that has not been delivered is pushed once to its recipient's websockets. -/
theorem pushedOnce_privateMessage {value : Dict F} {recipient messageId : String}
    (hpair : (privateRecord value).pair = some (recipient, messageId))
    (hdelivered : (recipient, messageId) ∉ s.delivery.delivered) :
    PushedOnce (s.consumePrivate value).2 (payload "private" "message" value)
      (s.websockets.sockets recipient) := by
  obtain ⟨⟨-, hne⟩, -⟩ := bothTrue_eq_some.1 hpair
  rw [PushedOnce, consumePrivate, hpair]
  dsimp only
  rw [if_neg hdelivered, broadcast_ofString hne]

omit [PyFloatInt F] [PyRepr F] in
/-- An event is pushed as it should be, exactly when no two members of its group share a
    websocket. -/
theorem pushesOnce_iff (h : s.GroupsHaveTags) (event : GroupEvent W F) :
    s.PushesOnce event ↔ s.MembersApart event := by
  cases event with
  | groupMessage value =>
    exact forall₂_congr fun groupId group => forall₂_congr fun hid hgroup =>
      pushedOnce_groupMessage_iff h hid hgroup
  | privateMessage value =>
    exact iff_of_true
      (fun _ _ hpair hdelivered => pushedOnce_privateMessage hpair hdelivered) trivial
  | _ => exact iff_of_true trivial trivial

omit [PyFloat F] [PyFloatInt F] [PyRepr F] [DecidableEq W] in
theorem groupsHaveTags_new (delivery : DeliveryState (Dict F)) :
    GroupsHaveTags ({ ChatState.new with delivery := delivery } : ChatState W F) := by
  intro groupId group hgroup
  cases hgroup

/-- Messages are pushed once to the websockets of the members of a group, and to those of the
    recipient: along a run, exactly when no two entries of the list of the members of a group to
    which a message is sent share a websocket. -/
theorem members_pushed_once (delivery : DeliveryState (Dict F)) (events : List (GroupEvent W F)) :
    System.AllSteps nextPush PushesOnce { ChatState.new with delivery := delivery } events ↔
      System.AllSteps nextPush MembersApart { ChatState.new with delivery := delivery } events :=
  System.AllSteps.iff (I := GroupsHaveTags) (fun _ event h => pushesOnce_iff h event)
    (fun _ event h _ => h.nextPush event) (groupsHaveTags_new delivery) events

/-- Alice creates a group with bob, who is named twice. -/
def bobTwice : ChatRequest (List Char) where
  __ := plainRequest
  body := .ok (.obj (Dict.ofList [("name", .ofString "g"),
    ("member_tags", .arr [.ofString "bob", .ofString "bob"])]))
  directory := ⟨fun _ => none, fun tag =>
    if tag = "alice" ∨ tag = "bob" then some ⟨"device_registered", "1", tag, "", some "", none⟩
    else none⟩
  byTag_empty := by decide

/-- A message to the group. -/
def groupHello : Dict (List Char) := Dict.ofList [("group_id", .ofString "1")]

/-- Bob is told twice of a message to the group. -/
theorem member_named_twice : ¬System.AllSteps nextPush PushesOnce (ChatState.new (W := Unit))
    [.createGroup bobTwice (by decide), .connect "bob" (), .groupMessage groupHello] := by
  intro h
  have hpushed := h.2.2.1 (.ofString "1")
    (NewGroup.record ⟨"alice", .ofString "g", [.ofString "bob", .ofString "bob", .ofString "alice"]⟩
      bobTwice) rfl rfl
  -- Two pushes are made, and one websocket is registered.
  exact absurd (congrArg Multiset.card hpushed) (by decide)

end ChatState

end SecNet
