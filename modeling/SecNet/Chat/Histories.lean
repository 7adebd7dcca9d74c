import SecNet.Chat.Access
import SecNet.Chat.HistoryDecoding

/-!
# The histories of the channels

A page that opens the general channel or a group fetches its history. The service has it from the
topic of the channel, to which the requests that send messages append, each at most one.

* `ChatChannel.history_eq`: a history is the last messages of the channel which the consumer has
  come to;
* `adds_run`: what a run appends to a topic of messages, by the ids that its requests draw;
* `histories_in_order`: a history has the messages in the order in which they were sent, and each
  of them once, however often the service has been started again;
* `ChatChannel.mem_history`: a message that has not been pushed out by newer ones is there.
-/

namespace SecNet

variable {F W : Type} [PyFloat F] [PyFloatInt F] [PyRepr F]

/-! ## What a page fetches -/

/-- The topic that the messages of a channel are in. -/
def ChatChannel.topic : ChatChannel → ChatTopic
  | .general => .general
  | .group .. => .groups
  | .dm _ => .privateMessages

/-- The request that `openChannel` makes, and what it is answered. -/
def ChatChannel.history (request : ChatRequest F) (s : ChatState W F) :
    ChatChannel → Option (Except Exn (List (Dict F)))
  | .general => some (generalHistory request s)
  | .group id _ => some (groupHistory id request s)
  | .dm _ => none

/-- How many messages the history of a channel has at most. -/
def ChatChannel.limit : ChatChannel → ℕ
  | .general => 1000
  | .group .. => 200
  | .dm _ => 0

/-- The record is of the channel. -/
def ChatChannel.Lists (value : Dict F) : ChatChannel → Prop
  | .general => True
  | .group id _ => groupKey value = some (.ofString id)
  | .dm _ => False

instance (channel : ChatChannel) : DecidablePred (channel.Lists (F := F)) := fun value =>
  match channel with
  | .general => inferInstanceAs (Decidable True)
  | .group id _ => inferInstanceAs (Decidable (groupKey value = some (.ofString id)))
  | .dm _ => inferInstanceAs (Decidable False)

/-- The records of a channel that its consumer has handled, from the one with a number on. -/
def ChatChannel.handled (s : ChatCluster W F) (start : ℕ) (channel : ChatChannel) :
    List (Dict F) :=
  (((s.service.values channel.topic).take (s.position channel.topic)).drop start).filter
    fun value => channel.Lists value

section

variable {s : ChatCluster W F} {channel : ChatChannel} {request : ChatRequest F}
  {history : List (Dict F)} {value : Dict F} {n : ℕ}

omit [PyFloat F] [PyFloatInt F] [PyRepr F] in
/-- A history is the last messages of the channel. -/
theorem ChatChannel.history_eq (hc : Consistent s.service s.position)
    (hhistory : channel.history request s.service = some (.ok history)) :
    history = lastOf channel.limit (channel.handled s 0) := by
  cases channel with
  | general =>
    obtain ⟨_, -, h⟩ := bind_eq_ok.1 (Option.some.inj hhistory)
    obtain rfl := Except.ok.inj h
    rw [Replica.eq_foldl (hc .general), foldl_lastOf, ChatChannel.handled, List.drop_zero]
    exact congrArg _ (List.filter_eq_self.2 fun _ _ => rfl).symm
  | group id id_ne =>
    obtain ⟨_, -, h⟩ := bind_eq_ok.1 (Option.some.inj hhistory)
    obtain ⟨_, -, h⟩ := bind_eq_ok.1 h
    obtain rfl := Except.ok.inj h
    rw [Replica.eq_foldl (hc .groups), foldl_addToHistory, ChatChannel.handled, List.drop_zero]
    rfl
  | dm tag => cases hhistory

omit [PyFloat F] [PyFloatInt F] [PyRepr F] in
/-- The consumer has come to no later record. -/
theorem ChatChannel.handled_of_le (h : s.position channel.topic ≤ n) :
    channel.handled s n = [] := by
  rw [ChatChannel.handled, List.drop_eq_nil_of_le ((List.length_take_le _ _).trans h),
    List.filter_nil]

omit [PyFloat F] [PyFloatInt F] [PyRepr F] in
theorem mem_lastOf_append {α : Type} {m : ℕ} {l l' : List α} {a : α} (h : l'.length < m) :
    a ∈ lastOf m (l ++ a :: l') := by
  have hle : (l ++ a :: l').length - m ≤ l.length := by
    rw [List.length_append, List.length_cons]
    omega
  rw [lastOf, List.drop_append_of_le_length hle]
  exact List.mem_append_right _ List.mem_cons_self

omit [PyFloat F] [PyFloatInt F] [PyRepr F] in
/-- A message is in the history while there are not too many newer ones. -/
theorem ChatChannel.mem_history (hc : Consistent s.service s.position)
    (hhistory : channel.history request s.service = some (.ok history))
    (hvalue : (s.service.values channel.topic)[n]? = some value) (hlists : channel.Lists value)
    (hhandled : n < s.position channel.topic)
    (hnewer : (channel.handled s (n + 1)).length < channel.limit) : value ∈ history := by
  have htake : ((s.service.values channel.topic).take (s.position channel.topic))[n]? =
      some value := by
    rw [List.getElem?_take_of_lt hhandled]
    exact hvalue
  obtain ⟨hn, hget⟩ := List.getElem?_eq_some_iff.1 htake
  -- The records before it, it, and those after it.
  have hsplit := List.take_append_drop n
    ((s.service.values channel.topic).take (s.position channel.topic))
  rw [List.drop_eq_getElem_cons hn, hget] at hsplit
  rw [channel.history_eq hc hhistory, ChatChannel.handled, List.drop_zero, ← hsplit,
    List.filter_append, List.filter_cons, if_pos (decide_eq_true hlists)]
  exact mem_lastOf_append hnewer

end

/-! ## What a run appends -/

/-- The topics of messages. -/
def ChatTopic.OfMessages : ChatTopic → Prop
  | .general | .groups | .privateMessages => True
  | _ => False

/-- The message id of a record. -/
def messageId (value : Dict F) : Json F := value.get "message_id"

/-- What is appended to a topic: messages with some of the given ids, in their order. -/
def Adds (topic : ChatTopic) (ids : List String) (s s' : ChatState W F) : Prop :=
  ∃ added, s'.values topic = s.values topic ++ added ∧
    (added.map messageId).Sublist (ids.map .ofString)

section

variable {topic : ChatTopic} {ids ids' : List String} {id name key : String}
  {s s' s'' : ChatState W F} {value : Dict F} {request : ChatRequest F}
  {x : PlanStep Exn (ChatState W F)} {p : Plan Exn (ChatState W F)}

omit [PyFloat F] [PyFloatInt F] [PyRepr F] in
theorem adds_of_values (h : s'.values topic = s.values topic) : Adds topic ids s s' :=
  ⟨[], by rw [h, List.append_nil], List.nil_sublist _⟩

omit [PyFloat F] [PyFloatInt F] [PyRepr F] in
theorem Adds.mono (h : Adds topic ids s s') (hids : ids.Sublist ids') : Adds topic ids' s s' :=
  let ⟨added, hadded, hsub⟩ := h
  ⟨added, hadded, hsub.trans (hids.map _)⟩

omit [PyFloat F] [PyFloatInt F] [PyRepr F] in
theorem Adds.trans (h : Adds topic ids s s') (h' : Adds topic ids' s' s'') :
    Adds topic (ids ++ ids') s s'' := by
  obtain ⟨added, hadded, hsub⟩ := h
  obtain ⟨added', hadded', hsub'⟩ := h'
  refine ⟨added ++ added', by rw [hadded', hadded, List.append_assoc], ?_⟩
  rw [List.map_append, List.map_append]
  exact hsub.append hsub'

omit [PyFloat F] [PyFloatInt F] [PyRepr F] in
/-- A record goes to one topic. -/
theorem adds_publish {t : ChatTopic} (hid : messageId value = .ofString id)
    (s : ChatState W F) : Adds topic [id] s ((request.publishStep t.name key value).effect s) := by
  by_cases h : topic = t
  · subst h
    refine ⟨[value], values_append_self s key value topic, ?_⟩
    rw [List.map_singleton, List.map_singleton, hid]
  · refine adds_of_values ?_
    change (s.append t.name key value).values topic = _
    rw [values_append, if_neg fun hname => h (ChatTopic.name_injective hname), List.append_nil]

omit [PyFloat F] [PyFloatInt F] [PyRepr F] in
theorem adds_publish_other (hname : topic.name ≠ name) (s : ChatState W F) :
    Adds topic [] s ((request.publishStep name key value).effect s) := by
  refine adds_of_values ?_
  change (s.append name key value).values topic = _
  rw [values_append, if_neg hname, List.append_nil]

omit [PyFloat F] [PyFloatInt F] [PyRepr F] in
/-- A plan whose steps append nothing to the topic. -/
theorem adds_plan_nil (hp : ∀ x ∈ p, ∀ s, Adds topic [] s (x.effect s)) :
    Adds topic [] s (p.run s).1 :=
  Plan.run_invariant (I := Adds topic [] s) (fun x hx _ ht => ht.trans (hp x hx _))
    (adds_of_values rfl)

omit [PyFloat F] [PyFloatInt F] [PyRepr F] in
/-- A plan whose first step is the only one that appends to the topic. -/
theorem adds_plan_cons (hx : ∀ s, Adds topic ids s (x.effect s))
    (hp : ∀ x ∈ p, ∀ s, Adds topic [] s (x.effect s)) :
    Adds topic ids s (Plan.run s (x :: p)).1 := by
  rcases houtcome : x.outcome with e | ⟨⟩
  · rw [Plan.run_cons_of_error houtcome]
    exact adds_of_values rfl
  · rw [Plan.run_cons_of_ok houtcome]
    exact ((hx s).trans (adds_plan_nil hp)).mono (by rw [List.append_nil])

omit [PyFloat F] [PyFloatInt F] [PyRepr F] in
theorem adds_handle {α β : Type} {checked : Except Exn α} {plan : α → Plan Exn (ChatState W F)}
    {answer : α → β} (h : ∀ a, checked = .ok a → Adds topic ids s ((plan a).run s).1) :
    Adds topic ids s (Plan.handle checked plan answer s).1 := by
  rcases hchecked : checked with e | a
  · rw [Plan.handle_of_error rfl]
    exact adds_of_values rfl
  · rw [Plan.handle_of_ok rfl]
    exact h a hchecked

/-- What the other topics have is not a message. -/
theorem ChatTopic.OfMessages.name_ne (h : topic.OfMessages) {t : ChatTopic} (ht : ¬t.OfMessages) :
    topic.name ≠ t.name :=
  fun hname => ht (ChatTopic.name_injective hname ▸ h)

omit [PyFloatInt F] [PyRepr F] in
/-- What a message to the general channel says of itself and of its sender. -/
theorem get_generalMessage {m : String × Dict F} (h : checkGeneral request = .ok m) :
    request.tag = .ok m.1 ∧ messageId m.2 = .ofString request.uuid ∧
      m.2.get "sender_tag" = .ofString m.1 := by
  simp only [checkGeneral, bind_eq_ok] at h
  obtain ⟨tag, htag, body, -, envelope, -, ⟨⟩, -, d, -, h⟩ := h
  obtain rfl := Except.ok.inj h
  exact ⟨htag, Dict.get_ofList rfl, Dict.get_ofList rfl⟩

omit [PyFloatInt F] [PyRepr F] in
theorem messageId_groupMessage {groupId : String} {message : Dict F}
    (h : checkGroupMessage s groupId request = .ok message) :
    messageId message = .ofString request.uuid := by
  simp only [checkGroupMessage, bind_eq_ok] at h
  obtain ⟨_, -, group, -, body, -, envelope, -, ⟨⟩, -, h⟩ := h
  obtain rfl := Except.ok.inj h
  exact Dict.get_ofList rfl

/-- A request appends at most the message whose id it draws. -/
theorem adds_post (htopic : topic.OfMessages) (post : ChatPost F) (uuid_ne : request.uuid ≠ "") :
    Adds topic (ClusterAct.drawnId (W := W) (.post post request uuid_ne)).toList s
      (s.post request post) := by
  have hother (t : ChatTopic) (ht : ¬t.OfMessages) (key : String) (value : Dict F)
      (s : ChatState W F) : Adds topic [] s ((request.publishStep t.name key value).effect s) :=
    adds_publish_other (htopic.name_ne ht) s
  have hevents (key : String) (value : Dict F) (s : ChatState W F) :
      Adds topic [] s ((request.publishStep "network-events" key value).effect s) :=
    adds_publish_other (name_ne_networkEvents topic) s
  cases post with
  | route route =>
    cases route with
    | general =>
      refine adds_handle fun m hchecked => ?_
      refine adds_plan_cons (adds_publish (t := .general) (get_generalMessage hchecked).2.1) ?_
      exact List.forall_mem_cons.2 ⟨hevents _ _, List.forall_mem_nil _⟩
    | privateMessage =>
      refine adds_handle fun m hchecked => ?_
      refine adds_plan_cons
        (adds_publish (t := .privateMessages) (get_privateMessage hchecked).1) ?_
      exact List.forall_mem_cons.2 ⟨hother .delivery not_false _ _,
        List.forall_mem_cons.2 ⟨hevents _ _, List.forall_mem_nil _⟩⟩
    | createGroup =>
      refine adds_handle fun g _ => Adds.mono (adds_plan_nil ?_) (List.nil_sublist _)
      exact List.forall_mem_cons.2 ⟨hother .groupDirectory not_false _ _,
        List.forall_mem_cons.2 ⟨fun _ => adds_of_values rfl,
          List.forall_mem_cons.2 ⟨hevents _ _, List.forall_mem_nil _⟩⟩⟩
    | mlsEvents =>
      refine adds_handle fun m _ => adds_plan_nil ?_
      exact List.forall_mem_cons.2 ⟨hother .mlsEvents not_false _ _,
        List.forall_mem_cons.2 ⟨fun _ => adds_of_values rfl,
          List.forall_mem_cons.2 ⟨hevents _ _, List.forall_mem_nil _⟩⟩⟩
    | ack =>
      refine adds_handle fun m _ => adds_plan_nil ?_
      exact List.forall_mem_cons.2 ⟨hother .delivery not_false _ _,
        List.forall_mem_cons.2 ⟨fun _ => adds_of_values rfl, List.forall_mem_nil _⟩⟩
  | groupMessage groupId =>
    refine adds_handle fun message hchecked => ?_
    exact adds_plan_cons (adds_publish (t := .groups) (messageId_groupMessage hchecked))
      (List.forall_mem_nil _)
  | keyPackage =>
    refine adds_handle fun m _ => adds_plan_nil ?_
    have hname : topic.name ≠ "mls-key-packages" := by cases topic <;> decide
    exact List.forall_mem_cons.2 ⟨adds_publish_other hname,
      List.forall_mem_cons.2 ⟨hevents _ _, List.forall_mem_nil _⟩⟩
  | websocketAck messageId =>
    change Adds topic [] s (websocketAck messageId request s).1
    rw [websocketAck]
    split_ifs
    swap
    · exact adds_of_values rfl
    refine adds_handle fun m _ => adds_plan_nil ?_
    refine List.forall_mem_cons.2 ⟨hother .delivery not_false _ _,
      List.forall_mem_cons.2 ⟨fun s => ?_, List.forall_mem_nil _⟩⟩
    refine adds_of_values (congrFun (values_congr ?_) topic)
    unfold websocketAckStep
    dsimp only
    split
    · split <;> rfl
    · rfl

end

section Runs

variable [DecidableEq W] {as : List (ClusterAct W F)} {s₀ s s' : ChatCluster W F}
  {topic : ChatTopic} {channel : ChatChannel} {request : ChatRequest F} {history : List (Dict F)}

theorem adds_next {act : ClusterAct W F} (htopic : topic.OfMessages)
    (hnext : s.next act = some s') :
    Adds topic act.drawnId.toList s.service s'.service := by
  cases act with
  | post post request uuid_ne =>
    obtain rfl := Option.some.inj hnext
    exact adds_post htopic post uuid_ne
  | consume topic' =>
    obtain ⟨value, hvalue, hnext⟩ := Option.bind_eq_some_iff.1 hnext
    obtain rfl := Option.some.inj hnext
    exact adds_of_values (congrFun (values_congr (records_consume ..)) topic)
  | _ =>
    obtain rfl := Option.some.inj hnext
    exact adds_of_values rfl

/-- A run appends the messages of its requests, in their order. -/
theorem adds_run (htopic : topic.OfMessages) (hrun : (ChatCluster.system W F).Run s as s') :
    Adds topic (as.filterMap ClusterAct.drawnId) s.service s'.service := by
  induction hrun with
  | nil => exact adds_of_values rfl
  | snoc _ hnext ih =>
    rw [List.filterMap_append]
    refine (ih.trans (adds_next htopic hnext)).mono ?_
    rw [List.filterMap_cons, List.filterMap_nil]
    cases ClusterAct.drawnId _ <;> exact List.Sublist.refl _

theorem ChatChannel.ofMessages_topic (channel : ChatChannel) : channel.topic.OfMessages := by
  cases channel <;> trivial

omit [PyFloat F] [PyFloatInt F] [PyRepr F] [DecidableEq W] in
theorem ChatChannel.handled_sublist (channel : ChatChannel) (n : ℕ) :
    (channel.handled s n).Sublist (s.service.values channel.topic) :=
  List.filter_sublist.trans ((List.drop_sublist _ _).trans (List.take_sublist _ _))

/-- A history has the last messages of its channel, in the order in which they were sent, and each
    of them once, whatever has been started again. -/
theorem histories_in_order (h₀ : (ChatCluster.system W F).init s₀)
    (hrun : (ChatCluster.system W F).Run s₀ as s)
    (hhistory : channel.history request s.service = some (.ok history)) :
    history = lastOf channel.limit (channel.handled s 0) ∧
      (history.map messageId).Sublist ((as.filterMap ClusterAct.drawnId).map .ofString) ∧
      (FreshIds as → (history.map messageId).Nodup) := by
  have hhandled := channel.history_eq (ChatCluster.consistent ⟨s₀, as, h₀, hrun⟩) hhistory
  obtain ⟨added, hadded, hsub⟩ := adds_run channel.ofMessages_topic hrun
  obtain rfl := h₀
  have hvalues : s.service.values channel.topic = added := hadded
  have hsublist : (history.map messageId).Sublist
      ((as.filterMap ClusterAct.drawnId).map .ofString) := by
    rw [hhandled, lastOf]
    refine (((List.drop_sublist _ _).trans (channel.handled_sublist 0)).map messageId).trans ?_
    rw [hvalues]
    exact hsub
  refine ⟨hhandled, hsublist, fun hfresh => hsublist.nodup ?_⟩
  exact hfresh.map fun _ _ => Json.ofString_inj.1

/-- Of what alice has written to the general channel. -/
theorem histories_in_order_alice : afterAlice.service.generalHistory ≠ [] ∧
    (afterAlice.service.generalHistory.map messageId).Nodup := by
  have hhistory : ChatChannel.general.history (aliceRequest "5" []) afterAlice.service =
      some (.ok afterAlice.service.generalHistory) := rfl
  exact ⟨by decide, (histories_in_order rfl run_afterAlice hhistory).2.2 (by decide)⟩

end Runs

end SecNet
