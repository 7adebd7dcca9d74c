import SecNet.Chat.GroupPush
import SecNet.Lib.Replica

/-!
# The chat service and its topics

The service publishes what it is given to topics, consumes them itself, each topic in the order of
its log, and answers from its memory, to which its handlers also write what they have just
published, ahead of the consumers. When it starts again it has forgotten everything, and its
consumers begin with the first records, as the names of their groups are new.

* `ChatCluster.next`: a request, a record consumed, a websocket, or a new start;
* `Consistent`: the memory is a replica of the topics, as far as they have been consumed;
* `consistent_next`: every step keeps that;
* `restart_rebuilds`: so a service that has consumed its topics has the memory that they tell, which
  is that of any other that has, before a crash or after it.
-/

namespace SecNet

/-- The topics that the service consumes. -/
inductive ChatTopic
  | general | groups | groupDirectory | delivery | privateMessages | mlsEvents
  deriving DecidableEq

instance : Fintype ChatTopic where
  elems := {.general, .groups, .groupDirectory, .delivery, .privateMessages, .mlsEvents}
  complete topic := by cases topic <;> decide

/-- The name of a topic. -/
def ChatTopic.name : ChatTopic → String
  | general => "chat-general"
  | groups => "chat-groups"
  | groupDirectory => "group-directory"
  | delivery => "delivery-state"
  | privateMessages => "chat-private"
  | mlsEvents => "mls-group-events"

theorem ChatTopic.name_injective : Function.Injective ChatTopic.name := by
  intro t t' h
  cases t <;> cases t' <;> first | rfl | exact absurd h (by decide)

variable {F W : Type} [PyFloat F] [PyFloatInt F] [PyRepr F]

/-! ## Messages to groups -/

omit [PyFloat F] [PyFloatInt F] [PyRepr F] in
/-- `text in v`. -/
def pyIn (text : String) : Json F → Except Exn Bool
  | .arr vs => .ok (vs.any (·.isStr text))
  | .obj ms => .ok (ms.any fun m => m.1 = .ofString text)
  | .str s => .ok (PyStr.ofString text <:+: s)
  | v => .error (.typeError s!"argument of type '{v.typeName}' is not iterable")

/-- The group of a request, of which its sender must be a member. -/
def ChatState.checkMember (s : ChatState W F) (tag groupId : String) : Except Exn (Dict F) := do
  match s.groups (.ofString groupId) with
  | none | some [] => .error (.valueError "unknown group")
  | some group =>
    if ← pyIn tag (group.getD "members" (.arr [])) then return group
    else .error (.permissionError "you are not a member of this group")

/-- `publish_group_message`, up to its `publish`: the message. -/
def checkGroupMessage (s : ChatState W F) (groupId : String) (request : ChatRequest F) :
    Except Exn (Dict F) := do
  let sender ← request.tag
  let _ ← s.checkMember sender groupId
  let body ← request.body
  let envelope ← body.getItem "envelope"
  validateGroupMessageEnvelope envelope
  return Dict.ofList [("message_id", .ofString request.uuid), ("group_id", .ofString groupId),
    ("sender_tag", .ofString sender), ("envelope", envelope),
    ("created_at", .float (request.time 0))]

/-- `publish_group_message`. -/
def publishGroupMessage (groupId : String) (request : ChatRequest F) (s : ChatState W F) :
    ChatState W F × Except Exn (Json F) :=
  Plan.handle (checkGroupMessage s groupId request)
    (fun message => [request.publishStep "chat-groups" groupId message])
    (fun _ => messageIdAnswer request) s

/-! ## Key packages, and acknowledgements on a websocket -/

/-- `publish_key_package`, up to its first `publish`: the tag, and the record of the package. -/
def checkKeyPackage (request : ChatRequest F) : Except Exn (String × Dict F) := do
  let tag ← request.tag
  let body ← (← request.body).asDict
  match body.get "package" with
  | .obj package =>
    if 1000000 < (Json.dumpsSpaced (.obj package)).length then
      .error (.valueError "invalid key package")
    else return (tag, Dict.ofList [("event", .ofString "key_package_published"),
      ("device_tag", .ofString tag), ("package", .obj package),
      ("created_at", .float (request.time 0))])
  | _ => .error (.valueError "invalid key package")

/-- `publish_key_package`. -/
def publishKeyPackage (request : ChatRequest F) (s : ChatState W F) :
    ChatState W F × Except Exn (Json F) :=
  Plan.handle (checkKeyPackage request)
    (fun m => [request.publishStep "mls-key-packages" m.1 m.2,
      request.publishStep "network-events" m.1 (Dict.ofList [
        ("event", .ofString "mls_key_package_changed"), ("device_tag", .ofString m.1),
        ("created_at", .float (request.time 1))])])
    (fun _ => .obj (Dict.ofList [("ok", .bool true)])) s

/-- An acknowledgement that comes on a websocket, of what it has for a message id, up to its
    `publish`: the tag, and the key of the record. -/
def checkWebsocketAck (messageId : Json F) (request : ChatRequest F) :
    Except Exn (String × String) := do
  let tag ← request.tag
  match (pyStr messageId).toText with
  | none => .error .unicodeEncodeError
  | some text => return (tag, deliveryKey tag text)

/-- `self._delivered.add((tag, mid))`, and the `pop` from `_pending`. What is not a string names no
    message. -/
def websocketAckStep (tag : String) (messageId : Json F) : PlanStep Exn (ChatState W F) where
  outcome := match messageId with
    | .arr _ => .error (.typeError "unhashable type: 'list'")
    | .obj _ => .error (.typeError "unhashable type: 'dict'")
    | _ => .ok ()
  effect s := match messageId with
    | .str id => match PyStr.toText id with
      | some id => { s with delivery := s.delivery.ack tag id }
      | none => s
    | _ => s

/-- The loop of `websocket_endpoint`, on an acknowledgement. -/
def websocketAck (messageId : Json F) (request : ChatRequest F) (s : ChatState W F) :
    ChatState W F × Except Exn Unit :=
  if messageId.truth then
    Plan.handle (checkWebsocketAck messageId request)
      (fun m => [request.publishStep "delivery-state" m.2 (Dict.ofList [
          ("state", .ofString "delivered"), ("recipient_tag", .ofString m.1),
          ("message_id", messageId), ("created_at", .float (request.time 0))]),
        websocketAckStep m.1 messageId])
      (fun _ => ()) s
  else (s, .ok ())

/-! ## What is read -/

/-- `general_history`. -/
def generalHistory (request : ChatRequest F) (s : ChatState W F) : Except Exn (List (Dict F)) := do
  let _ ← request.tag
  return s.generalHistory

/-- `pending`. -/
def pending (request : ChatRequest F) (s : ChatState W F) :
    Except Exn (Finmap fun _ : String => PrivateRecord (Dict F)) := do
  let tag ← request.tag
  return s.delivery.pending tag

/-- `group_history`. -/
def groupHistory (groupId : String) (request : ChatRequest F) (s : ChatState W F) :
    Except Exn (List (Dict F)) := do
  let tag ← request.tag
  let _ ← s.checkMember tag groupId
  return s.groupHistory (.ofString groupId)

/-- `mls_state`. -/
def mlsState (request : ChatRequest F) (s : ChatState W F) : Except Exn (Dict F) := do
  let _ ← request.tag
  return s.latestMlsEvent.getD []

/-! ## The service with its topics -/

/-- The requests that publish. -/
inductive ChatPost (F : Type)
  | route (route : Route)
  | groupMessage (groupId : String)
  | keyPackage
  | websocketAck (messageId : Json F)

/-- The service, and how far it has consumed its topics. -/
structure ChatCluster (W F : Type) where
  service : ChatState W F
  position : ChatTopic → ℕ

/-- What happens. -/
inductive ClusterAct (W F : Type)
  | post (post : ChatPost F) (request : ChatRequest F) (uuid_ne : request.uuid ≠ "")
  /-- The consumer of a topic handles the next record. -/
  | consume (topic : ChatTopic)
  | connect (tag : String) (w : W)
  | disconnect (tag : String) (w : W)
  /-- The service starts again. -/
  | restart

/-- Nothing is published. -/
def ClusterAct.Quiet : ClusterAct W F → Prop
  | .post .. => False
  | _ => True

instance : DecidablePred (ClusterAct.Quiet (W := W) (F := F))
  | .post .. => inferInstanceAs (Decidable False)
  | .consume _ | .connect .. | .disconnect .. | .restart => inferInstanceAs (Decidable True)

/-- What the handler of a request does. -/
def ChatState.post (s : ChatState W F) (request : ChatRequest F) : ChatPost F → ChatState W F
  | .route route => (s.handle request route).1
  | .groupMessage groupId => (publishGroupMessage groupId request s).1
  | .keyPackage => (publishKeyPackage request s).1
  | .websocketAck messageId => (SecNet.websocketAck messageId request s).1

/-- What a consumer does, and pushes. -/
def ChatState.consume (s : ChatState W F) (value : Dict F) :
    ChatTopic → ChatState W F × Pushes W F
  | .general => s.consumeGeneral value
  | .groups => s.consumeGroupMessage value
  | .groupDirectory => (s.consumeGroupDirectory value, 0, .ok ())
  | .delivery => (s.consumeDelivery value, 0, .ok ())
  | .privateMessages => s.consumePrivate value
  | .mlsEvents => s.consumeMlsEvent value

/-- The records of a topic. -/
def ChatState.values (s : ChatState W F) (topic : ChatTopic) : List (Dict F) :=
  (s.records topic.name).map Prod.snd

namespace ChatCluster

variable [DecidableEq W]

/-- What happens to the service. -/
def next (s : ChatCluster W F) : ClusterAct W F → Option (ChatCluster W F)
  | .post post request _ => some { s with service := s.service.post request post }
  | .consume topic => do
    let value ← (s.service.values topic)[s.position topic]?
    -- A record whose handling raises is not committed, but the consumer goes on with the next one.
    some ⟨(s.service.consume value topic).1,
      Function.update s.position topic (s.position topic + 1)⟩
  | .connect tag w =>
    some { s with service := { s.service with websockets := s.service.websockets.add tag w } }
  | .disconnect tag w =>
    some { s with service := { s.service with websockets := s.service.websockets.remove tag w } }
  | .restart => some ⟨{ ChatState.new with records := s.service.records }, fun _ => 0⟩

/-- The runs, from empty topics. -/
def system (W F : Type) [PyFloat F] [PyFloatInt F] [PyRepr F] [DecidableEq W] :
    System (ChatCluster W F) (ClusterAct W F) :=
  .ofPartial (· = ⟨.new, fun _ => 0⟩) next

/-- The consumers have come to the ends of the topics. -/
def CaughtUp (s : ChatCluster W F) : Prop :=
  ∀ topic, s.position topic = (s.service.values topic).length

omit [PyFloat F] [PyFloatInt F] [PyRepr F] [DecidableEq W] in
instance (s : ChatCluster W F) : Decidable s.CaughtUp :=
  inferInstanceAs (Decidable (∀ topic, s.position topic = (s.service.values topic).length))

end ChatCluster

/-! ## What the topics tell -/

/-- What the service answers from. -/
structure ChatMemory (F : Type) where
  generalHistory : List (Dict F)
  groups : PyStr → Option (Dict F)
  groupHistory : PyStr → List (Dict F)
  latestMlsEvent : Option (Dict F)
  pending : String × String → Option (PrivateRecord (Dict F))

/-- The memory of the service. -/
def ChatState.memory (s : ChatState W F) : ChatMemory F where
  generalHistory := s.generalHistory
  groups := s.groups
  groupHistory := s.groupHistory
  latestMlsEvent := s.latestMlsEvent
  pending k := (s.delivery.pending k.1).lookup k.2

omit [PyFloat F] [PyFloatInt F] [PyRepr F] in
/-- The group that a record names, if it does. -/
def groupKey (value : Dict F) : Option PyStr :=
  match value.get "group_id" with
  | .str groupId => if groupId = [] then none else some groupId
  | _ => none

/-- The last messages of the general channel and of the groups, the last records of the groups and
    of the group key, and the private messages that no record says have been delivered. -/
def ChatMemory.ofTopics (values : ChatTopic → List (Dict F)) : ChatMemory F where
  generalHistory := lastOf 1000 (values .general)
  groups groupId := latest groupKey (values .groupDirectory) (some groupId)
  groupHistory groupId := lastOf 200 ((values .groups).filter fun v => groupKey v = some groupId)
  latestMlsEvent := (values .mlsEvents).getLast?
  pending k :=
    if ∃ v ∈ values .delivery, (deliveryRecord v).pair = some k then none
    else (latest (fun v => (privateRecord v).pair) (values .privateMessages) (some k)).map
      privateRecord

/-! ## The memory as a replica -/

/-- A message is added to the history of its group. -/
def addToHistory (histories : PyStr → List (Dict F)) (value : Dict F) : PyStr → List (Dict F) :=
  match groupKey value with
  | some groupId =>
    Function.update histories groupId (lastOf 200 (histories groupId ++ [value]))
  | none => histories

/-- The pair that a record of `delivery-state` says has been delivered. -/
def deliveredPair (value : Dict F) : Option (String × String) := (deliveryRecord value).pair

/-- The pair of a private message. -/
def privatePair (value : Dict F) : Option (String × String) := (privateRecord value).pair

omit [PyFloat F] [PyFloatInt F] [PyRepr F] in
/-- The pairs of texts that are not empty which have been delivered. -/
def deliveredOf {V : Type} (s : DeliveryState V) (k : String × String) : Option Unit :=
  if (k.1 ≠ "" ∧ k.2 ≠ "") ∧ k ∈ s.delivered then some () else none

/-- What the memory has of the log of a topic, of which some records have been consumed. Only the
    records of the groups, of the group key and of the deliveries are written ahead. -/
def ChatState.Reflects (s : ChatState W F) (log : List (Dict F)) (n : ℕ) : ChatTopic → Prop
  | .general => Replica (fun history value => lastOf 1000 (history ++ [value])) []
    (fun _ => False) log n s.generalHistory
  | .groups => Replica addToHistory (fun _ => []) (fun _ => False) log n s.groupHistory
  | .groupDirectory => Replica (Replica.put groupKey id) (fun _ => none) (fun _ => True) log n
    s.groups
  | .delivery => Replica (Replica.put deliveredPair fun _ => ()) (fun _ => none) (fun _ => True)
    log n (deliveredOf s.delivery)
  | .privateMessages => n ≤ log.length ∧ ∀ k, s.memory.pending k =
    if k ∈ s.delivery.delivered then none
    else (latest privatePair (log.take n) (some k)).map privateRecord
  | .mlsEvents => Replica (Replica.put (fun _ => some ()) id) (fun _ => none) (fun _ => True) log n
    fun _ => s.latestMlsEvent

/-- The memory is a replica of the topics. -/
def Consistent (s : ChatState W F) (position : ChatTopic → ℕ) : Prop :=
  ∀ topic, s.Reflects (s.values topic) (position topic) topic

variable {s s' : ChatState W F} {position : ChatTopic → ℕ} {topic : ChatTopic} {key : String}
  {value : Dict F} {request : ChatRequest F}

omit [PyFloat F] [PyFloatInt F] [PyRepr F] in
theorem values_congr {s s' : ChatState W F} (h : s'.records = s.records) :
    s'.values = s.values := by
  unfold ChatState.values
  rw [h]

omit [PyFloat F] [PyFloatInt F] [PyRepr F] in
theorem values_append (s : ChatState W F) (name key : String) (value : Dict F)
    (topic : ChatTopic) : (s.append name key value).values topic =
      s.values topic ++ if topic.name = name then [value] else [] := by
  rw [ChatState.values, ChatState.values, ChatState.append]
  by_cases h : topic.name = name
  · simp [h]
  · simp [h]

omit [PyFloat F] [PyFloatInt F] [PyRepr F] in
/-- What is appended to a log has not been consumed. -/
theorem reflects_append {log : List (Dict F)} {n : ℕ} (h : s.Reflects log n topic)
    (value : Dict F) : s.Reflects (log ++ [value]) n topic := by
  cases topic with
  | privateMessages =>
    refine ⟨?_, fun k => ?_⟩
    · rw [List.length_append]
      exact h.1.trans (Nat.le_add_right _ _)
    · rw [List.take_append_of_le_length h.1]
      exact h.2 k
  | _ => exact h.append value

omit [PyFloat F] [PyFloatInt F] [PyRepr F] in
theorem Consistent.append (h : Consistent s position) (name key : String) (value : Dict F) :
    Consistent (s.append name key value) position := by
  intro topic
  have htopic : s.Reflects ((s.append name key value).values topic) (position topic) topic := by
    rw [values_append]
    split_ifs
    · exact reflects_append (h topic) value
    · rw [List.append_nil]
      exact h topic
  cases topic <;> exact htopic

omit [PyFloat F] [PyFloatInt F] [PyRepr F] in
/-- No consumer is ahead of its topic. -/
theorem Consistent.le_length (h : Consistent s position) (topic : ChatTopic) :
    position topic ≤ (s.values topic).length := by
  have htopic := h topic
  cases topic with
  | privateMessages => exact htopic.1
  | _ => exact Replica.le_length htopic

omit [PyFloat F] [PyFloatInt F] [PyRepr F] in
/-- What a plan that only publishes leaves. -/
theorem Consistent.handle {α β : Type} {checked : Except Exn α}
    {plan : α → Plan Exn (ChatState W F)} {answer : α → β} (h : Consistent s position)
    (hplan : ∀ a, checked = .ok a → Consistent ((plan a).run s).1 position) :
    Consistent (Plan.handle checked plan answer s).1 position := by
  rcases hchecked : checked with e | a
  · rw [Plan.handle_of_error rfl]
    exact h
  · rw [Plan.handle_of_ok rfl]
    exact hplan a hchecked

/-- The steps that publish. -/
def ChatRequest.Publishes (request : ChatRequest F) (x : PlanStep Exn (ChatState W F)) : Prop :=
  ∃ topic key value, x = request.publishStep topic key value

omit [PyFloat F] [PyFloatInt F] [PyRepr F] in
/-- What is only published is not in the memory yet. -/
theorem Consistent.run_publish {p : Plan Exn (ChatState W F)} (h : Consistent s position)
    (hp : ∀ x ∈ p, request.Publishes x) : Consistent (p.run s).1 position := by
  refine Plan.run_invariant (I := fun s => Consistent s position) (fun x hx s hs => ?_) h
  obtain ⟨topic, key, value, rfl⟩ := hp x hx
  exact hs.append topic key value

omit [PyFloat F] [PyFloatInt F] [PyRepr F] in
/-- What is published, and then written to the memory. -/
theorem Consistent.run_write {name : String} {write : ChatState W F → ChatState W F}
    {p : Plan Exn (ChatState W F)} (h : Consistent s position)
    (hwrite : Consistent (write (s.append name key value)) position)
    (hp : ∀ x ∈ p, request.Publishes x) :
    Consistent (Plan.run s (request.publishStep name key value :: memoryStep write :: p)).1
      position := by
  rcases hpublish : request.publish name with e | ⟨⟩
  · rw [Plan.run_cons_of_error hpublish]
    exact h
  · rw [Plan.run_cons_of_ok hpublish, Plan.run_cons_of_ok rfl]
    exact hwrite.run_publish hp

omit [PyFloat F] [PyFloatInt F] [PyRepr F] in
theorem publishes_publishStep (request : ChatRequest F) (name key : String) (value : Dict F) :
    request.Publishes (W := W) (request.publishStep name key value) := ⟨name, key, value, rfl⟩

/-! ## What is written ahead -/

omit [PyFloat F] [PyFloatInt F] [PyRepr F] in
theorem values_append_self (s : ChatState W F) (key : String) (value : Dict F)
    (topic : ChatTopic) : (s.append topic.name key value).values topic =
      s.values topic ++ [value] := by
  rw [values_append, if_pos rfl]

omit [PyFloat F] [PyFloatInt F] [PyRepr F] in
/-- A group that is created is in the memory before its record has been consumed. -/
theorem Consistent.write_group (h : Consistent s position) {groupId : PyStr}
    (hvalue : groupKey value = some groupId) :
    Consistent { s.append "group-directory" key value with
      groups := Function.update s.groups groupId (some value) } position := by
  have hgroups := (h .groupDirectory).append_write (r := value) trivial
  rw [Replica.put, hvalue, ← values_append_self s key value .groupDirectory] at hgroups
  intro topic
  have happend := h.append "group-directory" key value topic
  cases topic with
  | groupDirectory => exact hgroups
  | _ => exact happend

omit [PyFloat F] [PyFloatInt F] [PyRepr F] in
/-- So is an event of the group key. -/
theorem Consistent.write_mlsEvent (h : Consistent s position) :
    Consistent { s.append "mls-group-events" key value with latestMlsEvent := some value }
      position := by
  have hevent := (h .mlsEvents).append_write (r := value) trivial
  have hput : Replica.put (fun _ => some ()) id (fun _ => s.latestMlsEvent) value =
      fun _ => some value := funext fun _ => Replica.put_of_key rfl
  rw [hput, ← values_append_self s key value .mlsEvents] at hevent
  intro topic
  have happend := h.append "mls-group-events" key value topic
  cases topic with
  | mlsEvents => exact hevent
  | _ => exact happend

omit [PyFloat F] [PyFloatInt F] [PyRepr F] in
/-- The pairs after one has been delivered, of which a record tells if it is of texts that are not
    empty. -/
theorem deliveredOf_deliver {V : Type} (d : DeliveryState V) {r m : String}
    (hpair : ∀ k, deliveredPair value = some k ↔ (k.1 ≠ "" ∧ k.2 ≠ "") ∧ k = (r, m)) :
    deliveredOf (d.deliver r m) =
      Replica.put deliveredPair (fun _ => ()) (deliveredOf d) value := by
  funext k
  by_cases hkey : deliveredPair value = some k
  · obtain ⟨hne, rfl⟩ := (hpair k).1 hkey
    rw [Replica.put_of_key hkey]
    exact if_pos ⟨hne, Finset.mem_insert_self _ _⟩
  · rw [Replica.put_of_key_ne hkey]
    refine if_congr (and_congr_right fun hne => ?_) rfl rfl
    exact Finset.mem_insert.trans (or_iff_right fun hk => hkey ((hpair k).2 ⟨hne, hk⟩))

omit [PyFloat F] [PyFloatInt F] [PyRepr F] in
/-- What is pending after a message has been delivered. -/
theorem pending_deliver {V : Type} {d : DeliveryState V} {r m : String}
    {stored : String × String → Option (PrivateRecord V)}
    (h : ∀ k, (d.pending k.1).lookup k.2 = if k ∈ d.delivered then none else stored k)
    (k : String × String) : ((d.deliver r m).pending k.1).lookup k.2 =
      if k ∈ (d.deliver r m).delivered then none else stored k := by
  rw [DeliveryState.lookup_deliver, h k, ← ite_or]
  exact if_congr Finset.mem_insert.symm rfl rfl

omit [PyFloat F] [PyFloatInt F] [PyRepr F] in
/-- A message that is acknowledged is delivered before its record has been consumed. -/
theorem Consistent.write_ack (h : Consistent s position) {tag messageId : String}
    (hpair : ∀ k, deliveredPair value = some k ↔
      (k.1 ≠ "" ∧ k.2 ≠ "") ∧ k = (tag, messageId)) :
    Consistent { s.append "delivery-state" key value with
      delivery := s.delivery.ack tag messageId } position := by
  have hdelivered := (h .delivery).append_write (r := value) trivial
  rw [← deliveredOf_deliver s.delivery hpair, ← values_append_self s key value .delivery]
    at hdelivered
  intro topic
  have happend := h.append "delivery-state" key value topic
  cases topic with
  | delivery => exact hdelivered
  | privateMessages => exact ⟨happend.1, pending_deliver happend.2⟩
  | _ => exact happend

omit [PyFloat F] [PyFloatInt F] [PyRepr F] in
theorem Json.ofString_inj {text text' : String} :
    Json.ofString (F := F) text = .ofString text' ↔ text = text' :=
  ⟨fun h => ofString_injective (Json.str.inj h), congrArg _⟩

omit [PyFloat F] [PyFloatInt F] [PyRepr F] in
theorem Dict.text_eq_some {key text : String} :
    value.text key = some text ↔ value.get key = .ofString text := by
  rw [Dict.text]
  split
  · next s hs =>
    rw [hs, PyStr.toText_eq_some]
    exact ⟨congrArg Json.str, Json.str.inj⟩
  · next hne => exact iff_of_false nofun fun h => hne _ h

omit [PyFloat F] [PyFloatInt F] [PyRepr F] in
theorem deliveredPair_eq_some {k : String × String} :
    deliveredPair value = some k ↔ value.get "state" = .ofString "delivered" ∧
      (value.get "recipient_tag" = .ofString k.1 ∧ k.1 ≠ "") ∧
        value.get "message_id" = .ofString k.2 ∧ k.2 ≠ "" := by
  rw [deliveredPair, DeliveryRecord.pair, ← Dict.text_eq_some, ← Dict.text_eq_some,
    ← Dict.text_eq_some, ← bothTrue_eq_some]
  exact Option.ite_none_right_eq_some

omit [PyFloat F] [PyFloatInt F] [PyRepr F] in
/-- The pair of a record of an acknowledgement. -/
theorem deliveredPair_of_get {tag messageId : String} {k : String × String}
    (hstate : value.get "state" = .ofString "delivered")
    (htag : value.get "recipient_tag" = .ofString tag)
    (hid : value.get "message_id" = .ofString messageId) :
    deliveredPair value = some k ↔ (k.1 ≠ "" ∧ k.2 ≠ "") ∧ k = (tag, messageId) := by
  simp only [deliveredPair_eq_some, hstate, htag, hid, Json.ofString_inj]
  constructor
  · rintro ⟨-, ⟨rfl, hr⟩, rfl, hm⟩
    exact ⟨⟨hr, hm⟩, rfl⟩
  · rintro ⟨⟨hr, hm⟩, rfl⟩
    exact ⟨trivial, ⟨rfl, hr⟩, rfl, hm⟩

/-! ## Requests -/

omit [PyFloatInt F] [PyRepr F] in
theorem Consistent.post_general (h : Consistent s position) :
    Consistent (publishGeneral request s).1 position :=
  h.handle fun _ _ => h.run_publish (by
    simp only [generalPlan, List.forall_mem_cons]
    exact ⟨publishes_publishStep .., publishes_publishStep .., List.forall_mem_nil _⟩)

omit [PyFloatInt F] in
theorem Consistent.post_private (h : Consistent s position) :
    Consistent (publishPrivate request s).1 position :=
  h.handle fun _ _ => h.run_publish (by
    simp only [privatePlan, List.forall_mem_cons]
    exact ⟨publishes_publishStep .., publishes_publishStep .., publishes_publishStep ..,
      List.forall_mem_nil _⟩)

omit [PyFloat F] [PyFloatInt F] in
theorem Consistent.post_createGroup (h : Consistent s position) (uuid_ne : request.uuid ≠ "") :
    Consistent (createGroup request s).1 position := by
  refine h.handle fun g _ => h.run_write (h.write_group ?_) ?_
  · have hid : (g.record request).get "group_id" = .ofString request.uuid := Dict.get_ofList rfl
    rw [groupKey, hid]
    exact if_neg (ofString_ne_nil uuid_ne)
  · exact List.forall_mem_cons.2 ⟨publishes_publishStep .., List.forall_mem_nil _⟩

omit [PyRepr F] in
theorem Consistent.post_mlsEvents (h : Consistent s position) :
    Consistent (handleMlsEvent request s).1 position :=
  h.handle fun _ _ => h.run_write h.write_mlsEvent
    (List.forall_mem_cons.2 ⟨publishes_publishStep .., List.forall_mem_nil _⟩)

omit [PyFloat F] [PyFloatInt F] in
theorem Consistent.post_ack (h : Consistent s position) :
    Consistent (ack request s).1 position :=
  h.handle fun _ _ => h.run_write
    (h.write_ack fun _ => deliveredPair_of_get (Dict.get_ofList rfl) (Dict.get_ofList rfl)
      (Dict.get_ofList rfl)) (List.forall_mem_nil _)

omit [PyFloat F] [PyFloatInt F] [PyRepr F] in
/-- A message id that is a string. -/
theorem websocketAckStep_ofString (tag messageId : String) :
    websocketAckStep (W := W) (F := F) tag (.ofString messageId) =
      memoryStep fun s => { s with delivery := s.delivery.ack tag messageId } := by
  unfold websocketAckStep memoryStep Json.ofString
  simp only [PyStr.toText_ofString]

omit [PyFloatInt F] in
theorem Consistent.post_websocketAck (h : Consistent s position) (messageId : Json F) :
    Consistent (websocketAck messageId request s).1 position := by
  rw [websocketAck]
  split_ifs
  swap
  · exact h
  refine h.handle fun m hm => ?_
  by_cases hstr : ∃ id, messageId = .str id
  · -- The key of the record has been made, so the id can be encoded.
    obtain ⟨id, rfl⟩ := hstr
    simp only [checkWebsocketAck, bind_eq_ok] at hm
    obtain ⟨tag, -, hm⟩ := hm
    split at hm
    · cases hm
    · next text htext =>
      obtain rfl := Except.ok.inj hm
      obtain rfl := PyStr.toText_eq_some.1 htext
      rw [← Json.ofString, websocketAckStep_ofString]
      exact h.run_write (h.write_ack fun _ => deliveredPair_of_get (Dict.get_ofList rfl)
        (Dict.get_ofList rfl) (Dict.get_ofList rfl)) (List.forall_mem_nil _)
  · -- Nothing is changed for another one, whether or not it can be hashed.
    refine Plan.run_invariant (I := fun s => Consistent s position) (fun x hx s hs => ?_) h
    rcases List.mem_pair.1 hx with rfl | rfl
    · exact Consistent.append hs _ _ _
    · cases messageId with
      | str id => exact absurd ⟨id, rfl⟩ hstr
      | _ => exact hs

/-- A request. -/
theorem Consistent.post (h : Consistent s position) (uuid_ne : request.uuid ≠ "")
    (post : ChatPost F) : Consistent (s.post request post) position := by
  cases post with
  | route route =>
    cases route with
    | general => exact h.post_general
    | privateMessage => exact h.post_private
    | createGroup => exact h.post_createGroup uuid_ne
    | mlsEvents => exact h.post_mlsEvents
    | ack => exact h.post_ack
  | groupMessage groupId =>
    exact h.handle fun _ _ =>
      h.run_publish (List.forall_mem_cons.2 ⟨publishes_publishStep .., List.forall_mem_nil _⟩)
  | keyPackage =>
    exact h.handle fun _ _ => h.run_publish (List.forall_mem_cons.2
      ⟨publishes_publishStep request .., List.forall_mem_cons.2
        ⟨publishes_publishStep .., List.forall_mem_nil _⟩⟩)
  | websocketAck messageId => exact h.post_websocketAck messageId

/-! ## Consumers -/

omit [PyFloat F] [PyFloatInt F] [PyRepr F] in
/-- Groups without names are ignored. -/
theorem groupKey_eq_some {groupId : PyStr} :
    groupKey value = some groupId ↔ value.get "group_id" = .str groupId ∧ groupId ≠ [] := by
  rw [groupKey]
  split
  · next id hid =>
    rw [hid]
    split_ifs with hnil
    · exact iff_of_false nofun fun h => h.2 (Json.str.inj h.1 ▸ hnil)
    · constructor
      · rintro ⟨rfl⟩
        exact ⟨rfl, hnil⟩
      · rintro ⟨⟨rfl⟩, -⟩
        rfl
  · next hne => exact iff_of_false nofun fun h => hne _ h.1

omit [PyFloatInt F] [PyRepr F] in
theorem groupHistory_consumeGroupMessage (s : ChatState W F) (value : Dict F) :
    (s.consumeGroupMessage value).1 =
      { s with groupHistory := addToHistory s.groupHistory value } := by
  rw [ChatState.consumeGroupMessage, addToHistory]
  split
  · next groupId hid =>
    split_ifs with hnil
    · rw [groupKey, hid]
      dsimp only
      rw [if_pos hnil]
    · rw [groupKey_eq_some.2 ⟨hid, hnil⟩]
  · next hne =>
    have hnone : groupKey value = none := Option.eq_none_iff_forall_ne_some.2
      fun groupId h => hne groupId (groupKey_eq_some.1 h).1
    rw [hnone]

omit [PyFloat F] [PyFloatInt F] [PyRepr F] in
theorem groups_consumeGroupDirectory (s : ChatState W F) (value : Dict F) :
    s.consumeGroupDirectory value =
      { s with groups := Replica.put groupKey id s.groups value } := by
  rw [ChatState.consumeGroupDirectory, Replica.put]
  split
  · next groupId hid =>
    split_ifs with hnil
    · rw [groupKey, hid]
      dsimp only
      rw [if_pos hnil]
    · rw [groupKey_eq_some.2 ⟨hid, hnil⟩]
      rfl
  · next hne =>
    have hnone : groupKey value = none := Option.eq_none_iff_forall_ne_some.2
      fun groupId h => hne groupId (groupKey_eq_some.1 h).1
    rw [hnone]

omit [PyFloat F] [PyFloatInt F] [PyRepr F] in
theorem deliveredOf_consumeDelivery (s : ChatState W F) (value : Dict F) :
    deliveredOf (s.consumeDelivery value).delivery =
      Replica.put deliveredPair (fun _ => ()) (deliveredOf s.delivery) value := by
  rw [ChatState.consumeDelivery, DeliveryState.consumeDelivery]
  dsimp only
  split
  · next hnone =>
    rw [Replica.put, deliveredPair, hnone]
  · next r m hpair =>
    refine deliveredOf_deliver s.delivery fun k => ⟨fun h => ?_, ?_⟩
    · obtain ⟨-, ⟨-, hr⟩, -, hm⟩ := deliveredPair_eq_some.1 h
      exact ⟨⟨hr, hm⟩, (Option.some.inj (hpair.symm.trans h)).symm⟩
    · rintro ⟨-, rfl⟩
      exact hpair

omit [PyFloat F] [PyFloatInt F] [PyRepr F] in
theorem pending_consumeDelivery {V : Type} {d : DeliveryState V}
    {stored : String × String → Option (PrivateRecord V)}
    (h : ∀ k, (d.pending k.1).lookup k.2 = if k ∈ d.delivered then none else stored k)
    (value : DeliveryRecord) (k : String × String) :
    ((d.consumeDelivery value).pending k.1).lookup k.2 =
      if k ∈ (d.consumeDelivery value).delivered then none else stored k := by
  rcases hpair : value.pair with _ | ⟨r, m⟩
  · simp only [DeliveryState.consumeDelivery, hpair]
    exact h k
  · simp only [DeliveryState.consumeDelivery, hpair]
    exact pending_deliver h k

theorem delivered_consumePrivate {V : Type} (d : DeliveryState V) (value : PrivateRecord V) :
    (d.consumePrivate value).delivered = d.delivered := by
  rw [DeliveryState.consumePrivate]
  split
  · rfl
  · split_ifs <;> rfl

omit [PyFloat F] [PyFloatInt F] [PyRepr F] in
theorem deliveredOf_consumePrivate {V : Type} (d : DeliveryState V) (value : PrivateRecord V) :
    deliveredOf (d.consumePrivate value) = deliveredOf d := by
  unfold deliveredOf
  rw [delivered_consumePrivate]

/-- What is pending after a message has been consumed. -/
theorem pending_consumePrivate {V : Type} {d : DeliveryState V}
    {stored : String × String → Option (PrivateRecord V)}
    (h : ∀ k, (d.pending k.1).lookup k.2 = if k ∈ d.delivered then none else stored k)
    (value : PrivateRecord V) (k : String × String) :
    ((d.consumePrivate value).pending k.1).lookup k.2 = if k ∈ d.delivered then none
      else if value.pair = some k then some value else stored k := by
  rw [DeliveryState.consumePrivate]
  split
  · next hnone =>
    rw [h k, hnone, if_neg (Option.some_ne_none k).symm]
  · next r m hpair =>
    rw [hpair]
    by_cases hmem : (r, m) ∈ d.delivered
    · -- It has been delivered, and is not stored.
      rw [if_pos hmem, h k]
      refine if_ctx_congr Iff.rfl (fun _ => rfl) fun hk => (if_neg ?_).symm
      rintro ⟨rfl⟩
      exact hk hmem
    · rw [if_neg hmem, DeliveryState.lookup_store, h k]
      by_cases hk : k = (r, m)
      · rw [hk, if_pos rfl, if_neg hmem, if_pos rfl]
      · rw [if_neg hk, if_neg fun h => hk (Option.some.inj h).symm]

omit [PyFloatInt F] [PyRepr F] in
theorem delivery_consumePrivate (s : ChatState W F) (value : Dict F) :
    (s.consumePrivate value).1 =
      { s with delivery := s.delivery.consumePrivate (privateRecord value) } := by
  rw [ChatState.consumePrivate]
  split
  · next hnone =>
    rw [DeliveryState.consumePrivate, hnone]
  · next r m hpair =>
    split_ifs with hmem
    · rw [DeliveryState.consumePrivate, hpair]
      dsimp only
      rw [if_pos hmem]
    · rfl

omit [PyFloatInt F] [PyRepr F] in
/-- Consumers publish nothing. -/
theorem records_consume (s : ChatState W F) (value : Dict F) (topic : ChatTopic) :
    (s.consume value topic).1.records = s.records := by
  cases topic with
  | general => rw [ChatState.consume, ChatState.consumeGeneral]
  | groups =>
    rw [ChatState.consume, groupHistory_consumeGroupMessage]
  | groupDirectory =>
    rw [ChatState.consume, groups_consumeGroupDirectory]
  | privateMessages =>
    rw [ChatState.consume, delivery_consumePrivate]
  | _ => rfl

omit [PyFloatInt F] [PyRepr F] in
/-- What a consumer does with a record. -/
theorem reflects_consume {log : List (Dict F)} {n : ℕ} (h : s.Reflects log n topic)
    (hvalue : log[n]? = some value) : (s.consume value topic).1.Reflects log (n + 1) topic := by
  cases topic with
  | general =>
    simp only [ChatState.consume, ChatState.consumeGeneral, ChatState.Reflects] at h ⊢
    exact h.read hvalue
  | groups =>
    rw [ChatState.consume, groupHistory_consumeGroupMessage]
    exact h.read hvalue
  | groupDirectory =>
    rw [ChatState.consume, groups_consumeGroupDirectory]
    exact h.read hvalue
  | delivery =>
    rw [ChatState.consume, ChatState.Reflects, deliveredOf_consumeDelivery]
    exact h.read hvalue
  | privateMessages =>
    refine ⟨(List.getElem?_eq_some_iff.1 hvalue).1, fun k => ?_⟩
    rw [ChatState.consume, delivery_consumePrivate, List.take_add_one, hvalue, Option.toList_some,
      latest_concat, apply_ite (Option.map _)]
    simp only [delivered_consumePrivate]
    exact pending_consumePrivate h.2 (privateRecord value) k
  | mlsEvents =>
    have hput : Replica.put (fun _ => some ()) id (fun _ => s.latestMlsEvent) value =
        fun _ => some value := funext fun _ => Replica.put_of_key rfl
    have hread := h.read hvalue
    rw [hput] at hread
    exact hread

omit [PyFloatInt F] [PyRepr F] in
/-- What a consumer does with a record changes nothing of what the memory has of another topic. -/
theorem reflects_consume_of_ne {topic' : ChatTopic} {log : List (Dict F)} {n : ℕ}
    (hne : topic' ≠ topic) (h : s.Reflects log n topic') :
    (s.consume value topic).1.Reflects log n topic' := by
  cases topic with
  | general =>
    have hframe (history : List (Dict F)) :
        ({ s with generalHistory := history } : ChatState W F).Reflects log n topic' := by
      cases topic' <;> first | exact (hne rfl).elim | exact h
    exact hframe (lastOf 1000 (s.generalHistory ++ [value]))
  | groups =>
    rw [ChatState.consume, groupHistory_consumeGroupMessage]
    cases topic' <;> first | exact (hne rfl).elim | exact h
  | groupDirectory =>
    rw [ChatState.consume, groups_consumeGroupDirectory]
    cases topic' <;> first | exact (hne rfl).elim | exact h
  | delivery =>
    rw [ChatState.consume, ChatState.consumeDelivery]
    cases topic' with
    | delivery => exact (hne rfl).elim
    | privateMessages => exact ⟨h.1, pending_consumeDelivery h.2 _⟩
    | _ => exact h
  | privateMessages =>
    rw [ChatState.consume, delivery_consumePrivate]
    cases topic' with
    | delivery =>
      rwa [ChatState.Reflects, deliveredOf_consumePrivate]
    | privateMessages => exact (hne rfl).elim
    | _ => exact h
  | mlsEvents => cases topic' <;> first | exact (hne rfl).elim | exact h

omit [PyFloatInt F] [PyRepr F] in
/-- A consumer handles the next record of its topic. -/
theorem Consistent.consume (h : Consistent s position)
    (hvalue : (s.values topic)[position topic]? = some value) :
    Consistent (s.consume value topic).1
      (Function.update position topic (position topic + 1)) := by
  intro topic'
  have hvalues : (s.consume value topic).1.values topic' = s.values topic' :=
    congrArg (fun records => (records topic'.name).map Prod.snd) (records_consume s value topic)
  rw [hvalues]
  by_cases hne : topic' = topic
  · subst hne
    rw [Function.update_self]
    exact reflects_consume (h topic') hvalue
  · rw [Function.update_of_ne hne]
    exact reflects_consume_of_ne hne (h topic')

/-! ## Runs -/

omit [PyFloat F] [PyFloatInt F] [PyRepr F] in
/-- A service that has just started has consumed nothing. -/
theorem consistent_new (records : String → List (String × Dict F)) :
    Consistent ({ ChatState.new with records := records } : ChatState W F) fun _ => 0 := by
  intro topic
  cases topic with
  | privateMessages => exact ⟨Nat.zero_le _, fun _ => rfl⟩
  | delivery =>
    have hnone : deliveredOf (V := Dict F) .new = fun _ => none :=
      funext fun k => if_neg fun h => Finset.notMem_empty k h.2
    rw [ChatState.Reflects, ChatState.new, hnone]
    exact .start _
  | mlsEvents => exact .start _
  | _ => exact .start _

section Runs

variable [DecidableEq W] {s s' : ChatCluster W F}

/-- Every step keeps the memory a replica of the topics. -/
theorem ChatCluster.consistent_next {act : ClusterAct W F} (hnext : s.next act = some s')
    (h : Consistent s.service s.position) : Consistent s'.service s'.position := by
  cases act with
  | post post request uuid_ne =>
    obtain rfl := Option.some.inj hnext
    exact h.post uuid_ne post
  | consume topic =>
    obtain ⟨value, hvalue, hnext⟩ := Option.bind_eq_some_iff.1 hnext
    obtain rfl := Option.some.inj hnext
    exact h.consume hvalue
  | connect tag w =>
    obtain rfl := Option.some.inj hnext
    intro topic
    have htopic := h topic
    cases topic <;> exact htopic
  | disconnect tag w =>
    obtain rfl := Option.some.inj hnext
    intro topic
    have htopic := h topic
    cases topic <;> exact htopic
  | restart =>
    obtain rfl := Option.some.inj hnext
    exact consistent_new _

theorem ChatCluster.consistent (h : (system W F).Reachable s) :
    Consistent s.service s.position :=
  h.invariant (I := fun s => Consistent s.service s.position)
    (fun _ h => h ▸ consistent_new _) fun _ _ _ h hnext => consistent_next hnext h

end Runs

/-! ## What has been consumed to its end -/

/-- Of the last values and one more, the last ones are those of all values. -/
theorem lastOf_lastOf_concat {α : Type} (n : ℕ) (l : List α) (a : α) :
    lastOf n (lastOf n l ++ [a]) = lastOf n (l ++ [a]) := by
  have hdrop : lastOf n l ++ [a] = (l ++ [a]).drop (l.length - n) :=
    (List.drop_append_of_le_length (Nat.sub_le _ _)).symm
  rw [lastOf, hdrop, List.drop_drop, lastOf, List.length_drop, List.length_append,
    List.length_singleton]
  congr 1
  omega

theorem foldl_lastOf {α : Type} (n : ℕ) (l : List α) :
    l.foldl (fun history value => lastOf n (history ++ [value])) [] = lastOf n l := by
  induction l using List.reverseRecOn with
  | nil => exact List.drop_nil.symm
  | append_singleton l v ih =>
    rw [List.foldl_append, List.foldl_cons, List.foldl_nil, ih, lastOf_lastOf_concat]

omit [PyFloat F] [PyFloatInt F] [PyRepr F] in
theorem addToHistory_apply (histories : PyStr → List (Dict F)) (value : Dict F)
    (groupId : PyStr) : addToHistory histories value groupId =
      if groupKey value = some groupId then lastOf 200 (histories groupId ++ [value])
      else histories groupId := by
  rcases hkey : groupKey value with _ | id
  · rw [addToHistory, hkey, if_neg (Option.some_ne_none groupId).symm]
  · rw [addToHistory, hkey]
    dsimp only
    rw [Function.update_apply]
    by_cases h : groupId = id
    · rw [if_pos h, if_pos (congrArg some h.symm), h]
    · rw [if_neg h, if_neg fun hsome => h (Option.some.inj hsome).symm]

omit [PyFloat F] [PyFloatInt F] [PyRepr F] in
theorem foldl_addToHistory (l : List (Dict F)) (groupId : PyStr) :
    l.foldl addToHistory (fun _ => []) groupId =
      lastOf 200 (l.filter fun v => groupKey v = some groupId) := by
  induction l using List.reverseRecOn with
  | nil => exact List.drop_nil.symm
  | append_singleton l v ih =>
    rw [List.foldl_append, List.foldl_cons, List.foldl_nil, addToHistory_apply, ih,
      List.filter_append, List.filter_singleton]
    split_ifs with hkey
    · rw [lastOf_lastOf_concat, decide_eq_true hkey, cond_true]
    · rw [decide_eq_false hkey, cond_false, List.append_nil]

/-- The position is the end of the log. -/
theorem drop_of_eq_length {α : Type} {l : List α} {n : ℕ} (h : n = l.length) : l.drop n = [] := by
  rw [h, List.drop_length]

omit [PyFloat F] [PyFloatInt F] [PyRepr F] in
/-- A pair has been delivered when a record says so. -/
theorem mem_delivered_iff (h : Consistent s position)
    (hposition : position .delivery = (s.values .delivery).length) {k : String × String}
    (hk : k.1 ≠ "" ∧ k.2 ≠ "") :
    k ∈ s.delivery.delivered ↔ ∃ v ∈ s.values .delivery, deliveredPair v = some k := by
  have hlatest : deliveredOf s.delivery k =
      (latest deliveredPair (s.values .delivery) (some k)).map fun _ => () :=
    (h .delivery).latest_eq (by
      rw [drop_of_eq_length hposition]
      nofun)
  have hmem : k ∈ s.delivery.delivered ↔ deliveredOf s.delivery k ≠ none := by
    rw [deliveredOf]
    split_ifs with h
    · exact iff_of_true h.2 nofun
    · exact iff_of_false (fun hmem => h ⟨hk, hmem⟩) fun hne => hne rfl
  rw [hmem, hlatest, ne_eq, Option.map_eq_none_iff, latest_eq_none]
  push Not
  rfl

omit [PyFloat F] [PyFloatInt F] [PyRepr F] in
/-- The messages that are pending are those that no record says have been delivered. -/
theorem pending_eq (h : Consistent s position)
    (hposition : ∀ topic, position topic = (s.values topic).length) (k : String × String) :
    s.memory.pending k = (ChatMemory.ofTopics s.values).pending k := by
  rw [(h .privateMessages).2 k, ChatMemory.ofTopics, hposition, List.take_length]
  by_cases hk : k.1 ≠ "" ∧ k.2 ≠ ""
  · exact if_congr (mem_delivered_iff h (hposition _) hk) rfl rfl
  · -- No message has the pair.
    have hnone : latest privatePair (s.values .privateMessages) (some k) = none := by
      refine latest_eq_none.2 fun v _ hv => hk ?_
      obtain ⟨⟨-, hr⟩, -, hm⟩ := bothTrue_eq_some.1 hv
      exact ⟨hr, hm⟩
    have hlatest : latest (fun v => (privateRecord v).pair) (s.values .privateMessages) (some k) =
        none := hnone
    simp only [hnone, hlatest, Option.map_none, ite_self]

omit [PyFloat F] [PyFloatInt F] [PyRepr F] in
/-- The memory of a service that has consumed its topics is what they tell. -/
theorem Consistent.memory_eq (h : Consistent s position)
    (hposition : ∀ topic, position topic = (s.values topic).length) :
    s.memory = .ofTopics s.values := by
  have hdrop (topic : ChatTopic) : (s.values topic).drop (position topic) = [] :=
    drop_of_eq_length (hposition topic)
  have hgeneral : s.generalHistory = lastOf 1000 (s.values .general) := by
    rw [(h .general).eq_foldl, hposition, List.take_length, foldl_lastOf]
  have hgroups (groupId : PyStr) :
      s.groups groupId = latest groupKey (s.values .groupDirectory) (some groupId) := by
    have hlatest := (h .groupDirectory).latest_eq (k := groupId) (by rw [hdrop]; nofun)
    rwa [Option.map_id, id] at hlatest
  have hhistory (groupId : PyStr) : s.groupHistory groupId =
      lastOf 200 ((s.values .groups).filter fun v => groupKey v = some groupId) := by
    rw [(h .groups).eq_foldl, hposition, List.take_length, foldl_addToHistory]
  have hevent : s.latestMlsEvent = (s.values .mlsEvents).getLast? := by
    have hlatest := (h .mlsEvents).latest_eq (k := ()) (by rw [hdrop]; nofun)
    rwa [Option.map_id, id, latest, List.filter_eq_self.2 fun _ _ => decide_eq_true rfl] at hlatest
  rw [ChatState.memory, ChatMemory.ofTopics, hgeneral, hevent, funext hgroups, funext hhistory]
  congr 1
  exact funext (pending_eq h hposition)

/-! ## Starting again -/

section Restart

variable [DecidableEq W] {s s' : ChatCluster W F}

namespace ChatCluster

/-- Steps that publish nothing leave the topics as they are. -/
theorem records_next {act : ClusterAct W F} (hquiet : act.Quiet) (hnext : s.next act = some s') :
    s'.service.records = s.service.records := by
  cases act with
  | post => exact hquiet.elim
  | consume topic =>
    obtain ⟨value, hvalue, hnext⟩ := Option.bind_eq_some_iff.1 hnext
    obtain rfl := Option.some.inj hnext
    exact records_consume s.service value topic
  | _ =>
    obtain rfl := Option.some.inj hnext
    rfl

theorem records_of_run {as : List (ClusterAct W F)}
    (hrun : ((system W F).restrict fun _ act => act.Quiet).Run s as s') :
    s'.service.records = s.service.records := by
  refine hrun.invariant (I := fun t => t.service.records = s.service.records) ?_ rfl
  rintro t act t' h ⟨hnext, hquiet⟩
  exact (records_next hquiet hnext).trans h

/-- What is left to consume. -/
def remaining (s : ChatCluster W F) : ℕ :=
  ∑ topic, ((s.service.values topic).length - s.position topic)

/-- A consumer that has not come to the end of its topic can go on. -/
theorem exists_consume {topic : ChatTopic}
    (h : s.position topic < (s.service.values topic).length) :
    ∃ s', s.next (.consume topic) = some s' ∧ s'.remaining < s.remaining := by
  refine ⟨_, by rw [next, List.getElem?_eq_getElem h]; rfl, ?_⟩
  rw [remaining, remaining]
  dsimp only
  rw [values_congr (records_consume ..)]
  refine Finset.sum_lt_sum (fun topic' _ => ?_) ⟨topic, Finset.mem_univ topic, ?_⟩
  · by_cases hne : topic' = topic
    · subst hne
      rw [Function.update_self]
      omega
    · rw [Function.update_of_ne hne]
  · rw [Function.update_self]
    omega

/-- The consumers can come to the ends of the topics. -/
theorem exists_caughtUp (h : Consistent s.service s.position) :
    ∃ as s', ((system W F).restrict fun _ act => act.Quiet).Run s as s' ∧ s'.CaughtUp := by
  induction hn : s.remaining using Nat.strongRecOn generalizing s with
  | ind n ih =>
    by_cases hup : s.CaughtUp
    · exact ⟨[], s, .nil s, hup⟩
    · obtain ⟨topic, htopic⟩ := not_forall.1 hup
      obtain ⟨s', hnext, hlt⟩ := exists_consume ((h.le_length topic).lt_of_ne htopic)
      obtain ⟨as, s'', hrun, hup⟩ := ih _ (hn ▸ hlt) (consistent_next hnext h) rfl
      exact ⟨_, s'', .cons ⟨hnext, trivial⟩ hrun, hup⟩

end ChatCluster

end Restart

/-! ## A concrete run -/

/-- A request of alice. -/
def aliceRequest (uuid : String) (body : Dict (List Char)) : ChatRequest (List Char) where
  __ := ChatState.bobTwice
  body := .ok (.obj body)
  uuid := uuid

/-- An envelope. -/
def sealedHello : Json (List Char) :=
  .obj (Dict.ofList [("alg", .ofString "a"), ("ciphertext", .ofString "c")])

/-- Alice writes to bob. -/
def writeToBob : ClusterAct Unit (List Char) :=
  .post (.route .privateMessage) (aliceRequest "2" (Dict.ofList
    [("recipient_tag", .ofString "bob"), ("envelope", sealedHello)])) (by decide)

/-- Alice writes to the general channel, and to bob, and creates a group and writes to it; her
    messages are consumed. -/
def aliceActs : List (ClusterAct Unit (List Char)) :=
  [.post (.route .general) (aliceRequest "1" (Dict.ofList [("envelope", sealedHello)])) (by decide),
    .consume .general, writeToBob, .consume .privateMessages, .consume .delivery,
    .post (.route .createGroup) (aliceRequest "3" (Dict.ofList [("name", .ofString "g"),
      ("member_tags", .arr [.ofString "bob"])])) (by decide),
    .post (.groupMessage "3") (aliceRequest "4" (Dict.ofList [("envelope", sealedHello)]))
      (by decide),
    .consume .groups, .consume .groupDirectory]

/-- The service after that. -/
def afterAlice : ChatCluster Unit (List Char) :=
  (aliceActs.foldlM ChatCluster.next ⟨.new, fun _ => 0⟩).get (by decide)

/-- The service is started again, and goes through the topics in another order. -/
def restartActs : List (ClusterAct Unit (List Char)) :=
  [.restart, .consume .delivery, .consume .groups, .consume .groupDirectory, .consume .general,
    .consume .privateMessages]

/-- The service after that. -/
def afterRestart : ChatCluster Unit (List Char) :=
  (restartActs.foldlM (System.guarded ChatCluster.next fun _ act => act.Quiet) afterAlice).get
    (by decide)

end SecNet
