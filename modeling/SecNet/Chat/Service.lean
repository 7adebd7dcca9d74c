import SecNet.Chat.Delivery
import SecNet.Chat.Directory
import SecNet.Chat.MlsEvents
import SecNet.Handshake.Handshake
import SecNet.Lib.Plan

/-!
# The chat service

`ChatService` of `chat_service.py`: its memory, with the records of its topics, the consumers
of the topics, which push to the websockets, and the handlers that publish. A handler checks
its request, then publishes and changes its memory step by step (`Plan`), in one `try`
block: an exception of any step is answered with an error, whatever has been done before.

* `checkEnvelope_eq_ok`, `checkPrivate_of_error`: which envelopes are accepted;
* `handleMlsEvent_eq`: the handler of the group events does to the latest event what
  `publishMlsEvent` says.
-/

namespace SecNet

/-! ## What a handler reads -/

/-- `repr` of the floats, lists and dictionaries that come from a JSON text. -/
class PyRepr (F : Type) where
  repr : Json F → PyStr

/-- For concrete runs, which have none. -/
instance : PyRepr (List Char) where
  repr v := (Json.dumpsSpaced v).map Char.toNat

variable {F W : Type} [PyFloat F] [PyFloatInt F] [PyRepr F]

omit [PyFloat F] [PyFloatInt F] in
/-- `str(v)`. -/
def pyStr : Json F → PyStr
  | .str s => s
  | .null => .ofString "None"
  | .bool b => .ofString (if b then "True" else "False")
  | .int n => (Json.dumpsInt n).map Char.toNat
  | v => PyRepr.repr v

/-- The text of a string that can be encoded: it has no lone surrogates. -/
def PyStr.toText (s : PyStr) : Option String :=
  if s.all fun u => u < 0xD800 ∨ 0xE000 ≤ u ∧ u < 0x110000 then
    some (.ofList (s.map Char.ofNat))
  else none

theorem PyStr.toText_ofString (s : String) : (PyStr.ofString s).toText = some s := by
  have hall : (PyStr.ofString s).all (fun u => u < 0xD800 ∨ 0xE000 ≤ u ∧ u < 0x110000) := by
    rw [List.all_eq_true]
    exact fun u hu => decide_eq_true (isScalar_of_mem_map hu)
  have hchars : (PyStr.ofString s).map Char.ofNat = s.toList := by
    rw [PyStr.ofString, List.map_map]
    exact (List.map_congr_left fun c _ => Char.ofNat_toNat c).trans (List.map_id _)
  rw [PyStr.toText, if_pos hall, hchars, String.ofList_toList]

/-- A text is that of one string. -/
theorem PyStr.toText_eq_some {s : PyStr} {text : String} :
    s.toText = some text ↔ s = .ofString text := by
  constructor
  · intro h
    rw [PyStr.toText] at h
    split_ifs at h with hall
    obtain rfl := Option.some.inj h
    have hchars : s.map (Char.toNat ∘ Char.ofNat) = s.map id := by
      refine List.map_congr_left fun u hu => Json.toNat_ofNat_of_isScalar ?_
      have hscalar : u < 0xD800 ∨ 0xE000 ≤ u ∧ u < 0x110000 :=
        of_decide_eq_true (List.all_eq_true.1 hall u hu)
      exact hscalar
    rw [PyStr.ofString, String.toList_ofList, List.map_map, hchars, List.map_id]
  · rintro rfl
    exact PyStr.toText_ofString text

omit [PyFloat F] [PyFloatInt F] [PyRepr F] in
/-- `list(v)`. -/
def pyList : Json F → Except Exn (List (Json F))
  | .arr vs => .ok vs
  | .str s => .ok (s.map fun u => .str [u])
  | .obj ms => .ok (ms.map fun m => .str m.1)
  | v => .error (.typeError s!"'{v.typeName}' object is not iterable")

omit [PyFloat F] [PyFloatInt F] [PyRepr F] in
/-- `get_by_tag`, of what a request has for a tag. -/
def Directory.getByTag (d : Directory) : Json F → Except Exn (Option DeviceRecord)
  | .str s => .ok (s.toText.bind d.byTag)
  | .arr _ => .error (.typeError "unhashable type: 'list'")
  | .obj _ => .error (.typeError "unhashable type: 'dict'")
  | _ => .ok none

/-- A request, with what it finds and draws when it is served. -/
structure ChatRequest (F : Type) where
  /-- What `_authenticated_tag` returns or raises. -/
  tag : Except Exn String
  /-- What `request.json()` returns or raises. -/
  body : Except Exn (Json F)
  directory : Directory
  /-- `_tag_from_random` makes no empty tag. -/
  byTag_empty : directory.byTag "" = none
  /-- `uuid.uuid4().hex`. -/
  uuid : String
  /-- What the calls of `time.time()` return. -/
  time : ℕ → F
  /-- What `publish` on a topic returns or raises. -/
  publish : String → Except Exn Unit

/-- The websockets that are registered: the tags that have a set, and the sets. -/
structure Websockets (W : Type) where
  tags : Finset String
  sockets : String → Finset W
  sockets_of_notMem : ∀ tag ∉ tags, sockets tag = ∅

/-- The service, with the records of the topics. -/
structure ChatState (W F : Type) where
  /-- `_pending` and `_delivered`. -/
  delivery : DeliveryState (Dict F)
  /-- `_general_history`. -/
  generalHistory : List (Dict F)
  /-- `_groups`. -/
  groups : PyStr → Option (Dict F)
  /-- `_group_history`. -/
  groupHistory : PyStr → List (Dict F)
  /-- `_latest_mls_event`. -/
  latestMlsEvent : Option (Dict F)
  /-- `_websockets`. -/
  websockets : Websockets W
  /-- The records of the topics, with their keys. -/
  records : String → List (String × Dict F)

/-- No websocket is registered. -/
def Websockets.new : Websockets W := ⟨∅, fun _ => ∅, fun _ _ => rfl⟩

/-- At the start of the service, of empty topics. -/
def ChatState.new : ChatState W F := ⟨.new, [], fun _ => none, fun _ => [], none, .new, fun _ => []⟩

/-! ## The websockets -/

namespace Websockets

variable [DecidableEq W]

/-- `add_websocket`. -/
def add (ws : Websockets W) (tag : String) (w : W) : Websockets W where
  tags := insert tag ws.tags
  sockets := Function.update ws.sockets tag (insert w (ws.sockets tag))
  sockets_of_notMem tag' h := by
    rw [Finset.mem_insert, not_or] at h
    rw [Function.update_of_ne h.1]
    exact ws.sockets_of_notMem tag' h.2

/-- `remove_websocket`. -/
def remove (ws : Websockets W) (tag : String) (w : W) : Websockets W where
  tags := insert tag ws.tags
  sockets := Function.update ws.sockets tag ((ws.sockets tag).erase w)
  sockets_of_notMem tag' h := by
    rw [Finset.mem_insert, not_or] at h
    rw [Function.update_of_ne h.1]
    exact ws.sockets_of_notMem tag' h.2

omit [DecidableEq W] in
/-- The sockets of all tags, one tag after the other. -/
def all (ws : Websockets W) : Multiset W := ∑ tag ∈ ws.tags, (ws.sockets tag).val

omit [DecidableEq W] in
/-- The locked part of `_broadcast`: the targets of a recipient. -/
def targets (ws : Websockets W) (recipient : Json F) : Except Exn (Multiset W) :=
  if recipient.truth then
    match recipient with
    | .str s => .ok ((s.toText.map fun tag => (ws.sockets tag).val).getD 0)
    | .arr _ => .error (.typeError "unhashable type: 'list'")
    | .obj _ => .error (.typeError "unhashable type: 'dict'")
    | _ => .ok 0
  else .ok ws.all

end Websockets

/-! ## The consumers -/

/-- The pushes that a consumer makes, with their payloads, and whether it then raises. -/
abbrev Pushes (W F : Type) := Multiset (W × Json F) × Except Exn Unit

/-- `_broadcast`. -/
def ChatState.broadcast (s : ChatState W F) (recipient payload : Json F) : Pushes W F :=
  match s.websockets.targets recipient with
  | .ok targets => (targets.map fun w => (w, payload), .ok ())
  | .error e => (0, .error e)

/-- `_broadcast` to one recipient after the other. -/
def ChatState.broadcastAll (s : ChatState W F) (payload : Json F) : List (Json F) → Pushes W F
  | [] => (0, .ok ())
  | recipient :: recipients =>
    match s.broadcast recipient payload with
    | (pushes, .ok ()) =>
      let rest := s.broadcastAll payload recipients
      (pushes + rest.1, rest.2)
    | (pushes, .error e) => (pushes, .error e)

/-- `values[-n:]`. -/
def lastOf {α : Type} (n : ℕ) (values : List α) : List α := values.drop (values.length - n)

/-- What is pushed of a record: its kind, and itself. -/
def payload (kind : String) (key : String) (value : Dict F) : Json F :=
  .obj (Dict.ofList [("kind", .ofString kind), (key, .obj value)])

/-- `_consume_general`. -/
def ChatState.consumeGeneral (s : ChatState W F) (value : Dict F) : ChatState W F × Pushes W F :=
  ({ s with generalHistory := lastOf 1000 (s.generalHistory ++ [value]) },
    s.broadcast (value.get "sender_tag") (payload "general" "message" value))

/-- A member of a record that is a string. The service publishes only such tags and ids. -/
def Dict.text (value : Dict F) (key : String) : Option String :=
  match value.get key with
  | .str s => s.toText
  | _ => none

/-- A record of `chat-private`. -/
def privateRecord (value : Dict F) : PrivateRecord (Dict F) :=
  ⟨value.text "recipient_tag", value.text "message_id", value⟩

/-- A record of `delivery-state`. -/
def deliveryRecord (value : Dict F) : DeliveryRecord :=
  ⟨value.text "state", value.text "recipient_tag", value.text "message_id"⟩

/-- `_consume_private`. -/
def ChatState.consumePrivate (s : ChatState W F) (value : Dict F) : ChatState W F × Pushes W F :=
  match (privateRecord value).pair with
  | none => (s, 0, .ok ())
  | some (recipient, messageId) =>
    if (recipient, messageId) ∈ s.delivery.delivered then (s, 0, .ok ())
    else ({ s with delivery := s.delivery.consumePrivate (privateRecord value) },
      s.broadcast (.ofString recipient) (payload "private" "message" value))

/-- `_consume_delivery`. -/
def ChatState.consumeDelivery (s : ChatState W F) (value : Dict F) : ChatState W F :=
  { s with delivery := s.delivery.consumeDelivery (deliveryRecord value) }

/-- `_consume_mls_event`. -/
def ChatState.consumeMlsEvent (s : ChatState W F) (value : Dict F) : ChatState W F × Pushes W F :=
  ({ s with latestMlsEvent := some value }, s.broadcast .null (payload "mls" "event" value))

/-- `_consume_group_directory`. Groups are named by strings. -/
def ChatState.consumeGroupDirectory (s : ChatState W F) (value : Dict F) : ChatState W F :=
  match value.get "group_id" with
  | .str groupId =>
    if groupId = [] then s
    else { s with groups := Function.update s.groups groupId (some value) }
  | _ => s

/-- What is pushed of a message to a group. -/
def groupPayload (groupId : PyStr) (value : Dict F) : Json F :=
  .obj (Dict.ofList [("kind", .ofString "group"), ("group_id", .str groupId),
    ("message", .obj value)])

/-- `_consume_group_message`. -/
def ChatState.consumeGroupMessage (s : ChatState W F) (value : Dict F) :
    ChatState W F × Pushes W F :=
  match value.get "group_id" with
  | .str groupId =>
    if groupId = [] then (s, 0, .ok ())
    else
      let history := lastOf 200 (s.groupHistory groupId ++ [value])
      let group := (s.groups groupId).getD []
      ({ s with groupHistory := Function.update s.groupHistory groupId history },
        match pyList (group.getD "members" (.arr [])) with
        | .error e => (0, .error e)
        | .ok members => s.broadcastAll (groupPayload groupId value) members)
  | _ => (s, 0, .ok ())

/-! ## What a handler publishes -/

/-- A record is appended to a topic. -/
def ChatState.append (s : ChatState W F) (topic key : String) (value : Dict F) : ChatState W F :=
  { s with records := Function.update s.records topic (s.records topic ++ [(key, value)]) }

/-- `self.bus.publish(topic, key, value)`. -/
def ChatRequest.publishStep (request : ChatRequest F) (topic key : String) (value : Dict F) :
    PlanStep Exn (ChatState W F) :=
  ⟨request.publish topic, fun s => s.append topic key value⟩

/-- A change of the memory of the service, which does not raise. -/
def memoryStep (f : ChatState W F → ChatState W F) : PlanStep Exn (ChatState W F) := ⟨.ok (), f⟩

/-! ## The envelopes -/

/-- The common part of the checks of an envelope. -/
def checkEnvelope (wellFormed : Dict F → Bool) (text : String) : Json F → Except Exn Unit
  | .obj envelope =>
    if !wellFormed envelope then .error (.valueError text)
    else if 2000000 < (Json.dumpsSpaced (.obj envelope)).length then
      .error (.valueError "encrypted envelope is too large")
    else .ok ()
  | _ => .error (.valueError text)

omit [PyFloatInt F] [PyRepr F] in
theorem checkEnvelope_eq_ok {wellFormed : Dict F → Bool} {text : String} {envelope : Dict F} :
    checkEnvelope wellFormed text (.obj envelope) = .ok () ↔
      wellFormed envelope ∧ (Json.dumpsSpaced (.obj envelope)).length ≤ 2000000 := by
  rw [checkEnvelope]
  split_ifs with hformed hsize
  · exact iff_of_false nofun fun h => Bool.false_ne_true (by rw [h.1] at hformed; exact hformed)
  · exact iff_of_false nofun fun h => not_le.2 hsize h.2
  · rw [Bool.not_eq_true, Bool.not_eq_false'] at hformed
    exact iff_of_true rfl ⟨hformed, not_lt.1 hsize⟩

/-- `_validate_envelope`. -/
def validateEnvelope : Json F → Except Exn Unit :=
  checkEnvelope (fun envelope => (envelope.get "alg").truth && (envelope.get "ciphertext").truth)
    "encrypted envelope must contain alg and ciphertext"

/-- `_validate_group_message_envelope`. -/
def validateGroupMessageEnvelope : Json F → Except Exn Unit :=
  checkEnvelope (fun envelope => (envelope.get "ciphertext").truth)
    "encrypted envelope must contain ciphertext"

/-! ## The general channel -/

/-- `publish_general`, up to its first `publish`: the tag of the sender, and the message. -/
def checkGeneral (request : ChatRequest F) : Except Exn (String × Dict F) := do
  let tag ← request.tag
  let body ← request.body
  let envelope ← body.getItem "envelope"
  validateGroupMessageEnvelope envelope
  let body ← body.asDict
  return (tag, Dict.ofList [("message_id", .ofString request.uuid), ("sender_tag", .ofString tag),
    ("epoch", body.get "epoch"), ("envelope", envelope), ("created_at", .float (request.time 0))])

/-- What `publish_general` publishes. -/
def generalPlan (request : ChatRequest F) (m : String × Dict F) : Plan Exn (ChatState W F) :=
  [request.publishStep "chat-general" "general" m.2,
    request.publishStep "network-events" m.1 (Dict.ofList [
      ("event", .ofString "chat_general_published"), ("device_tag", .ofString m.1),
      ("message_id", .ofString request.uuid), ("created_at", .float (request.time 1))])]

/-- The answer to a message. -/
def messageIdAnswer (request : ChatRequest F) : Json F :=
  .obj (Dict.ofList [("message_id", .ofString request.uuid)])

/-- `publish_general`. -/
def publishGeneral (request : ChatRequest F) (s : ChatState W F) :
    ChatState W F × Except Exn (Json F) :=
  Plan.handle (checkGeneral request) (generalPlan request) (fun _ => messageIdAnswer request) s

/-! ## Private messages -/

/-- A private message that is accepted: its sender and its recipient. -/
structure PrivateMessage (F : Type) where
  sender : String
  recipient : String
  message : Dict F

/-- `publish_private`, up to its first `publish`. -/
def checkPrivate (request : ChatRequest F) : Except Exn (PrivateMessage F) := do
  let sender ← request.tag
  let body ← request.body
  let recipient := pyStr (← body.getItem "recipient_tag")
  match recipient.toText with
  | none => .error (.valueError "unknown recipient tag")
  | some recipient =>
    check (request.directory.byTag recipient).isSome "unknown recipient tag"
    let envelope ← body.getItem "envelope"
    validateEnvelope envelope
    return ⟨sender, recipient, Dict.ofList [("message_id", .ofString request.uuid),
      ("sender_tag", .ofString sender), ("recipient_tag", .ofString recipient),
      ("envelope", envelope), ("created_at", .float (request.time 0))]⟩

omit [PyFloatInt F] in
/-- A private message is rejected when its envelope is. -/
theorem checkPrivate_of_error {request : ChatRequest F} {sender recipient : String}
    {body v envelope : Json F} {e : Exn} (htag : request.tag = .ok sender)
    (hbody : request.body = .ok body) (hv : body.getItem "recipient_tag" = .ok v)
    (hrecipient : (pyStr v).toText = some recipient)
    (hknown : (request.directory.byTag recipient).isSome)
    (henvelope : body.getItem "envelope" = .ok envelope)
    (h : validateEnvelope envelope = .error e) :
    checkPrivate request = .error e := by
  have hcheck : check (request.directory.byTag recipient).isSome "unknown recipient tag" = .ok () :=
    check_eq_ok.2 hknown
  simp only [checkPrivate, htag, hbody, hv, hrecipient, hcheck, henvelope, h, bind, Except.bind]

/-- What `publish_private` publishes. -/
def privatePlan (request : ChatRequest F) (m : PrivateMessage F) : Plan Exn (ChatState W F) :=
  [request.publishStep "chat-private" m.recipient m.message,
    request.publishStep "delivery-state" (deliveryKey m.recipient request.uuid) (Dict.ofList [
      ("state", .ofString "pending"), ("recipient_tag", .ofString m.recipient),
      ("message_id", .ofString request.uuid), ("created_at", .float (request.time 1))]),
    request.publishStep "network-events" m.sender (Dict.ofList [
      ("event", .ofString "chat_private_published"), ("device_tag", .ofString m.sender),
      ("recipient_tag", .ofString m.recipient), ("message_id", .ofString request.uuid),
      ("created_at", .float (request.time 2))])]

/-- `publish_private`. -/
def publishPrivate (request : ChatRequest F) (s : ChatState W F) :
    ChatState W F × Except Exn (Json F) :=
  Plan.handle (checkPrivate request) (privatePlan request) (fun _ => messageIdAnswer request) s

/-- `ack`, up to its `publish`: the tag and the message id. -/
def checkAck (request : ChatRequest F) : Except Exn (String × String) := do
  let tag ← request.tag
  let body ← request.body
  let messageId := pyStr (← body.getItem "message_id")
  -- The key of the record is encoded before it is published.
  match messageId.toText with
  | none => .error .unicodeEncodeError
  | some messageId => return (tag, messageId)

/-- What `ack` publishes, and what it then does to its memory. -/
def ackPlan (request : ChatRequest F) (m : String × String) : Plan Exn (ChatState W F) :=
  [request.publishStep "delivery-state" (deliveryKey m.1 m.2) (Dict.ofList [
      ("state", .ofString "delivered"), ("recipient_tag", .ofString m.1),
      ("message_id", .ofString m.2), ("created_at", .float (request.time 0))]),
    memoryStep fun s => { s with delivery := s.delivery.ack m.1 m.2 }]

/-- `POST /api/ack`. -/
def ack (request : ChatRequest F) (s : ChatState W F) : ChatState W F × Except Exn (Json F) :=
  Plan.handle (checkAck request) (ackPlan request)
    (fun _ => .obj (Dict.ofList [("ok", .bool true)])) s

/-! ## Groups -/

/-- The members of a new group, who must all be in the directory. The text of the error goes
    on with the tag. -/
def checkMembers (d : Directory) : List (Json F) → Except Exn Unit
  | [] => .ok ()
  | tag :: tags => do
    check (← d.getByTag tag).isSome "unknown member tag"
    checkMembers d tags

/-- A group that is created. -/
structure NewGroup (F : Type) where
  admin : String
  name : PyStr
  members : List (Json F)

/-- The group as it is stored and published. -/
def NewGroup.record (g : NewGroup F) (request : ChatRequest F) : Dict F :=
  Dict.ofList [("group_id", .ofString request.uuid), ("name", .str g.name),
    ("members", .arr g.members), ("admin_tag", .ofString g.admin),
    ("created_at", .float (request.time 0))]

/-- `create_group`, up to its first `publish`. -/
def checkGroup (request : ChatRequest F) : Except Exn (NewGroup F) := do
  let admin ← request.tag
  let body ← (← request.body).asDict
  let name := stripSpaces (pyStr (body.getD "name" (.str [])))
  check (name ≠ [] ∧ name.length ≤ 64) "group name must be 1-64 characters"
  let members ← pyList (body.getD "member_tags" (.arr []))
  let members := if members.any (·.isStr admin) then members else members ++ [.ofString admin]
  checkMembers request.directory members
  return ⟨admin, name, members⟩

/-- What `create_group` publishes, and what it does to its memory in between. -/
def groupPlan (request : ChatRequest F) (g : NewGroup F) : Plan Exn (ChatState W F) :=
  [request.publishStep "group-directory" request.uuid (g.record request),
    memoryStep fun s => { s with
      groups := Function.update s.groups (.ofString request.uuid) (some (g.record request)) },
    request.publishStep "network-events" g.admin (Dict.ofList [("event", .ofString "group_created"),
      ("group_id", .ofString request.uuid), ("name", .str g.name),
      ("created_at", .float (request.time 1))])]

/-- `create_group`. -/
def createGroup (request : ChatRequest F) (s : ChatState W F) :
    ChatState W F × Except Exn (Json F) :=
  Plan.handle (checkGroup request) (groupPlan request) (fun g => .obj (g.record request)) s

/-! ## Group events -/

/-- What the handler of the group events reads of a request. -/
def ChatRequest.mls (request : ChatRequest F) : MlsRequest F where
  tag := request.tag.map .ofString
  body := request.body
  createdAt := request.time 0
  publish := request.publish

/-- `publish_mls_event`, up to its first `publish`: the tag, and the record of the event. -/
def checkMls (latest : Option (Dict F)) (request : ChatRequest F) :
    Except Exn (String × Dict F) := do
  let tag ← request.tag
  return (tag, ← checkMlsEvent latest request.mls)

/-- What `publish_mls_event` publishes, and what it does to its memory in between. -/
def mlsPlan (request : ChatRequest F) (m : String × Dict F) : Plan Exn (ChatState W F) :=
  [request.publishStep "mls-group-events" "general" m.2,
    memoryStep fun s => { s with latestMlsEvent := some m.2 },
    request.publishStep "network-events" m.1 (Dict.ofList [
      ("event", .ofString "mls_key_state_changed"), ("device_tag", .ofString m.1),
      ("parent_epoch", m.2.get "parent_epoch"), ("created_at", .float (request.time 1))])]

/-- `publish_mls_event`, as a handler. -/
def handleMlsEvent (request : ChatRequest F) (s : ChatState W F) :
    ChatState W F × Except Exn (Json F) :=
  Plan.handle (checkMls s.latestMlsEvent request) (mlsPlan request)
    (fun _ => .obj (Dict.ofList [("ok", .bool true)])) s

omit [PyRepr F] in
/-- A request that is accepted has a tag. -/
theorem checkMls_eq (latest : Option (Dict F)) (request : ChatRequest F) :
    (∃ e, checkMls latest request = .error e ∧ checkMlsEvent latest request.mls = .error e) ∨
    ∃ tag record, checkMls latest request = .ok (tag, record) ∧
      checkMlsEvent latest request.mls = .ok record := by
  rw [checkMls]
  rcases htag : request.tag with e | tag
  · refine .inl ⟨e, rfl, ?_⟩
    rw [checkMlsEvent, ChatRequest.mls, htag]
    rfl
  · rcases hchecked : checkMlsEvent latest request.mls with e | record
    · exact .inl ⟨e, rfl, rfl⟩
    · exact .inr ⟨tag, record, rfl, rfl⟩

omit [PyRepr F] in
/-- The handler does to the latest event, and answers, what `publishMlsEvent` says. -/
theorem handleMlsEvent_eq (request : ChatRequest F) (s : ChatState W F) :
    (handleMlsEvent request s).1.latestMlsEvent =
      (publishMlsEvent s.latestMlsEvent request.mls).1 ∧
    (handleMlsEvent request s).2 = (publishMlsEvent s.latestMlsEvent request.mls).2.map
      fun _ => .obj (Dict.ofList [("ok", .bool true)]) := by
  rw [handleMlsEvent, publishMlsEvent]
  rcases checkMls_eq s.latestMlsEvent request with ⟨e, hmls, hevent⟩ | ⟨tag, record, hmls, hevent⟩
  · rw [hmls, hevent, Plan.handle_of_error rfl]
    exact ⟨rfl, rfl⟩
  rw [hmls, hevent, Plan.handle_of_ok rfl, mlsPlan]
  dsimp only [ChatRequest.mls]
  rcases hfirst : request.publish "mls-group-events" with e | ⟨⟩
  · rw [Plan.run_cons_of_error hfirst]
    exact ⟨rfl, rfl⟩
  rw [Plan.run_cons_of_ok hfirst, Plan.run_cons_of_ok rfl]
  rcases hlater : request.publish "network-events" with e | ⟨⟩
  · rw [Plan.run_cons_of_error hlater]
    exact ⟨rfl, rfl⟩
  · rw [Plan.run_cons_of_ok hlater]
    exact ⟨rfl, rfl⟩

/-! ## For concrete runs -/

/-- The directory of the server, with one device. -/
def plainDirectory : Directory where
  byId _ := none
  byTag := Function.update (fun _ => none) "bob"
    (some ⟨"device_registered", "1", "bob", "", some "", none⟩)

/-- A request of alice. -/
def plainRequest : ChatRequest (List Char) where
  tag := .ok "alice"
  body := .ok .null
  directory := plainDirectory
  byTag_empty := rfl
  uuid := "1"
  time _ := []
  publish _ := .ok ()

end SecNet
