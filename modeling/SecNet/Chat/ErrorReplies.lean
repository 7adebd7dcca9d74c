import SecNet.Chat.GroupPush

/-!
# Error replies

What a request has done that is answered with an error. A handler publishes its record first, and
an event of the network last: when that raises, the record has been published, and its memory may
have been changed. The same when the answer of the handler cannot be rendered, which `JSONResponse`
does after all that.

* `harmless_serve_iff`: a request that is answered with an error has done nothing, exactly when its
  later publishes return once the first one has, and its answer is rendered;
* `harmless_iff`: so for each of the routes;
* `error_replies_harmless`: and so along every run;
* `renders_iff`: the answers that `JSONResponse` renders.
-/

namespace SecNet

variable {F W : Type} [PyFloat F] [PyFloatInt F] [PyRepr F] [DecidableEq W]

/-- The topics that hold the state of the service. -/
def stateTopics : List String :=
  ["chat-general", "chat-private", "delivery-state", "group-directory", "mls-group-events"]

/-- The topic that a route publishes on first. -/
def Route.first : Route → String
  | .general => "chat-general"
  | .privateMessage => "chat-private"
  | .createGroup => "group-directory"
  | .mlsEvents => "mls-group-events"
  | .ack => "delivery-state"

/-- The topics that it publishes on afterwards. -/
def Route.later : Route → List String
  | .general => ["network-events"]
  | .privateMessage => ["delivery-state", "network-events"]
  | .createGroup => ["network-events"]
  | .mlsEvents => ["network-events"]
  | .ack => []

namespace ChatState

/-- What a request is answered that passes the checks before the first publish. -/
def answer (s : ChatState W F) (request : ChatRequest F) : Route → Except Exn (Json F)
  | .general => (checkGeneral request).map fun _ => messageIdAnswer request
  | .privateMessage => (checkPrivate request).map fun _ => messageIdAnswer request
  | .createGroup => (checkGroup request).map fun g => .obj (g.record request)
  | .mlsEvents => (checkMls s.latestMlsEvent request).map
      fun _ => .obj (Dict.ofList [("ok", .bool true)])
  | .ack => (checkAck request).map fun _ => .obj (Dict.ofList [("ok", .bool true)])

/-- The reply to a request: the answer of the handler, which is rendered when it has returned. -/
def reply (render : Json F → Except Exn Bytes) (s : ChatState W F) (request : ChatRequest F)
    (route : Route) : ChatState W F × Except Exn Bytes :=
  (s.handle request route).map id fun result => result >>= render

/-- What is observed of the service: the records of the topics, the groups, the latest event, and
    what is pending and delivered. -/
def trace (s : ChatState W F) : List (List (String × Dict F)) × (PyStr → Option (Dict F)) ×
    Option (Dict F) × DeliveryState (Dict F) :=
  (stateTopics.map s.records, s.groups, s.latestMlsEvent, s.delivery)

/-- Nothing has happened between two states. -/
structure Same (s s' : ChatState W F) : Prop where
  records : ∀ topic ∈ stateTopics, s'.records topic = s.records topic
  groups : s'.groups = s.groups
  latestMlsEvent : s'.latestMlsEvent = s.latestMlsEvent
  delivery : s'.delivery = s.delivery

/-- An error reply means that nothing has happened. -/
def Harmless (render : Json F → Except Exn Bytes) (s : ChatState W F) : ChatEvent W F → Prop
  | .post route request => ∀ e, (s.reply render request route).2 = .error e →
    s.Same (s.reply render request route).1
  | _ => True

/-- Once the first publish of a request that is accepted has returned, the later ones return, and
    its answer can be rendered. -/
def Completes (render : Json F → Except Exn Bytes) (s : ChatState W F) : ChatEvent W F → Prop
  | .post route request => ∀ answer, s.answer request route = .ok answer →
    request.publish route.first = .ok () →
      (∀ topic ∈ route.later, request.publish topic = .ok ()) ∧ ∃ data, render answer = .ok data
  | _ => True

variable {s s' : ChatState W F} {request : ChatRequest F}

section

omit [PyFloat F] [PyFloatInt F] [PyRepr F] [DecidableEq W]

theorem same_iff : s.Same s' ↔ s'.trace = s.trace := by
  rw [trace, trace, Prod.mk.injEq, Prod.mk.injEq, Prod.mk.injEq, List.map_inj_left]
  exact ⟨fun h => ⟨h.records, h.groups, h.latestMlsEvent, h.delivery⟩,
    fun ⟨hrecords, hgroups, hlatest, hdelivery⟩ => ⟨hrecords, hgroups, hlatest, hdelivery⟩⟩

/-- The number of the records. -/
def size (trace : List (List (String × Dict F)) × (PyStr → Option (Dict F)) ×
    Option (Dict F) × DeliveryState (Dict F)) : ℕ :=
  (trace.1.map List.length).sum

theorem size_trace :
    size s.trace = (stateTopics.map fun topic => (s.records topic).length).sum := by
  rw [size, trace, List.map_map]
  rfl

theorem records_append (topic topic' key : String) (value : Dict F) :
    (s.append topic key value).records topic' =
      if topic' = topic then s.records topic ++ [(key, value)] else s.records topic' :=
  Function.update_apply ..

theorem length_records_append (topic topic' key : String) (value : Dict F) :
    (s.records topic').length ≤ ((s.append topic key value).records topic').length := by
  rw [records_append]
  split_ifs with htopic
  · rw [htopic, List.length_append]
    exact Nat.le_add_right ..
  · exact le_rfl

/-- A publish appends no record, or one. -/
theorem size_append_le (topic key : String) (value : Dict F) :
    size s.trace ≤ size (s.append topic key value).trace := by
  rw [size_trace, size_trace]
  exact List.sum_le_sum fun topic' _ => length_records_append topic topic' key value

/-- A publish on a topic of the state appends a record. -/
theorem size_append_lt {topic : String} (h : topic ∈ stateTopics) (key : String) (value : Dict F) :
    size s.trace < size (s.append topic key value).trace := by
  rw [size_trace, size_trace]
  refine List.sum_lt_sum _ _ (fun topic' _ => length_records_append topic topic' key value)
    ⟨topic, h, ?_⟩
  rw [records_append, if_pos rfl, List.length_append]
  exact Nat.lt_succ_self _

/-- A handler publishes first on a topic of the state; what it does then removes no record, and
    raises when one of its publishes does. -/
structure PublishesFirst (request : ChatRequest F) (first : String) (later : List String)
    (plan : Plan Exn (ChatState W F)) : Prop where
  head : ∃ key value, plan.head? = some (request.publishStep first key value)
  tail : ∀ x ∈ plan.tail, ∀ s, size s.trace ≤ size (x.effect s).trace
  returns : Plan.Returns plan.tail ↔ ∀ topic ∈ later, request.publish topic = .ok ()

theorem PublishesFirst.ne_nil {first : String} {later : List String}
    {plan : Plan Exn (ChatState W F)} (h : PublishesFirst request first later plan) :
    plan ≠ [] := by
  rintro rfl
  obtain ⟨key, value, hhead⟩ := h.head
  cases hhead

/-- The plan with the rendering of the answer. -/
theorem PublishesFirst.allOrNothing_iff {first : String} {later : List String}
    {plan : Plan Exn (ChatState W F)} (h : PublishesFirst request first later plan)
    (render : Json F → Except Exn Bytes) (answer : Json F) :
    Plan.AllOrNothing (plan ++ [Plan.renderStep render answer]) ↔
      (request.publish first = .ok () → (∀ topic ∈ later, request.publish topic = .ok ()) ∧
        ∃ data, render answer = .ok data) := by
  obtain ⟨key, value, hhead⟩ := h.head
  rcases plan with _ | ⟨x, plan⟩
  · cases hhead
  · obtain rfl := Option.some.inj hhead
    refine imp_congr_right fun _ => ?_
    refine List.forall_mem_append.trans (and_congr h.returns ?_)
    rw [List.forall_mem_singleton, Plan.renderStep_outcome]

/-- A request that is answered with an error has done nothing, exactly when its later publishes
    return once the first one has, and its answer is rendered. -/
theorem harmless_serve_iff {α : Type} {checked : Except Exn α}
    {plan : α → Plan Exn (ChatState W F)} {answer : α → Json F} {first : String}
    {later : List String} (render : Json F → Except Exn Bytes) (hfirst : first ∈ stateTopics)
    (hplan : ∀ a, PublishesFirst request first later (plan a)) :
    (∀ e, (Plan.serve checked plan answer render s).2 = .error e →
      s.Same (Plan.serve checked plan answer render s).1) ↔
      ∀ b, checked.map answer = .ok b → request.publish first = .ok () →
        (∀ topic ∈ later, request.publish topic = .ok ()) ∧ ∃ data, render b = .ok data := by
  simp only [same_iff]
  rw [Plan.serve_harmless_iff trace size (fun a => (hplan a).ne_nil) (fun a x hx s => ?_)
    fun a => (hplan a).tail]
  · simp only [fun a => (hplan a).allOrNothing_iff render (answer a)]
    -- A request that is not accepted has neither published nor been accepted.
    rcases checked with e | a
    · exact iff_of_true nofun nofun
    · exact ⟨fun h _ hb => Except.ok.inj hb ▸ h a rfl, fun h a' ha' => h (answer a') (ha' ▸ rfl)⟩
  · -- What the first publish has appended stays, whatever comes then.
    obtain ⟨key, value, hhead⟩ := (hplan a).head
    rw [hhead] at hx
    obtain rfl := Option.some.inj hx
    exact size_append_lt hfirst key value

end

omit [DecidableEq W] in
/-- A request that is answered with an error has done nothing, exactly when its later publishes
    return once the first one has, and its answer is rendered. -/
theorem harmless_iff (render : Json F → Except Exn Bytes) (s : ChatState W F)
    (event : ChatEvent W F) : s.Harmless render event ↔ s.Completes render event := by
  rcases event with ⟨route, request⟩ | _ | _ | _ | _ | _ | _ | _ | _
  · cases route with
    | general =>
      refine harmless_serve_iff render (by decide) fun m => ⟨⟨_, _, rfl⟩, ?_, ?_⟩
      · exact List.forall_mem_singleton.2 fun s => size_append_le ..
      · rw [Route.later, List.forall_mem_singleton]
        exact List.forall_mem_singleton
    | privateMessage =>
      refine harmless_serve_iff render (by decide) fun m => ⟨⟨_, _, rfl⟩, ?_, ?_⟩
      · exact List.forall_mem_cons.2 ⟨fun s => size_append_le ..,
          List.forall_mem_singleton.2 fun s => size_append_le ..⟩
      · rw [Route.later, List.forall_mem_cons, List.forall_mem_singleton]
        exact List.forall_mem_cons.trans (and_congr_right fun _ => List.forall_mem_singleton)
    | createGroup =>
      refine harmless_serve_iff render (by decide) fun g => ⟨⟨_, _, rfl⟩, ?_, ?_⟩
      · exact List.forall_mem_cons.2 ⟨fun s => le_rfl,
          List.forall_mem_singleton.2 fun s => size_append_le ..⟩
      · -- The step in between changes the memory only.
        refine List.forall_mem_cons.trans ((and_iff_right rfl).trans ?_)
        rw [Route.later, List.forall_mem_singleton, List.forall_mem_singleton]
        rfl
    | mlsEvents =>
      refine harmless_serve_iff render (by decide) fun m => ⟨⟨_, _, rfl⟩, ?_, ?_⟩
      · exact List.forall_mem_cons.2 ⟨fun s => le_rfl,
          List.forall_mem_singleton.2 fun s => size_append_le ..⟩
      · -- The step in between changes the memory only.
        refine List.forall_mem_cons.trans ((and_iff_right rfl).trans ?_)
        rw [Route.later, List.forall_mem_singleton, List.forall_mem_singleton]
        rfl
    | ack =>
      refine harmless_serve_iff render (by decide) fun m => ⟨⟨_, _, rfl⟩, ?_, ?_⟩
      · exact List.forall_mem_singleton.2 fun s => le_rfl
      · rw [Route.later]
        exact iff_of_true (List.forall_mem_singleton.2 rfl) nofun
  all_goals exact iff_of_true trivial trivial

/-- An error reply means that nothing has happened: along a run, exactly when the later publishes of
    every request that is accepted return once the first one has, and its answer is rendered. -/
theorem error_replies_harmless (render : Json F → Except Exn Bytes) (s : ChatState W F)
    (events : List (ChatEvent W F)) :
    System.AllSteps next (Harmless render) s events ↔
      System.AllSteps next (Completes render) s events :=
  System.AllSteps.iff (I := fun _ => True) (fun s event _ => harmless_iff render s event)
    (fun _ _ _ _ => trivial) trivial events

/-! ## The answers that are rendered -/

omit [PyRepr F] [DecidableEq W] in
theorem exists_jsonResponse_ofList {items : List (String × Json F)}
    (h : ∀ item ∈ items, item.2.leaves Json.compliant) :
    (∃ data, jsonResponse (.obj (Dict.ofList items)) = .ok data) ↔
      Json.leaves Json.encodable (.obj (Dict.ofList items)) := by
  rw [exists_jsonResponse]
  exact and_iff_right (Json.leaves_ofList (fun _ _ => rfl) h)

omit [PyRepr F] [DecidableEq W] in
theorem renders_ofList {items : List (String × Json F)}
    (hcompliant : ∀ item ∈ items, item.2.leaves Json.compliant)
    (hencodable : ∀ item ∈ items, item.2.leaves Json.encodable) :
    ∃ data, jsonResponse (.obj (Dict.ofList items)) = .ok data :=
  (exists_jsonResponse_ofList hcompliant).2
    (Json.leaves_ofList (fun item _ => Json.encodable_ofString item.1) hencodable)

omit [PyFloat F] [PyFloatInt F] [PyRepr F] in
theorem exists_of_map_eq_ok {α : Type} {checked : Except Exn α} {answer : α → Json F} {b : Json F}
    (h : checked.map answer = .ok b) : ∃ a, checked = .ok a ∧ answer a = b := by
  rcases checked with e | a
  · cases h
  · exact ⟨a, rfl, Except.ok.inj h⟩

omit [PyFloat F] [PyFloatInt F] [PyRepr F] in
/-- A list of tags passes the tests of a text. -/
theorem leaves_tags {p : Json F → Bool} (hp : ∀ text, p (.ofString text)) (tags : List String) :
    Json.leaves p (.arr (tags.map .ofString)) := by
  rw [Json.leaves, Json.leavesElements_iff]
  intro v hv
  obtain ⟨tag, -, rfl⟩ := List.mem_map.1 hv
  exact hp tag

/-- The record of a group is rendered when its name can be encoded. -/
theorem renders_group_iff {g : NewGroup F} (hg : checkGroup request = .ok g)
    (htime : (PyFloatInt.toInt (request.time 0)).isOk) :
    (∃ data, jsonResponse (.obj (g.record request)) = .ok data) ↔
      ∃ name, g.name = .ofString name := by
  obtain ⟨tags, -, htags⟩ := checkGroup_eq_ok hg
  have hcompliant : ∀ item ∈ [("group_id", .ofString request.uuid), ("name", .str g.name),
      ("members", .arr g.members), ("admin_tag", .ofString g.admin),
      ("created_at", .float (request.time 0))], Json.leaves Json.compliant item.2 := by
    simp only [List.forall_mem_cons, List.not_mem_nil, false_imp_iff, implies_true, and_true]
    exact ⟨rfl, rfl, htags ▸ leaves_tags (fun _ => rfl) tags, rfl, htime⟩
  rw [NewGroup.record, exists_jsonResponse_ofList hcompliant]
  constructor
  · intro h
    have hname : Json.leaves Json.encodable (.str g.name : Json F) :=
      Json.leaves_of_lookup h ((lookup_ofList _ "name").trans rfl)
    exact ⟨_, PyStr.toText_eq_some.1 (if_pos hname)⟩
  · rintro ⟨name, hname⟩
    refine Json.leaves_ofList (fun item _ => Json.encodable_ofString item.1) ?_
    simp only [List.forall_mem_cons, List.not_mem_nil, false_imp_iff, implies_true, and_true]
    rw [Json.leaves_ofString, Json.leaves_ofString]
    refine ⟨Json.encodable_ofString _, ?_, ?_, Json.encodable_ofString _, rfl⟩
    · rw [hname]
      exact Json.leaves_ofString.trans (Json.encodable_ofString name)
    · rw [htags]
      exact leaves_tags Json.encodable_ofString tags

omit [DecidableEq W] in
/-- The answers are rendered, but for a group whose name cannot be encoded. -/
theorem renders_iff {route : Route} {answer : Json F} (h : s.answer request route = .ok answer)
    (htime : (PyFloatInt.toInt (request.time 0)).isOk) :
    (∃ data, jsonResponse answer = .ok data) ↔ ∀ g, route = .createGroup →
      checkGroup request = .ok g → ∃ name, g.name = .ofString name := by
  have hmessageId : ∃ data, jsonResponse (messageIdAnswer request) = .ok data :=
    renders_ofList (List.forall_mem_singleton.2 rfl)
      (List.forall_mem_singleton.2 (Json.leaves_ofString.trans (Json.encodable_ofString _)))
  have hok : ∃ data, jsonResponse (F := F) (.obj (Dict.ofList [("ok", .bool true)])) = .ok data :=
    renders_ofList (List.forall_mem_singleton.2 rfl) (List.forall_mem_singleton.2 rfl)
  cases route with
  | createGroup =>
    obtain ⟨g, hg, rfl⟩ := exists_of_map_eq_ok h
    rw [renders_group_iff hg htime]
    constructor
    · rintro hname g' - hg'
      obtain rfl := Except.ok.inj (hg.symm.trans hg')
      exact hname
    · exact fun hnames => hnames g rfl hg
  | general | privateMessage =>
    obtain ⟨_, -, rfl⟩ := exists_of_map_eq_ok h
    exact iff_of_true hmessageId nofun
  | mlsEvents | ack =>
    obtain ⟨_, -, rfl⟩ := exists_of_map_eq_ok h
    exact iff_of_true hok nofun

/-! ## Error replies -/

/-- A message whose audit record cannot be published. -/
def auditFails : ChatRequest (List Char) where
  __ := plainRequest
  body := .ok (.obj (Dict.ofList [("envelope",
    .obj (Dict.ofList [("ciphertext", .ofString "c")]))]))
  publish topic :=
    if topic = "network-events" then .error (.runtimeError "Local: Queue full") else .ok ()

/-- A group whose name is a lone surrogate. -/
def surrogateName : ChatRequest (List Char) where
  __ := plainRequest
  tag := .ok "bob"
  body := .ok (.obj (Dict.ofList [("name", .str [0xD800])]))
  time _ := "1.5".toList

/-- The sender is told that its message has failed, and it has been published. So is the group that
    cannot be rendered, although no publish has raised. -/
theorem error_reply_after_publish :
    (ChatState.new.reply (W := Unit) jsonResponse auditFails .general).2 =
      .error (.runtimeError "Local: Queue full") ∧
    ((ChatState.new.reply (W := Unit) jsonResponse auditFails .general).1.records
      "chat-general").length = 1 ∧
    (ChatState.new.reply (W := Unit) jsonResponse surrogateName .createGroup).2 =
      .error .unicodeEncodeError ∧
    ((ChatState.new.reply (W := Unit) jsonResponse surrogateName .createGroup).1.records
      "group-directory").length = 1 ∧
    (∀ topic, surrogateName.publish topic = .ok ()) ∧
    ¬System.AllSteps next (Harmless jsonResponse) (ChatState.new (W := Unit))
      [.post .general auditFails] := by
  have herror : (ChatState.new.reply (W := Unit) jsonResponse auditFails .general).2 =
      .error (.runtimeError "Local: Queue full") := by rfl
  have hrecords : ((ChatState.new.reply (W := Unit) jsonResponse auditFails .general).1.records
      "chat-general").length = 1 := by rfl
  refine ⟨herror, hrecords, by rfl, by rfl, fun _ => rfl, fun h => ?_⟩
  have hsame := (h.1 _ herror).records "chat-general" (by decide)
  rw [hsame] at hrecords
  cases hrecords

end ChatState

end SecNet
