import SecNet.Chat.Delivery
import SecNet.Lib.Transition

/-!
# The pending flush and the live push

A websocket gets the private messages of its tag in two ways: when it connects,
`websocket_endpoint` sends the ones that are pending, and while it is connected,
`_consume_private` pushes the ones that arrive. The two are made of separate steps:
the registration of the websocket, the snapshot of `_pending` and the sends on the
one side, the store into `_pending`, the reading of the sockets and the pushes on the
other. Any number of endpoints and of calls take these steps in any order, among
redeliveries and acknowledgements.

* `exists_delivery_eq_run`: what is pending is what the handlers of `Delivery` leave;
* `inv_next`: a step keeps that each pending message has been sent to a registered
  websocket, or is on its way to it;
* `no_message_missed`: when nothing is outstanding, it has been sent.
-/

namespace SecNet

variable {V W ι : Type} [DecidableEq V] [DecidableEq W] [DecidableEq ι]

/-- Where a run of `websocket_endpoint` is: before the step that is named, of the tag
    of its cookie. -/
inductive Endpoint (V : Type)
  | connect
  | add (tag : String)
  | snapshot (tag : String)
  /-- The sends of the flush, and then the loop. -/
  | serve (tag : String) (pendingMessages : Multiset (PrivateRecord V))
  /-- In the loop, after an acknowledgement has been published. -/
  | ack (tag messageId : String)
  /-- In the `finally`. -/
  | remove (tag : String)
  | closed

/-- Where a call of `_consume_private` is. -/
inductive PushCall (V W : Type)
  | idle
  /-- After the store, before `_broadcast` reads the sockets of the recipient. -/
  | broadcast (recipient : String) (value : PrivateRecord V)
  | push (value : PrivateRecord V) (targets : Finset W)

/-- The service, with the runs of its endpoints and the calls of `_consume_private`. -/
structure PushState (V W ι : Type) where
  delivery : DeliveryState V
  /-- `_websockets`. -/
  websockets : String → Finset W
  endpoints : W → Endpoint V
  calls : ι → PushCall V W
  /-- The coroutines that `run_coroutine_threadsafe` has scheduled. -/
  tasks : Multiset (W × PrivateRecord V)
  /-- The calls of `send_json`, with their websockets. -/
  sent : List (W × PrivateRecord V)

/-- The steps. -/
inductive PushEvent (V W ι : Type)
  /-- `websocket_endpoint`, up to `accept`. -/
  | connect (w : W) (tag : String)
  | add (w : W)
  | snapshot (w : W)
  | send (w : W) (message : PrivateRecord V)
  /-- The loop gets an acknowledgement and publishes it. -/
  | receive (w : W) (messageId : String)
  | ack (w : W)
  /-- A send, the loop or a publish raises. -/
  | raise (w : W)
  | remove (w : W)
  /-- `_consume_private`, up to the end of its locked part. -/
  | consume (i : ι) (value : PrivateRecord V)
  /-- The locked part of `_broadcast`. -/
  | broadcast (i : ι)
  | push (i : ι) (w : W)
  /-- A scheduled coroutine runs. -/
  | task (w : W) (message : PrivateRecord V)
  | consumeDelivery (value : DeliveryRecord)
  /-- `POST /api/ack`, once its record is published. -/
  | postAck (tag messageId : String)

/-- A call of `_consume_private` after its locked part. -/
def DeliveryState.afterStore (s : DeliveryState V) (value : PrivateRecord V) : PushCall V W :=
  match value.pair with
  | none => .idle
  | some (recipient, messageId) =>
    -- The message is pushed only if it has been stored.
    if (recipient, messageId) ∈ s.delivered then .idle else .broadcast recipient value

namespace PushState

/-- At the start of the service. -/
def new : PushState V W ι := ⟨.new, fun _ => ∅, fun _ => .connect, fun _ => .idle, 0, []⟩

/-- An endpoint goes on. -/
def goOn (s : PushState V W ι) (w : W) (e : Endpoint V) : PushState V W ι :=
  { s with endpoints := Function.update s.endpoints w e }

/-- A call of `_consume_private` goes on. -/
def goOnCall (s : PushState V W ι) (i : ι) (c : PushCall V W) : PushState V W ι :=
  { s with calls := Function.update s.calls i c }

/-- `add_websocket`. -/
def addWebsocket (s : PushState V W ι) (tag : String) (w : W) : PushState V W ι :=
  { s with websockets := Function.update s.websockets tag (insert w (s.websockets tag)) }

/-- `remove_websocket`. -/
def removeWebsocket (s : PushState V W ι) (tag : String) (w : W) : PushState V W ι :=
  { s with websockets := Function.update s.websockets tag ((s.websockets tag).erase w) }

/-- `list(self._pending.get(tag, {}).values())`. -/
def pendingMessages (s : PushState V W ι) (tag : String) : Multiset (PrivateRecord V) :=
  (s.delivery.pending tag).entries.map Sigma.snd

/-- The state after a step, where it can be taken. -/
def next (s : PushState V W ι) : PushEvent V W ι → Option (PushState V W ι)
  | .connect w tag =>
    match s.endpoints w with
    | .connect => some (s.goOn w (.add tag))
    | _ => none
  | .add w =>
    match s.endpoints w with
    | .add tag => some ((s.addWebsocket tag w).goOn w (.snapshot tag))
    | _ => none
  | .snapshot w =>
    match s.endpoints w with
    | .snapshot tag => some (s.goOn w (.serve tag (s.pendingMessages tag)))
    | _ => none
  | .send w message =>
    match s.endpoints w with
    | .serve tag messages =>
      if message ∈ messages then
        some ({ s with sent := s.sent ++ [(w, message)] }.goOn w
          (.serve tag (messages.erase message)))
      else none
    | _ => none
  | .receive w messageId =>
    match s.endpoints w with
    | .serve tag messages => if messages = 0 then some (s.goOn w (.ack tag messageId)) else none
    | _ => none
  | .ack w =>
    match s.endpoints w with
    | .ack tag messageId =>
      some ({ s with delivery := s.delivery.ack tag messageId }.goOn w (.serve tag 0))
    | _ => none
  | .raise w =>
    match s.endpoints w with
    | .serve tag _ => some (s.goOn w (.remove tag))
    | .ack tag _ => some (s.goOn w (.remove tag))
    | _ => none
  | .remove w =>
    match s.endpoints w with
    | .remove tag => some ((s.removeWebsocket tag w).goOn w .closed)
    | _ => none
  | .consume i value =>
    match s.calls i with
    | .idle =>
      some { s.goOnCall i (s.delivery.afterStore value) with
        delivery := s.delivery.consumePrivate value }
    | _ => none
  | .broadcast i =>
    match s.calls i with
    | .broadcast recipient value => some (s.goOnCall i (.push value (s.websockets recipient)))
    | _ => none
  | .push i w =>
    match s.calls i with
    | .push value targets =>
      if w ∈ targets then
        some ({ s with tasks := (w, value) ::ₘ s.tasks }.goOnCall i
          (.push value (targets.erase w)))
      else none
    | _ => none
  | .task w message =>
    if (w, message) ∈ s.tasks then
      some { s with tasks := s.tasks.erase (w, message), sent := s.sent ++ [(w, message)] }
    else none
  | .consumeDelivery value => some { s with delivery := s.delivery.consumeDelivery value }
  | .postAck tag messageId => some { s with delivery := s.delivery.ack tag messageId }

variable (V W ι) in
/-- The service, among all that can happen to it. -/
def system : System (PushState V W ι) (PushEvent V W ι) := .ofPartial (· = new) next

end PushState

/-! ## What is outstanding -/

/-- The tag under which a websocket is registered, where its endpoint is. -/
def Endpoint.registered : Endpoint V → Option String
  | .snapshot tag | .serve tag _ | .ack tag _ | .remove tag => some tag
  | _ => none

/-- The endpoint is still to send the message, or to remove its websocket. -/
def Endpoint.Awaits (v : PrivateRecord V) : Endpoint V → Prop
  | .snapshot _ | .remove _ => True
  | .serve _ messages => v ∈ messages
  | _ => False

/-- The call is still to push the message to the websocket, if it finds it registered
    for the tag. -/
def PushCall.Brings (tag : String) (w : W) (v : PrivateRecord V) : PushCall V W → Prop
  | .idle => False
  | .broadcast recipient value => recipient = tag ∧ value = v
  | .push value targets => value = v ∧ w ∈ targets

/-- No step of an endpoint is outstanding: it has not begun, waits in its loop, or has
    ended. -/
def Endpoint.Quiet : Endpoint V → Prop
  | .connect | .closed => True
  | .serve _ messages => messages = 0
  | _ => False

/-- No step of a call is outstanding. -/
def PushCall.Quiet : PushCall V W → Prop
  | .idle => True
  | .broadcast .. => False
  | .push _ targets => targets = ∅

namespace PushState

/-- No step is outstanding. -/
structure Quiet (s : PushState V W ι) : Prop where
  endpoints : ∀ w, (s.endpoints w).Quiet
  calls : ∀ i, (s.calls i).Quiet
  tasks : s.tasks = 0

/-- The message has been sent to the websocket, or is on its way. -/
def Covers (s : PushState V W ι) (tag : String) (w : W) (v : PrivateRecord V) : Prop :=
  (w, v) ∈ s.sent ∨ (w, v) ∈ s.tasks ∨ (s.endpoints w).Awaits v ∨ ∃ i, (s.calls i).Brings tag w v

/-- A registered websocket has an endpoint of its tag, and every message that is
    pending for the tag has been sent to it, or is on its way. -/
structure Inv (s : PushState V W ι) : Prop where
  registered : ∀ tag w, w ∈ s.websockets tag → (s.endpoints w).registered = some tag
  covers : ∀ tag m v w, (s.delivery.pending tag).lookup m = some v → w ∈ s.websockets tag →
    s.Covers tag w v

omit [DecidableEq V] [DecidableEq W] [DecidableEq ι] in
theorem inv_new : (new : PushState V W ι).Inv where
  registered _ _ hw := absurd hw (Finset.notMem_empty _)
  covers _ _ _ _ _ hw := absurd hw (Finset.notMem_empty _)

/-! ## What the parts of a step keep -/

variable {s s' : PushState V W ι}

omit [DecidableEq V] [DecidableEq ι] in
@[simp]
theorem endpoints_goOn (w w' : W) (e : Endpoint V) :
    (s.goOn w e).endpoints w' = if w' = w then e else s.endpoints w' := Function.update_apply ..

omit [DecidableEq V] [DecidableEq W] in
@[simp]
theorem calls_goOnCall (i j : ι) (c : PushCall V W) :
    (s.goOnCall i c).calls j = if j = i then c else s.calls j := Function.update_apply ..

omit [DecidableEq V] [DecidableEq ι] in
theorem mem_addWebsocket {w w' : W} {tag tag' : String} :
    w' ∈ (s.addWebsocket tag w).websockets tag' ↔
      tag' = tag ∧ w' = w ∨ w' ∈ s.websockets tag' := by
  change w' ∈ Function.update s.websockets tag (insert w (s.websockets tag)) tag' ↔ _
  rw [Function.update_apply]
  split_ifs with htag
  · rw [Finset.mem_insert, htag]
    simp
  · simp [htag]

omit [DecidableEq V] [DecidableEq ι] in
theorem mem_removeWebsocket {w w' : W} {tag tag' : String} :
    w' ∈ (s.removeWebsocket tag w).websockets tag' ↔
      w' ∈ s.websockets tag' ∧ ¬(tag' = tag ∧ w' = w) := by
  change w' ∈ Function.update s.websockets tag ((s.websockets tag).erase w) tag' ↔ _
  rw [Function.update_apply]
  split_ifs with htag
  · rw [Finset.mem_erase, htag, and_comm]
    simp
  · simp [htag]

omit [DecidableEq V] [DecidableEq ι] in
/-- An endpoint goes on, to a place with the same tag, where it still awaits what it
    has not sent. -/
theorem Inv.goOn (hs : s.Inv) {w : W} {e : Endpoint V}
    (hregistered : ∀ tag, w ∈ s.websockets tag → e.registered = some tag)
    (hawaits : ∀ tag m v, w ∈ s.websockets tag → (s.delivery.pending tag).lookup m = some v →
      (s.endpoints w).Awaits v → (w, v) ∈ s.sent ∨ e.Awaits v) : (s.goOn w e).Inv where
  registered tag w' hw' := by
    rw [endpoints_goOn]
    split_ifs with hww'
    · subst hww'
      exact hregistered tag hw'
    · exact hs.registered tag w' hw'
  covers tag m v w' hv hw' := by
    rcases hs.covers tag m v w' hv hw' with hsent | htask | hend | hcall
    · exact .inl hsent
    · exact .inr (.inl htask)
    · by_cases hww' : w' = w
      · subst hww'
        rcases hawaits tag m v hw' hv hend with hsent | hend'
        · exact .inl hsent
        · refine .inr (.inr (.inl ?_))
          rwa [endpoints_goOn, if_pos rfl]
      · refine .inr (.inr (.inl ?_))
        rwa [endpoints_goOn, if_neg hww']
    · exact .inr (.inr (.inr hcall))

omit [DecidableEq V] [DecidableEq ι] in
/-- The endpoint of a websocket that is in no set goes on anywhere. -/
theorem Inv.goOn_of_notMem (hs : s.Inv) {w : W} (hw : ∀ tag, w ∉ s.websockets tag)
    (e : Endpoint V) : (s.goOn w e).Inv :=
  hs.goOn (fun tag hmem => absurd hmem (hw tag)) fun tag _ _ hmem _ _ => absurd hmem (hw tag)

omit [DecidableEq V] [DecidableEq ι] in
/-- An endpoint that is registered goes on under its tag. -/
theorem Inv.goOn_of_registered (hs : s.Inv) {w : W} {e : Endpoint V} {tag : String}
    (hw : (s.endpoints w).registered = some tag) (he : e.registered = some tag)
    (hawaits : ∀ m v, (s.delivery.pending tag).lookup m = some v → (s.endpoints w).Awaits v →
      (w, v) ∈ s.sent ∨ e.Awaits v) : (s.goOn w e).Inv := by
  have htag {tag' : String} (hmem : w ∈ s.websockets tag') : tag' = tag :=
    Option.some.inj ((hs.registered tag' w hmem).symm.trans hw)
  refine hs.goOn (fun tag' hmem => ?_) fun tag' m v hmem hv => ?_
  · rw [htag hmem]
    exact he
  · rw [htag hmem] at hv
    exact hawaits m v hv

omit [DecidableEq V] [DecidableEq ι] in
/-- A websocket is added whose endpoint is before its snapshot. -/
theorem Inv.addWebsocket (hs : s.Inv) {w : W} {tag : String} (hw : s.endpoints w = .snapshot tag) :
    (s.addWebsocket tag w).Inv where
  registered tag' w' hw' := by
    rcases mem_addWebsocket.1 hw' with ⟨rfl, rfl⟩ | hw'
    · exact congrArg Endpoint.registered hw
    · exact hs.registered tag' w' hw'
  covers tag' m v w' hv hw' := by
    rcases mem_addWebsocket.1 hw' with ⟨rfl, rfl⟩ | hw'
    · refine .inr (.inr (.inl ?_))
      change (s.endpoints w').Awaits v
      rw [hw]
      trivial
    · exact hs.covers tag' m v w' hv hw'

omit [DecidableEq V] [DecidableEq ι] in
/-- A websocket is removed. -/
theorem Inv.removeWebsocket (hs : s.Inv) (tag : String) (w : W) :
    (s.removeWebsocket tag w).Inv where
  registered tag' w' hw' := hs.registered tag' w' (mem_removeWebsocket.1 hw').1
  covers tag' m v w' hv hw' := hs.covers tag' m v w' hv (mem_removeWebsocket.1 hw').1

omit [DecidableEq V] [DecidableEq W] [DecidableEq ι] in
/-- The messages that become pending are covered. -/
theorem Inv.of_delivery (hs : s.Inv) {d : DeliveryState V}
    (hd : ∀ tag m v, (d.pending tag).lookup m = some v →
      (s.delivery.pending tag).lookup m = some v ∨ ∀ w ∈ s.websockets tag, s.Covers tag w v) :
    Inv { s with delivery := d } where
  registered := hs.registered
  covers tag m v w hv hw := by
    rcases hd tag m v hv with hv' | hcovers
    · exact hs.covers tag m v w hv' hw
    · exact hcovers w hw

omit [DecidableEq V] [DecidableEq W] in
/-- A call goes on, and still brings what it has not scheduled. -/
theorem Inv.goOnCall (hs : s.Inv) {i : ι} {c : PushCall V W}
    (hc : ∀ tag w v, w ∈ s.websockets tag → (s.calls i).Brings tag w v →
      (w, v) ∈ s.tasks ∨ c.Brings tag w v) : (s.goOnCall i c).Inv where
  registered := hs.registered
  covers tag m v w hv hw := by
    rcases hs.covers tag m v w hv hw with hsent | htask | hend | ⟨j, hj⟩
    · exact .inl hsent
    · exact .inr (.inl htask)
    · exact .inr (.inr (.inl hend))
    · by_cases hji : j = i
      · subst hji
        rcases hc tag w v hw hj with htask | hbrings
        · exact .inr (.inl htask)
        · refine .inr (.inr (.inr ⟨j, ?_⟩))
          rwa [calls_goOnCall, if_pos rfl]
      · refine .inr (.inr (.inr ⟨j, ?_⟩))
        rwa [calls_goOnCall, if_neg hji]

omit [DecidableEq V] [DecidableEq W] [DecidableEq ι] in
/-- What was scheduled or sent stays scheduled or sent. -/
theorem Inv.of_tasks (hs : s.Inv) {tasks : Multiset (W × PrivateRecord V)}
    {sent : List (W × PrivateRecord V)} (hsent : ∀ x ∈ s.sent, x ∈ sent)
    (htasks : ∀ x ∈ s.tasks, x ∈ sent ∨ x ∈ tasks) :
    Inv { s with tasks := tasks, sent := sent } where
  registered := hs.registered
  covers tag m v w hv hw := by
    rcases hs.covers tag m v w hv hw with hx | hx | hend | hcall
    · exact .inl (hsent _ hx)
    · rcases htasks _ hx with hx | hx
      · exact .inl hx
      · exact .inr (.inl hx)
    · exact .inr (.inr (.inl hend))
    · exact .inr (.inr (.inr hcall))

omit [DecidableEq V] [DecidableEq W] [DecidableEq ι] in
/-- A websocket whose endpoint is not registered is in no set. -/
theorem Inv.notMem (hs : s.Inv) {w : W} (hw : (s.endpoints w).registered = none) (tag : String) :
    w ∉ s.websockets tag := by
  intro hmem
  rw [hs.registered tag w hmem] at hw
  cases hw

end PushState

namespace DeliveryState

omit [DecidableEq V] in
/-- An acknowledged message is pending no more, and the others stay as they are. -/
theorem lookup_of_deliver {d : DeliveryState V} {r m tag m' : String} {v : PrivateRecord V}
    (h : ((d.deliver r m).pending tag).lookup m' = some v) :
    (d.pending tag).lookup m' = some v := by
  rw [lookup_deliver] at h
  split_ifs at h
  exact h

omit [DecidableEq V] in
theorem lookup_of_consumeDelivery {d : DeliveryState V} {value : DeliveryRecord} {tag m : String}
    {v : PrivateRecord V} (h : ((d.consumeDelivery value).pending tag).lookup m = some v) :
    (d.pending tag).lookup m = some v := by
  rw [consumeDelivery] at h
  split at h
  · exact h
  · exact lookup_of_deliver h

omit [DecidableEq V] [DecidableEq W] in
/-- What becomes pending is then broadcast. -/
theorem lookup_of_consumePrivate {d : DeliveryState V} {value : PrivateRecord V} {tag m : String}
    {v : PrivateRecord V} (h : ((d.consumePrivate value).pending tag).lookup m = some v) :
    (d.pending tag).lookup m = some v ∨
      (d.afterStore value : PushCall V W) = .broadcast tag v := by
  rcases hpair : value.pair with _ | ⟨r, m'⟩
  · rw [consumePrivate, hpair] at h
    exact .inl h
  · rw [consumePrivate, hpair] at h
    rw [afterStore, hpair]
    dsimp only at h ⊢
    split_ifs at h ⊢
    · exact .inl h
    · rw [lookup_store] at h
      split_ifs at h with hkey
      · obtain ⟨rfl, rfl⟩ := Prod.mk.inj hkey
        rw [Option.some.inj h]
        exact .inr rfl
      · exact .inl h

end DeliveryState

namespace PushState

variable {s s' : PushState V W ι}

omit [DecidableEq V] [DecidableEq W] [DecidableEq ι] in
theorem mem_pendingMessages {tag m : String} {v : PrivateRecord V}
    (h : (s.delivery.pending tag).lookup m = some v) : v ∈ s.pendingMessages tag :=
  Multiset.mem_map.2 ⟨⟨m, v⟩, Finmap.mem_lookup_iff.1 h, rfl⟩

/-! ## The steps -/

/-- A websocket that connects is registered nowhere yet. -/
theorem inv_connect {w : W} {tag : String} (hs : s.Inv) (h : s.next (.connect w tag) = some s') :
    s'.Inv := by
  rw [next] at h
  split at h <;> cases h
  rename_i hw
  exact hs.goOn_of_notMem (hs.notMem (by rw [hw]; rfl)) _

theorem inv_add {w : W} (hs : s.Inv) (h : s.next (.add w) = some s') : s'.Inv := by
  rw [next] at h
  split at h <;> cases h
  rename_i tag hw
  have hgoOn : (s.goOn w (.snapshot tag)).Inv :=
    hs.goOn_of_notMem (hs.notMem (by rw [hw]; rfl)) _
  exact hgoOn.addWebsocket (by rw [endpoints_goOn, if_pos rfl])

/-- What is pending then is in the snapshot. -/
theorem inv_snapshot {w : W} (hs : s.Inv) (h : s.next (.snapshot w) = some s') : s'.Inv := by
  rw [next] at h
  split at h <;> cases h
  rename_i tag hw
  have hregistered : (s.endpoints w).registered = some tag := congrArg Endpoint.registered hw
  refine hs.goOn_of_registered hregistered rfl fun m v hv _ => .inr ?_
  exact mem_pendingMessages hv

/-- The message moves from what the flush awaits to what has been sent. -/
theorem inv_send {w : W} {message : PrivateRecord V} (hs : s.Inv)
    (h : s.next (.send w message) = some s') : s'.Inv := by
  rw [next] at h
  split at h
  · split_ifs at h
    cases h
    rename_i tag messages hw _
    have hsent : Inv { s with sent := s.sent ++ [(w, message)] } :=
      hs.of_tasks (fun x hx => List.mem_append_left _ hx) fun x hx => .inr hx
    refine hsent.goOn_of_registered (congrArg Endpoint.registered hw) rfl fun m v hv hawaits => ?_
    change (s.endpoints w).Awaits v at hawaits
    rw [hw] at hawaits
    by_cases hvm : v = message
    · subst hvm
      exact .inl (List.mem_append_right _ (List.mem_singleton_self _))
    · exact .inr ((Multiset.mem_erase_of_ne hvm).2 hawaits)
  · cases h

/-- The flush is over by then. -/
theorem inv_receive {w : W} {messageId : String} (hs : s.Inv)
    (h : s.next (.receive w messageId) = some s') : s'.Inv := by
  rw [next] at h
  split at h
  · split_ifs at h with hmessages
    cases h
    rename_i tag messages hw
    refine hs.goOn_of_registered (congrArg Endpoint.registered hw) rfl fun m v hv hawaits => ?_
    rw [hw, hmessages] at hawaits
    exact absurd hawaits (Multiset.notMem_zero v)
  · cases h

theorem inv_ack {w : W} (hs : s.Inv) (h : s.next (.ack w) = some s') : s'.Inv := by
  rw [next] at h
  split at h <;> cases h
  rename_i tag messageId hw
  have hdelivery : Inv { s with delivery := s.delivery.ack tag messageId } :=
    hs.of_delivery fun tag' m v hv => .inl (DeliveryState.lookup_of_deliver hv)
  refine hdelivery.goOn_of_registered (congrArg Endpoint.registered hw) rfl fun m v hv hawaits => ?_
  change (s.endpoints w).Awaits v at hawaits
  rw [hw] at hawaits
  exact hawaits.elim

/-- The endpoint then awaits nothing but its removal. -/
theorem inv_raise {w : W} (hs : s.Inv) (h : s.next (.raise w) = some s') : s'.Inv := by
  have hraise (tag : String) (hw : (s.endpoints w).registered = some tag) :
      (s.goOn w (.remove tag)).Inv :=
    hs.goOn_of_registered hw rfl fun m v hv _ => .inr trivial
  rw [next] at h
  split at h <;> cases h
  · rename_i tag messages hw
    exact hraise tag (congrArg Endpoint.registered hw)
  · rename_i tag messageId hw
    exact hraise tag (congrArg Endpoint.registered hw)

/-- A websocket that is removed needs nothing more. -/
theorem inv_remove {w : W} (hs : s.Inv) (h : s.next (.remove w) = some s') : s'.Inv := by
  rw [next] at h
  split at h <;> cases h
  rename_i tag hw
  refine (hs.removeWebsocket tag w).goOn_of_notMem (fun tag' => ?_) _
  rw [mem_removeWebsocket]
  rintro ⟨hmem, hne⟩
  have htag := (congrArg Endpoint.registered hw).symm.trans (hs.registered tag' w hmem)
  exact hne ⟨(Option.some.inj htag).symm, rfl⟩

/-- What becomes pending is what the call is about to broadcast. -/
theorem inv_consume {i : ι} {value : PrivateRecord V} (hs : s.Inv)
    (h : s.next (.consume i value) = some s') : s'.Inv := by
  rw [next] at h
  split at h <;> cases h
  rename_i hi
  have hcall : (s.goOnCall i (s.delivery.afterStore value)).Inv :=
    hs.goOnCall fun tag w v hmem hbrings => by
      rw [hi] at hbrings
      exact hbrings.elim
  refine hcall.of_delivery fun tag m v hv => ?_
  rcases DeliveryState.lookup_of_consumePrivate (W := W) hv with hv | hafter
  · exact .inl hv
  · refine .inr fun w _ => .inr (.inr (.inr ⟨i, ?_⟩))
    rw [calls_goOnCall, if_pos rfl, hafter]
    exact ⟨rfl, rfl⟩

/-- The websockets that are registered then are the targets. -/
theorem inv_broadcast {i : ι} (hs : s.Inv) (h : s.next (.broadcast i) = some s') : s'.Inv := by
  rw [next] at h
  split at h <;> cases h
  rename_i recipient value hi
  refine hs.goOnCall fun tag w v hmem hbrings => .inr ?_
  rw [hi] at hbrings
  obtain ⟨rfl, rfl⟩ := hbrings
  exact ⟨rfl, hmem⟩

/-- The message moves from the targets of the push to the scheduled coroutines. -/
theorem inv_push {i : ι} {w : W} (hs : s.Inv) (h : s.next (.push i w) = some s') : s'.Inv := by
  rw [next] at h
  split at h
  · split_ifs at h
    cases h
    rename_i value targets hi _
    have htasks : Inv { s with tasks := (w, value) ::ₘ s.tasks } :=
      hs.of_tasks (fun x hx => hx) fun x hx => .inr (Multiset.mem_cons_of_mem hx)
    refine htasks.goOnCall fun tag w' v hmem hbrings => ?_
    change (s.calls i).Brings tag w' v at hbrings
    rw [hi] at hbrings
    obtain ⟨rfl, hw'⟩ := hbrings
    by_cases hww' : w' = w
    · subst hww'
      exact .inl (Multiset.mem_cons_self _ _)
    · exact .inr ⟨rfl, Finset.mem_erase.2 ⟨hww', hw'⟩⟩
  · cases h

/-- The message moves from the scheduled coroutines to what has been sent. -/
theorem inv_task {w : W} {message : PrivateRecord V} (hs : s.Inv)
    (h : s.next (.task w message) = some s') : s'.Inv := by
  rw [next] at h
  split_ifs at h
  cases h
  refine hs.of_tasks (fun x hx => List.mem_append_left _ hx) fun x hx => ?_
  by_cases hxm : x = (w, message)
  · subst hxm
    exact .inl (List.mem_append_right _ (List.mem_singleton_self _))
  · exact .inr ((Multiset.mem_erase_of_ne hxm).2 hx)

/-- Every step keeps that what is pending has been sent, or is on its way. -/
theorem inv_next {a : PushEvent V W ι} (hs : s.Inv) (h : s.next a = some s') : s'.Inv := by
  cases a with
  | connect w tag => exact inv_connect hs h
  | add w => exact inv_add hs h
  | snapshot w => exact inv_snapshot hs h
  | send w message => exact inv_send hs h
  | receive w messageId => exact inv_receive hs h
  | ack w => exact inv_ack hs h
  | raise w => exact inv_raise hs h
  | remove w => exact inv_remove hs h
  | consume i value => exact inv_consume hs h
  | broadcast i => exact inv_broadcast hs h
  | push i w => exact inv_push hs h
  | task w message => exact inv_task hs h
  | consumeDelivery value =>
    cases h
    exact hs.of_delivery fun tag m v hv => .inl (DeliveryState.lookup_of_consumeDelivery hv)
  | postAck tag messageId =>
    cases h
    exact hs.of_delivery fun tag m v hv => .inl (DeliveryState.lookup_of_deliver hv)

theorem inv_of_reachable (h : (system V W ι).Reachable s) : s.Inv := by
  refine h.invariant (I := Inv) ?_ fun s a s' hs hstep => inv_next hs hstep
  rintro s rfl
  exact inv_new

/-- A step calls one of the handlers of private messages, or none. -/
theorem delivery_next {a : PushEvent V W ι} (h : s.next a = some s') :
    s'.delivery = s.delivery ∨ ∃ e, s'.delivery = s.delivery.next e := by
  cases a with
  | ack w =>
    rw [next] at h
    split at h <;> cases h
    rename_i tag messageId hw
    exact .inr ⟨.ack tag messageId, rfl⟩
  | consume i value =>
    rw [next] at h
    split at h <;> cases h
    exact .inr ⟨.consumePrivate value, rfl⟩
  | consumeDelivery value =>
    cases h
    exact .inr ⟨.consumeDelivery value, rfl⟩
  | postAck tag messageId =>
    cases h
    exact .inr ⟨.ack tag messageId, rfl⟩
  | task w message =>
    rw [next] at h
    split_ifs at h
    cases h
    exact .inl rfl
  | send w message | receive w messageId | push i w =>
    rw [next] at h
    split at h
    · split_ifs at h
      cases h
      exact .inl rfl
    · cases h
  | connect w tag | add w | snapshot w | raise w | remove w | broadcast i =>
    rw [next] at h
    split at h <;> cases h <;> exact .inl rfl

/-- What is pending, and what has been delivered, is what the handlers leave, called in
    some order. -/
theorem exists_delivery_eq_run (h : (system V W ι).Reachable s) :
    ∃ events, s.delivery = DeliveryState.run events := by
  refine h.invariant (I := fun s => ∃ events, s.delivery = DeliveryState.run events) ?_ ?_
  · rintro s rfl
    exact ⟨[], rfl⟩
  · rintro s a s' ⟨events, hevents⟩ hstep
    rcases delivery_next hstep with hsame | ⟨e, he⟩
    · exact ⟨events, hsame.trans hevents⟩
    · refine ⟨events ++ [e], ?_⟩
      rw [he, hevents, DeliveryState.run, DeliveryState.run, List.foldl_append, List.foldl_cons,
        List.foldl_nil]

/-- So a message that has been delivered is not pending. -/
theorem pending_of_delivered (h : (system V W ι).Reachable s) {tag m : String}
    (hm : (tag, m) ∈ s.delivery.delivered) : (s.delivery.pending tag).lookup m = none := by
  obtain ⟨events, hevents⟩ := exists_delivery_eq_run h
  rw [hevents] at hm ⊢
  exact DeliveryState.pending_of_delivered hm

omit [DecidableEq V] [DecidableEq W] [DecidableEq ι] in
/-- A quiet endpoint awaits nothing. -/
theorem Quiet.not_awaits (hs : s.Quiet) (w : W) (v : PrivateRecord V) :
    ¬(s.endpoints w).Awaits v := by
  have hw := hs.endpoints w
  intro hawaits
  cases he : s.endpoints w with
  | serve tag messages =>
    rw [he] at hw hawaits
    obtain rfl : messages = 0 := hw
    exact Multiset.notMem_zero v hawaits
  | snapshot tag | remove tag => rw [he] at hw; exact hw
  | connect | add tag | ack tag messageId | closed => rw [he] at hawaits; exact hawaits

omit [DecidableEq V] [DecidableEq W] [DecidableEq ι] in
/-- A quiet call brings nothing. -/
theorem Quiet.not_brings (hs : s.Quiet) (i : ι) (tag : String) (w : W) (v : PrivateRecord V) :
    ¬(s.calls i).Brings tag w v := by
  have hi := hs.calls i
  intro hbrings
  cases hc : s.calls i with
  | idle => rw [hc] at hbrings; exact hbrings
  | broadcast recipient value => rw [hc] at hi; exact hi
  | push value targets =>
    rw [hc] at hi hbrings
    obtain rfl : targets = ∅ := hi
    exact Finset.notMem_empty w hbrings.2

/-- No private message is missed between the flush and the push: whenever no step is
    outstanding, every message that is still pending for a tag has been sent to every
    websocket that is registered for it. -/
theorem no_message_missed (h : (system V W ι).Reachable s) (hs : s.Quiet) (tag m : String)
    (v : PrivateRecord V) (hv : (s.delivery.pending tag).lookup m = some v) (w : W)
    (hw : w ∈ s.websockets tag) : (w, v) ∈ s.sent := by
  rcases (inv_of_reachable h).covers tag m v w hv hw with hsent | htask | hend | ⟨i, hi⟩
  · exact hsent
  · rw [hs.tasks] at htask
    exact absurd htask (Multiset.notMem_zero _)
  · exact absurd hend (hs.not_awaits w v)
  · exact absurd hi (hs.not_brings i tag w v)

/-- A message for bob. -/
def message : PrivateRecord Unit := ⟨some "bob", some "1", ()⟩

/-- Bob connects while a message for him arrives, which is stored after his websocket
    has been added and before the snapshot, so that he gets it twice; then he connects
    from a second place. -/
def meanwhile : List (PushEvent Unit Bool Unit) :=
  [.connect false "bob", .add false, .consume () message, .snapshot false, .broadcast (),
    .push () false, .send false message, .task false message,
    .connect true "bob", .add true, .snapshot true, .send true message]

/-- What it leads to. -/
def afterMeanwhile : PushState Unit Bool Unit := (meanwhile.foldlM next new).get (by decide)

theorem no_message_missed_meanwhile :
    (afterMeanwhile.delivery.pending "bob").lookup "1" = some message ∧
      ∀ w, w ∈ afterMeanwhile.websockets "bob" ∧ (w, message) ∈ afterMeanwhile.sent := by
  have hreach : (system Unit Bool Unit).Reachable afterMeanwhile :=
    ⟨new, meanwhile, rfl, .of_foldlM (Option.some_get _).symm⟩
  have hquiet : afterMeanwhile.Quiet := by
    refine ⟨fun w => ?_, fun i => rfl, by decide⟩
    cases w <;> rfl
  have hpending : (afterMeanwhile.delivery.pending "bob").lookup "1" = some message := by decide
  have hwebsockets : afterMeanwhile.websockets "bob" = Finset.univ := by decide
  refine ⟨hpending, fun w => ?_⟩
  have hw : w ∈ afterMeanwhile.websockets "bob" := hwebsockets ▸ Finset.mem_univ w
  exact ⟨hw, no_message_missed hreach hquiet "bob" "1" message hpending w hw⟩

end PushState

end SecNet
