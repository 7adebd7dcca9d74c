import SecNet.Chat.Service
import SecNet.Lib.Transition

/-!
# Runs of the chat service

What happens to the service, one event after the other: requests that publish, records that its
consumers read, and websockets that come and go.

* `PushedOnce`: a record that is pushed once to each websocket of an audience;
* `pushedOnce_toFinset_iff`: what is pushed to some targets is pushed once to each of them when
  none is found twice;
* `Websockets.nodup_ofTags`, `Websockets.nodup_all`: that is, when no two tags share a websocket.
-/

namespace SecNet

variable {F W : Type} [PyFloat F] [PyFloatInt F] [PyRepr F] [DecidableEq W]

/-- The requests that publish more than an event of the network. -/
inductive Route
  | general | privateMessage | createGroup | mlsEvents | ack
  deriving DecidableEq

/-- What happens to the service. -/
inductive ChatEvent (W F : Type)
  | post (route : Route) (request : ChatRequest F)
  | general (value : Dict F)
  | privateMessage (value : Dict F)
  | delivery (value : Dict F)
  | mlsEvent (value : Dict F)
  | groupDirectory (value : Dict F)
  | groupMessage (value : Dict F)
  | addWebsocket (tag : String) (w : W)
  | removeWebsocket (tag : String) (w : W)

namespace ChatState

/-- The handler of a route. -/
def handle (s : ChatState W F) (request : ChatRequest F) :
    Route → ChatState W F × Except Exn (Json F)
  | .general => publishGeneral request s
  | .privateMessage => publishPrivate request s
  | .createGroup => SecNet.createGroup request s
  | .mlsEvents => handleMlsEvent request s
  | .ack => SecNet.ack request s

/-- What an event does to the service. -/
def next (s : ChatState W F) : ChatEvent W F → ChatState W F
  | .post route request => (s.handle request route).1
  | .general value => (s.consumeGeneral value).1
  | .privateMessage value => (s.consumePrivate value).1
  | .delivery value => s.consumeDelivery value
  | .mlsEvent value => (s.consumeMlsEvent value).1
  | .groupDirectory value => s.consumeGroupDirectory value
  | .groupMessage value => (s.consumeGroupMessage value).1
  | .addWebsocket tag w => { s with websockets := s.websockets.add tag w }
  | .removeWebsocket tag w => { s with websockets := s.websockets.remove tag w }

end ChatState

/-! ## The audience of a push -/

omit [PyFloat F] [PyFloatInt F] [PyRepr F] [DecidableEq W] in
/-- A payload is pushed once to each websocket of an audience, and to no other. -/
def PushedOnce (pushes : Pushes W F) (payload : Json F) (audience : Finset W) : Prop :=
  pushes.1 = audience.val.map fun w => (w, payload)

omit [PyFloat F] [PyFloatInt F] [PyRepr F] in
/-- What is pushed to some targets is pushed to each of them once when none of them is found
    twice. -/
theorem pushedOnce_toFinset_iff {pushes : Pushes W F} {targets : Multiset W} {payload : Json F}
    (h : pushes.1 = targets.map fun w => (w, payload)) :
    PushedOnce pushes payload targets.toFinset ↔ targets.Nodup := by
  have hinj : Function.Injective fun w : W => (w, payload) := fun _ _ h => congrArg Prod.fst h
  rw [PushedOnce, h, (Multiset.map_injective hinj).eq_iff, Multiset.toFinset_val, eq_comm,
    Multiset.dedup_eq_self]

namespace Websockets

variable (ws : Websockets W)

/-- The websockets that are registered. -/
def everyone : Finset W := ws.all.toFinset

/-- The sockets of some tags, one tag after the other. -/
def ofTags (tags : List String) : Multiset W :=
  (tags : Multiset String).bind fun tag => (ws.sockets tag).val

/-- The websockets that are registered under one of some tags. -/
def registered (tags : List String) : Finset W := (ws.ofTags tags).toFinset

variable {ws} {tags : List String} {tag : String} {w : W}

theorem mem_registered : w ∈ ws.registered tags ↔ ∃ tag ∈ tags, w ∈ ws.sockets tag := by
  rw [registered, Multiset.mem_toFinset, ofTags, Multiset.mem_bind]
  rfl

omit [DecidableEq W] in
theorem all_eq_ofTags : ws.all = ws.ofTags ws.tags.toList := by
  rw [ofTags, Finset.coe_toList]
  rfl

omit [DecidableEq W] in
theorem mem_tags (h : w ∈ ws.sockets tag) : tag ∈ ws.tags := by
  by_contra htag
  rw [ws.sockets_of_notMem tag htag] at h
  exact Finset.notMem_empty w h

theorem mem_everyone : w ∈ ws.everyone ↔ ∃ tag, w ∈ ws.sockets tag := by
  rw [everyone, all_eq_ofTags, ← registered, mem_registered]
  constructor
  · rintro ⟨tag, -, hw⟩
    exact ⟨tag, hw⟩
  · rintro ⟨tag, hw⟩
    exact ⟨tag, Finset.mem_toList.2 (mem_tags hw), hw⟩

omit [DecidableEq W] in
/-- No socket is found twice when no two of the tags share one. -/
theorem nodup_ofTags : (ws.ofTags tags).Nodup ↔
    tags.Pairwise fun tag tag' => Disjoint (ws.sockets tag) (ws.sockets tag') := by
  have hsymm : Std.Symm fun tag tag' => Disjoint (ws.sockets tag) (ws.sockets tag') :=
    ⟨fun _ _ h => h.symm⟩
  -- Disjoint sets are disjoint as multisets.
  have hdisjoint : (Function.onFun Disjoint fun tag => (ws.sockets tag).val) =
      fun tag tag' => Disjoint (ws.sockets tag) (ws.sockets tag') := by
    funext tag tag'
    exact propext Finset.disjoint_val
  rw [ofTags, Multiset.nodup_bind, ← Multiset.pairwise_coe_iff_pairwise, hdisjoint]
  exact and_iff_right fun tag _ => (ws.sockets tag).nodup

omit [DecidableEq W] in
/-- No socket is found twice when each is registered under one tag. -/
theorem nodup_all : ws.all.Nodup ↔
    ∀ tag tag' w, w ∈ ws.sockets tag → w ∈ ws.sockets tag' → tag = tag' := by
  have hsymm : Std.Symm fun tag tag' => Disjoint (ws.sockets tag) (ws.sockets tag') :=
    ⟨fun _ _ h => h.symm⟩
  rw [all_eq_ofTags, nodup_ofTags, ← ws.tags.nodup_toList.pairwise_coe]
  constructor
  · intro hdisjoint tag tag' w hw hw'
    by_contra hne
    exact Finset.disjoint_left.1 (hdisjoint (Finset.mem_toList.2 (mem_tags hw))
      (Finset.mem_toList.2 (mem_tags hw')) hne) hw hw'
  · intro hsame tag _ tag' _ hne
    exact Finset.disjoint_left.2 fun w hw hw' => hne (hsame tag tag' w hw hw')

end Websockets

end SecNet
