import SecNet.Chat.ServiceRuns

/-!
# The events of the general channel

Who is told of a record of `chat-general` and of `mls-group-events`. A message of the general
channel is pushed to the websockets of its sender; an event of its group to all websockets.

* `pushedOnce_broadcast_iff`: who is reached by a broadcast;
* `reachesEveryone_iff`: a record reaches every websocket exactly when it has no recipient, and
  each websocket one tag, or every websocket is registered under the tag of the recipient;
* `everyone_reached`: so along every run.
-/

namespace SecNet

variable {F W : Type} [PyFloat F] [PyFloatInt F] [PyRepr F] [DecidableEq W]

namespace Websockets

/-- The websockets that a recipient is found to have. -/
def named (ws : Websockets W) : Json F → Finset W
  | .str s => (s.toText.map ws.sockets).getD ∅
  | _ => ∅

/-- Every websocket is one of those that a recipient is found to have; or there is no recipient,
    and every websocket is registered under one tag. -/
def AllFor (ws : Websockets W) (recipient : Json F) : Prop :=
  if recipient.truth then ∀ tag, ws.sockets tag ⊆ ws.named recipient
  else ∀ tag tag' w, w ∈ ws.sockets tag → w ∈ ws.sockets tag' → tag = tag'

end Websockets

namespace ChatState

/-- A record of the channel is pushed once to every websocket that is registered. -/
def ReachesEveryone (s : ChatState W F) : ChatEvent W F → Prop
  | .general value => PushedOnce (s.consumeGeneral value).2 (payload "general" "message" value)
      s.websockets.everyone
  | .mlsEvent value => PushedOnce (s.consumeMlsEvent value).2 (payload "mls" "event" value)
      s.websockets.everyone
  | _ => True

/-- Every websocket is registered under the tag of the sender of a message; and when an event of
    the group is read, under one tag. -/
def UnderSender (s : ChatState W F) : ChatEvent W F → Prop
  | .general value => s.websockets.AllFor (value.get "sender_tag")
  | .mlsEvent _ => s.websockets.AllFor (.null : Json F)
  | _ => True

variable {s : ChatState W F}

omit [PyFloatInt F] [PyRepr F] [DecidableEq W] in
/-- What is pushed to a recipient. -/
theorem fst_broadcast {recipient : Json F} (h : recipient.truth) (payload : Json F) :
    (s.broadcast recipient payload).1 =
      (s.websockets.named recipient).val.map fun w => (w, payload) := by
  unfold broadcast Websockets.targets
  rw [if_pos h]
  cases recipient with
  | str text =>
    dsimp only [Websockets.named]
    cases text.toText <;> rfl
  | _ => rfl

omit [PyFloatInt F] [PyRepr F] in
/-- A broadcast reaches every websocket once, exactly when all of them are its recipient's, or it
    has none and every websocket has one tag. -/
theorem pushedOnce_broadcast_iff (recipient payload : Json F) :
    PushedOnce (s.broadcast recipient payload) payload s.websockets.everyone ↔
      s.websockets.AllFor recipient := by
  rw [Websockets.AllFor]
  split_ifs with h
  · have hinj : Function.Injective fun w : W => (w, payload) := fun _ _ h => congrArg Prod.fst h
    -- The sockets of the recipient are registered: the question is whether there are others.
    have hnamed : s.websockets.named recipient ⊆ s.websockets.everyone := by
      intro w hw
      rw [Websockets.mem_everyone]
      cases recipient with
      | str text =>
        rw [Websockets.named] at hw
        rcases htext : text.toText with _ | tag
        · rw [htext] at hw
          exact absurd hw (Finset.notMem_empty w)
        · rw [htext] at hw
          exact ⟨tag, hw⟩
      | _ => exact absurd hw (Finset.notMem_empty w)
    rw [PushedOnce, fst_broadcast h, (Multiset.map_injective hinj).eq_iff, Finset.val_inj]
    constructor
    · intro hsame tag w hw
      rw [hsame]
      exact Websockets.mem_everyone.2 ⟨tag, hw⟩
    · intro hall
      refine hnamed.antisymm fun w hw => ?_
      obtain ⟨tag, hw⟩ := Websockets.mem_everyone.1 hw
      exact hall tag hw
  · have hall : (s.broadcast recipient payload).1 = s.websockets.all.map fun w => (w, payload) := by
      unfold broadcast Websockets.targets
      rw [if_neg h]
    exact (pushedOnce_toFinset_iff hall).trans Websockets.nodup_all

omit [PyFloatInt F] [PyRepr F] in
/-- A record reaches every websocket, exactly when all of them are registered under the tag of its
    sender; and an event of the group, exactly when each has one tag. -/
theorem reachesEveryone_iff (s : ChatState W F) (event : ChatEvent W F) :
    s.ReachesEveryone event ↔ s.UnderSender event := by
  cases event with
  | general value => exact pushedOnce_broadcast_iff ..
  | mlsEvent value => exact pushedOnce_broadcast_iff ..
  | _ => exact iff_of_true trivial trivial

/-- The records of the channel reach every websocket once: along a run, exactly when every
    websocket is registered under the tag of the sender of each message, and under one tag. -/
theorem everyone_reached (s : ChatState W F) (events : List (ChatEvent W F)) :
    System.AllSteps next ReachesEveryone s events ↔ System.AllSteps next UnderSender s events :=
  System.AllSteps.iff (I := fun _ => True) (fun s event _ => reachesEveryone_iff s event)
    (fun _ _ _ _ => trivial) trivial events

/-- A message of alice. -/
def aliceMessage : Dict (List Char) := Dict.ofList [("sender_tag", .ofString "alice")]

/-- Alice and bob connect, and alice sends a message. -/
def aliceSends : List (ChatEvent ℕ (List Char)) :=
  [.addWebsocket "alice" 0, .addWebsocket "bob" 1, .general aliceMessage]

/-- Bob, whose websocket is registered, is not told of the message. -/
theorem message_reaches_sender_only :
    ¬System.AllSteps next ReachesEveryone (ChatState.new (W := ℕ)) aliceSends := by
  intro h
  -- One push is made, and two websockets are registered.
  have hpushed : PushedOnce _ _ _ := h.2.2.1
  have hcard := congrArg Multiset.card hpushed
  exact absurd hcard (by decide)

end ChatState

end SecNet
