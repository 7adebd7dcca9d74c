import SecNet.Lib.Tombstones
import Mathlib.Data.Finmap
import Mathlib.Tactic

/-!
# Private delivery

What `chat_service.py` keeps of private messages: the ones that are pending, by
recipient and message id, and the pairs that have been delivered. Three handlers
change it, in steps that hold the lock of the service: the consumer of
`chat-private`, the consumer of `delivery-state`, and the acknowledgements.

* `toStore_run`: to the service, the pairs are keys of a store with tombstones;
* `deliveryKey_injective`: the key of a `delivery-state` record tells the pair;
* `private_delivery_converges`: the handlers converge, in any order and with any
  duplicates, and also when `delivery-state` has been compacted.
-/

namespace SecNet

variable {V : Type}

/-- A record of `chat-private`: what the consumer reads of it, and the rest. -/
structure PrivateRecord (V : Type) where
  recipientTag : Option String
  messageId : Option String
  rest : V
  deriving DecidableEq

/-- A record of `delivery-state`. -/
structure DeliveryRecord where
  state : Option String
  recipientTag : Option String
  messageId : Option String
  deriving DecidableEq

/-- The two fields of a record, where both are true. -/
def bothTrue (recipientTag messageId : Option String) : Option (String × String) := do
  let recipient ← recipientTag.filter (· ≠ "")
  let messageId ← messageId.filter (· ≠ "")
  some (recipient, messageId)

/-- The pair of a private record, if it has one. -/
def PrivateRecord.pair (value : PrivateRecord V) : Option (String × String) :=
  bothTrue value.recipientTag value.messageId

/-- The pair that a record says has been delivered, if it does. -/
def DeliveryRecord.pair (value : DeliveryRecord) : Option (String × String) :=
  if value.state = some "delivered" then bothTrue value.recipientTag value.messageId else none

/-- `_pending` and `_delivered`. -/
@[ext]
structure DeliveryState (V : Type) where
  pending : String → Finmap fun _ : String => PrivateRecord V
  delivered : Finset (String × String)

namespace DeliveryState

/-- At the start of the service. -/
def new : DeliveryState V := ⟨fun _ => ∅, ∅⟩

/-- `self._pending[recipient][message_id] = value`. -/
def store (s : DeliveryState V) (recipient messageId : String) (value : PrivateRecord V) :
    DeliveryState V :=
  { s with
    pending := Function.update s.pending recipient
      ((s.pending recipient).insert messageId value) }

/-- `self._delivered.add((recipient, message_id))`, and the `pop` from `_pending`. -/
def deliver (s : DeliveryState V) (recipient messageId : String) : DeliveryState V where
  pending := Function.update s.pending recipient ((s.pending recipient).erase messageId)
  delivered := insert (recipient, messageId) s.delivered

/-- The locked part of `_consume_private`. -/
def consumePrivate (s : DeliveryState V) (value : PrivateRecord V) : DeliveryState V :=
  match value.pair with
  | none => s
  | some (recipient, messageId) =>
    if (recipient, messageId) ∈ s.delivered then s else s.store recipient messageId value

/-- `_consume_delivery`. -/
def consumeDelivery (s : DeliveryState V) (value : DeliveryRecord) : DeliveryState V :=
  match value.pair with
  | none => s
  | some (recipient, messageId) => s.deliver recipient messageId

/-- What an acknowledgement does once its record is published, in `POST /api/ack`
    and in the loop of `websocket_endpoint`. -/
def ack (s : DeliveryState V) (tag messageId : String) : DeliveryState V := s.deliver tag messageId

end DeliveryState

/-- The key of a record of `delivery-state`. -/
def deliveryKey (recipient messageId : String) : String := recipient ++ ":" ++ messageId

/-- The calls of the handlers. -/
inductive DeliveryEvent (V : Type)
  | consumePrivate (value : PrivateRecord V)
  | consumeDelivery (value : DeliveryRecord)
  | ack (tag messageId : String)

namespace DeliveryState

/-- The state after a call. -/
def next (s : DeliveryState V) : DeliveryEvent V → DeliveryState V
  | .consumePrivate value => s.consumePrivate value
  | .consumeDelivery value => s.consumeDelivery value
  | .ack tag messageId => s.ack tag messageId

/-- The state after some calls. -/
def run (events : List (DeliveryEvent V)) : DeliveryState V := events.foldl next new

/-! ## The store of the pairs -/

/-- The pairs as the keys of a store. -/
def toStore (s : DeliveryState V) : Store (String × String) (PrivateRecord V) :=
  ⟨fun k => (s.pending k.1).lookup k.2, s.delivered⟩

theorem toStore_injective {s t : DeliveryState V} (h : s.toStore = t.toStore) : s = t := by
  have hpending : s.pending = t.pending := by
    funext r
    exact Finmap.ext_lookup fun m => congrFun (congrArg Store.live h) (r, m)
  have hdelivered : s.delivered = t.delivered := congrArg Store.dropped h
  rw [DeliveryState.ext_iff]
  exact ⟨hpending, hdelivered⟩

end DeliveryState

/-- What a call does to the pairs, if anything. -/
def DeliveryEvent.op : DeliveryEvent V → Option (Store.Op (String × String) (PrivateRecord V))
  | .consumePrivate value => value.pair.map fun k => .put k value
  | .consumeDelivery value => value.pair.map .drop
  | .ack tag messageId => some (.drop (tag, messageId))

namespace DeliveryState

theorem lookup_store (s : DeliveryState V) (r m : String) (v : PrivateRecord V) (r' m' : String) :
    ((s.store r m v).pending r').lookup m' =
      if (r', m') = (r, m) then some v else (s.pending r').lookup m' := by
  rw [store]
  by_cases hr : r' = r
  · subst hr
    by_cases hm : m' = m
    · subst hm
      simp
    · simp [hm, Finmap.lookup_insert_of_ne]
  · simp [hr]

theorem lookup_deliver (s : DeliveryState V) (r m r' m' : String) :
    ((s.deliver r m).pending r').lookup m' =
      if (r', m') = (r, m) then none else (s.pending r').lookup m' := by
  rw [deliver]
  by_cases hr : r' = r
  · subst hr
    by_cases hm : m' = m
    · subst hm
      simp
    · simp [hm, Finmap.lookup_erase_ne]
  · simp [hr]

theorem toStore_deliver (s : DeliveryState V) (r m : String) :
    (s.deliver r m).toStore = s.toStore.apply (.drop (r, m)) := by
  ext k : 2
  · rw [Store.live_drop]
    exact lookup_deliver s r m k.1 k.2
  · rfl

/-- A call is an operation on the store, or does nothing. -/
theorem toStore_next (s : DeliveryState V) (e : DeliveryEvent V) :
    (s.next e).toStore = e.op.toList.foldl Store.apply s.toStore := by
  cases e with
  | consumePrivate value =>
    rw [next, consumePrivate, DeliveryEvent.op]
    rcases value.pair with _ | ⟨r, m⟩
    · rfl
    · simp only [Option.map_some, Option.toList_some, List.foldl_cons, List.foldl_nil, Store.apply]
      split_ifs with h h' h'
      · rfl
      · exact absurd h h'
      · exact absurd h' h
      · ext k : 2
        · dsimp only
          rw [Function.update_apply]
          exact lookup_store s r m value k.1 k.2
        · rfl
  | consumeDelivery value =>
    rw [next, consumeDelivery, DeliveryEvent.op]
    rcases value.pair with _ | ⟨r, m⟩
    · rfl
    · exact toStore_deliver s r m
  | ack tag messageId => exact toStore_deliver s tag messageId

/-- So are some calls. -/
theorem toStore_run (events : List (DeliveryEvent V)) :
    (run events).toStore = (events.filterMap DeliveryEvent.op).foldl Store.apply .empty := by
  have hfold (s : DeliveryState V) : (events.foldl next s).toStore =
      (events.filterMap DeliveryEvent.op).foldl Store.apply s.toStore := by
    induction events generalizing s with
    | nil => rfl
    | cons e events ih =>
      rw [List.foldl_cons, ih, toStore_next]
      rcases hop : e.op with _ | op
      · rw [List.filterMap_cons_none hop]
        rfl
      · rw [List.filterMap_cons_some hop]
        rfl
  exact hfold new

/-- The calls drop a pair when one of them says that it has been delivered. -/
theorem mem_delivered_run (events : List (DeliveryEvent V)) (k : String × String) :
    k ∈ (run events).delivered ↔ ∃ e ∈ events, e.op = some (.drop k) := by
  have hmem := Store.mem_dropped_foldl .empty (events.filterMap DeliveryEvent.op) k
  rw [← toStore_run] at hmem
  rw [List.mem_filterMap] at hmem
  exact hmem.trans (or_iff_right (Finset.notMem_empty k))

/-- A pair that has been delivered is not pending. -/
theorem pending_of_delivered {events : List (DeliveryEvent V)} {r m : String}
    (h : (r, m) ∈ (run events).delivered) : ((run events).pending r).lookup m = none := by
  have hclean := Store.clean_foldl Store.clean_empty (events.filterMap DeliveryEvent.op)
  rw [← toStore_run] at hclean
  exact hclean (r, m) h

end DeliveryState

/-! ## The logs -/

theorem bothTrue_eq_some {a b : Option String} {r m : String} :
    bothTrue a b = some (r, m) ↔ (a = some r ∧ r ≠ "") ∧ b = some m ∧ m ≠ "" := by
  simp only [bothTrue, Option.bind_eq_bind, Option.bind_eq_some_iff, Option.filter_eq_some_iff,
    decide_eq_true_eq, Option.some.injEq, Prod.mk.injEq]
  constructor
  · rintro ⟨r, hr, m, hm, rfl, rfl⟩
    exact ⟨hr, hm⟩
  · rintro ⟨hr, hm⟩
    exact ⟨r, hr, m, hm, rfl, rfl⟩

/-- A tag without a colon is what comes before the first colon of a key. -/
theorem deliveryKey_injective {r m r' m' : String} (hr : ':' ∉ r.toList) (hr' : ':' ∉ r'.toList)
    (h : deliveryKey r m = deliveryKey r' m') : r = r' ∧ m = m' := by
  have hlist : r.toList ++ ':' :: m.toList = r'.toList ++ ':' :: m'.toList := by
    simpa [deliveryKey] using congrArg String.toList h
  rcases List.append_eq_append_iff.1 hlist with ⟨as, hrr', hm⟩ | ⟨as, hrr', hm⟩
  · rcases as with _ | ⟨c, as⟩
    · rw [List.append_nil] at hrr'
      exact ⟨(String.toList_inj.1 hrr').symm, String.toList_inj.1 (List.cons.inj hm).2⟩
    · -- The first colon of the first key would be in the second tag.
      rw [hrr', ← (List.cons.inj hm).1] at hr'
      exact absurd (List.mem_append_right _ List.mem_cons_self) hr'
  · rcases as with _ | ⟨c, as⟩
    · rw [List.append_nil] at hrr'
      exact ⟨String.toList_inj.1 hrr', (String.toList_inj.1 (List.cons.inj hm).2).symm⟩
    · rw [hrr', ← (List.cons.inj hm).1] at hr
      exact absurd (List.mem_append_right _ List.mem_cons_self) hr

/-- What there is to process: the records of `chat-private`, those of `delivery-state`
    with their keys, in the order of the log, and the acknowledgements. -/
structure Logs (V : Type) where
  privates : List (PrivateRecord V)
  deliveries : List (String × DeliveryRecord)
  acks : List (String × String)

namespace Logs

/-- A call that is for something in the logs. -/
def Has (L : Logs V) : DeliveryEvent V → Prop
  | .consumePrivate value => value ∈ L.privates
  | .consumeDelivery value => ∃ key, (key, value) ∈ L.deliveries
  | .ack tag messageId => (tag, messageId) ∈ L.acks

/-- The calls process everything that is in the logs, in any order and any number of
    times. -/
def Processes (L : Logs V) (events : List (DeliveryEvent V)) : Prop := ∀ e, e ∈ events ↔ L.Has e

/-- The private records have a recipient and a message id, and there is one for each pair. -/
structure OnePerPair (L : Logs V) : Prop where
  isSome_pair : ∀ v ∈ L.privates, ∃ r m, (v.recipientTag = some r ∧ r ≠ "") ∧
    v.messageId = some m ∧ m ≠ ""
  eq_of_pair : ∀ v ∈ L.privates, ∀ w ∈ L.privates,
    v.recipientTag = w.recipientTag → v.messageId = w.messageId → v = w

/-- Some `delivered` record, or some acknowledgement, names the pair. -/
def Names (L : Logs V) (r m : String) : Prop :=
  (∃ x ∈ L.deliveries, x.2.state = some "delivered" ∧ x.2.recipientTag = some r ∧
    x.2.messageId = some m) ∨ (r, m) ∈ L.acks

/-- The records of `delivery-state` as the service publishes them: the key is made of
    the pair, tags have no colon, and after a `delivered` record of a key come only
    `delivered` ones. -/
structure Published (L : Logs V) : Prop where
  key : ∀ x ∈ L.deliveries, ∃ r m, x.2.recipientTag = some r ∧ x.2.messageId = some m ∧
    ':' ∉ r.toList ∧ x.1 = deliveryKey r m
  pending_first : L.deliveries.Pairwise fun x y =>
    x.1 = y.1 → x.2.state = some "delivered" → y.2.state = some "delivered"

/-- The logs when `delivery-state` has been compacted. -/
def compacted (L : Logs V) : Logs V := { L with deliveries := compact L.deliveries }

variable {L : Logs V}

/-- The calls that put a value under a pair are those for its private record. -/
theorem mem_put {events : List (DeliveryEvent V)} (hevents : L.Processes events)
    (k : String × String) (v : PrivateRecord V) :
    .put k v ∈ events.filterMap DeliveryEvent.op ↔ v ∈ L.privates ∧ v.pair = some k := by
  rw [List.mem_filterMap]
  constructor
  · rintro ⟨e, he, hop⟩
    cases e with
    | consumePrivate value =>
      obtain ⟨k', hk', hput⟩ := Option.map_eq_some_iff.1 hop
      obtain ⟨rfl, rfl⟩ := Store.Op.put.inj hput
      exact ⟨(hevents _).1 he, hk'⟩
    | consumeDelivery value =>
      obtain ⟨k', hk', hput⟩ := Option.map_eq_some_iff.1 hop
      cases hput
    | ack tag messageId => cases Option.some.inj hop
  · rintro ⟨hv, hpair⟩
    exact ⟨.consumePrivate v, (hevents _).2 hv, by rw [DeliveryEvent.op, hpair]; rfl⟩

/-- The calls that drop a pair are those for its `delivered` records and for its
    acknowledgements. -/
theorem mem_drop {events : List (DeliveryEvent V)} (hevents : L.Processes events)
    (k : String × String) :
    .drop k ∈ events.filterMap DeliveryEvent.op ↔
      (∃ value, (∃ key, (key, value) ∈ L.deliveries) ∧ value.pair = some k) ∨ k ∈ L.acks := by
  rw [List.mem_filterMap]
  constructor
  · rintro ⟨e, he, hop⟩
    cases e with
    | consumePrivate value =>
      obtain ⟨k', hk', hput⟩ := Option.map_eq_some_iff.1 hop
      cases hput
    | consumeDelivery value =>
      obtain ⟨k', hk', hdrop⟩ := Option.map_eq_some_iff.1 hop
      obtain rfl := Store.Op.drop.inj hdrop
      exact .inl ⟨value, (hevents _).1 he, hk'⟩
    | ack tag messageId =>
      obtain rfl := Store.Op.drop.inj (Option.some.inj hop)
      exact .inr ((hevents _).1 he)
  · rintro (⟨value, hvalue, hpair⟩ | hack)
    · exact ⟨.consumeDelivery value, (hevents _).2 hvalue, by rw [DeliveryEvent.op, hpair]; rfl⟩
    · exact ⟨.ack k.1 k.2, (hevents _).2 hack, rfl⟩

/-- With one record for each pair, the calls put one value under each. -/
theorem OnePerPair.functional (hone : L.OnePerPair) {events : List (DeliveryEvent V)}
    (hevents : L.Processes events) : Store.Functional (events.filterMap DeliveryEvent.op) := by
  rintro ⟨r, m⟩ v w hv hw
  obtain ⟨hv, hvpair⟩ := (mem_put hevents _ v).1 hv
  obtain ⟨hw, hwpair⟩ := (mem_put hevents _ w).1 hw
  obtain ⟨⟨hvr, -⟩, hvm, -⟩ := bothTrue_eq_some.1 hvpair
  obtain ⟨⟨hwr, -⟩, hwm, -⟩ := bothTrue_eq_some.1 hwpair
  exact hone.eq_of_pair v hv w hw (hvr.trans hwr.symm) (hvm.trans hwm.symm)

/-- What names a pair drops it. -/
theorem names_iff {r m : String} (hr : r ≠ "") (hm : m ≠ "") :
    L.Names r m ↔
      (∃ value, (∃ key, (key, value) ∈ L.deliveries) ∧ value.pair = some (r, m)) ∨
        (r, m) ∈ L.acks := by
  have hpair (value : DeliveryRecord) : value.pair = some (r, m) ↔
      value.state = some "delivered" ∧ value.recipientTag = some r ∧
        value.messageId = some m := by
    rw [DeliveryRecord.pair]
    split_ifs with hstate
    · simp [bothTrue_eq_some, hstate, hr, hm]
    · simp [hstate]
  simp only [Names, hpair]
  refine or_congr_left ⟨?_, ?_⟩
  · rintro ⟨⟨key, value⟩, hx, hvalue⟩
    exact ⟨value, ⟨key, hx⟩, hvalue⟩
  · rintro ⟨value, ⟨key, hx⟩, hvalue⟩
    exact ⟨(key, value), hx, hvalue⟩

/-- A record that says that a pair has been delivered is followed by no record of its
    key that does not. -/
theorem Published.pair_of_pair (hL : L.Published) (k : String × String) :
    L.deliveries.Pairwise fun x y =>
      x.1 = y.1 → x.2.pair = some k → y.2.pair = some k := by
  refine hL.pending_first.imp_of_mem ?_
  rintro x y hx hy hdelivered hkey hpair
  obtain ⟨r, m, hr, hm, hcolon, hxkey⟩ := hL.key x hx
  obtain ⟨r', m', hr', hm', hcolon', hykey⟩ := hL.key y hy
  obtain ⟨rfl, rfl⟩ := deliveryKey_injective hcolon hcolon' (by rw [← hxkey, ← hykey, hkey])
  have hx : x.2.state = some "delivered" := by
    by_contra hstate
    rw [DeliveryRecord.pair, if_neg hstate] at hpair
    cases hpair
  rw [DeliveryRecord.pair, if_pos hx, hr, hm] at hpair
  rw [DeliveryRecord.pair, if_pos (hdelivered hkey hx), hr', hm', hpair]

/-- Compaction keeps what has been delivered. -/
theorem Published.compacted_iff (hL : L.Published) (k : String × String) :
    (∃ value, (∃ key, (key, value) ∈ L.compacted.deliveries) ∧ value.pair = some k) ↔
      ∃ value, (∃ key, (key, value) ∈ L.deliveries) ∧ value.pair = some k := by
  have hkey (key : String) :=
    exists_mem_compact (P := fun value : DeliveryRecord => value.pair = some k)
      (hL.pair_of_pair k) key
  constructor
  · rintro ⟨value, ⟨key, hmem⟩, hpair⟩
    obtain ⟨value, hmem, hpair⟩ := (hkey key).1 ⟨value, hmem, hpair⟩
    exact ⟨value, ⟨key, hmem⟩, hpair⟩
  · rintro ⟨value, ⟨key, hmem⟩, hpair⟩
    obtain ⟨value, hmem, hpair⟩ := (hkey key).2 ⟨value, hmem, hpair⟩
    exact ⟨value, ⟨key, hmem⟩, hpair⟩

open DeliveryState

/-- What is pending once everything has been processed. -/
theorem OnePerPair.pending_run (hone : L.OnePerPair) {events : List (DeliveryEvent V)}
    (hevents : L.Processes events) (r m : String) (v : PrivateRecord V) :
    ((run events).pending r).lookup m = some v ↔
      (v ∈ L.privates ∧ v.recipientTag = some r ∧ v.messageId = some m) ∧ ¬L.Names r m := by
  have hlive := Store.live_foldl (hone.functional hevents) (r, m) v
  rw [← toStore_run, mem_put hevents, mem_drop hevents] at hlive
  refine hlive.trans ?_
  constructor
  · rintro ⟨⟨hv, hpair⟩, hdrop⟩
    obtain ⟨⟨hvr, hr⟩, hvm, hm⟩ := bothTrue_eq_some.1 hpair
    exact ⟨⟨hv, hvr, hvm⟩, fun hnames => hdrop ((names_iff hr hm).1 hnames)⟩
  · rintro ⟨⟨hv, hvr, hvm⟩, hnames⟩
    obtain ⟨r', m', ⟨hr', hr⟩, hm', hm⟩ := hone.isSome_pair v hv
    obtain rfl : r = r' := Option.some.inj (hvr.symm.trans hr')
    obtain rfl : m = m' := Option.some.inj (hvm.symm.trans hm')
    exact ⟨⟨hv, bothTrue_eq_some.2 ⟨⟨hvr, hr⟩, hvm, hm⟩⟩,
      fun hdrop => hnames ((names_iff hr hm).2 hdrop)⟩

/-- Compaction changes nothing. -/
theorem Published.run_compacted (hL : L.Published) (hone : L.OnePerPair)
    {events events' : List (DeliveryEvent V)} (hevents : L.Processes events)
    (hevents' : L.compacted.Processes events') : run events' = run events := by
  refine toStore_injective ?_
  rw [toStore_run, toStore_run]
  refine (Store.foldl_congr (hone.functional hevents) fun op => ?_).symm
  cases op with
  | put k v => rw [mem_put hevents, mem_put hevents']; rfl
  | drop k =>
    rw [mem_drop hevents, mem_drop hevents', hL.compacted_iff]
    rfl

/-- Private delivery converges: in any order and with any duplicates, no pair is ever
    both pending and delivered, an acknowledged pair is never pending again, and in the
    end the pending records are those that nothing names; compaction changes nothing. -/
theorem private_delivery_converges (L : Logs V) (hone : L.OnePerPair)
    (events : List (DeliveryEvent V)) (hevents : L.Processes events) :
    (∀ before, before <+: events → ∀ r m,
      ((r, m) ∈ (run before).delivered → ((run before).pending r).lookup m = none) ∧
        (.ack r m ∈ before → ((run before).pending r).lookup m = none)) ∧
      (∀ r m v, ((run events).pending r).lookup m = some v ↔
        (v ∈ L.privates ∧ v.recipientTag = some r ∧ v.messageId = some m) ∧ ¬L.Names r m) ∧
      (L.Published → ∀ events', L.compacted.Processes events' → run events' = run events) := by
  refine ⟨fun before _ r m => ⟨pending_of_delivered, fun hack => ?_⟩,
    hone.pending_run hevents, fun hL events' => hL.run_compacted hone hevents⟩
  exact pending_of_delivered ((mem_delivered_run before _).2 ⟨.ack r m, hack, rfl⟩)

/-- Two messages for bob, the first delivered: the second is what is pending, in any
    order and also after compaction. -/
theorem private_delivery_converges_two :
    let one : PrivateRecord Unit := ⟨some "bob", some "1", ()⟩
    let two : PrivateRecord Unit := ⟨some "bob", some "2", ()⟩
    let pending : DeliveryRecord := ⟨some "pending", some "bob", some "1"⟩
    let delivered : DeliveryRecord := ⟨some "delivered", some "bob", some "1"⟩
    let s := run [.consumeDelivery pending, .consumePrivate one, .consumePrivate two,
      .consumeDelivery delivered, .consumePrivate one]
    (s.pending "bob").lookup "2" = some two ∧ (s.pending "bob").lookup "1" = none ∧
      run [.consumeDelivery delivered, .consumePrivate two, .consumePrivate one] = s := by
  intro one two pending delivered s
  let L : Logs Unit := ⟨[one, two], [("bob:1", pending), ("bob:1", delivered)], []⟩
  have hone : L.OnePerPair := by
    constructor
    · intro v hv
      rcases List.mem_pair.1 hv with rfl | rfl
      · exact ⟨"bob", "1", ⟨rfl, by decide⟩, rfl, by decide⟩
      · exact ⟨"bob", "2", ⟨rfl, by decide⟩, rfl, by decide⟩
    · decide
  have hpublished : L.Published := by
    constructor
    · intro x hx
      rcases List.mem_pair.1 hx with rfl | rfl <;>
        exact ⟨"bob", "1", rfl, rfl, by decide, by decide⟩
    · decide
  have hevents : L.Processes [.consumeDelivery pending, .consumePrivate one, .consumePrivate two,
      .consumeDelivery delivered, .consumePrivate one] := by
    intro e
    cases e <;> simp [Has, L, or_comm, exists_or]
  have hcompacted : L.compacted.Processes
      [.consumeDelivery delivered, .consumePrivate two, .consumePrivate one] := by
    intro e
    cases e <;> simp [Has, L, compacted, compact, or_comm]
  obtain ⟨hmoments, hend, hcompact⟩ := private_delivery_converges L hone _ hevents
  refine ⟨(hend "bob" "2" two).2 ⟨⟨by simp [L], rfl, rfl⟩, by simp [Names, L, pending, delivered]⟩,
    (hmoments _ (List.prefix_refl _) "bob" "1").1 (by decide), hcompact hpublished _ hcompacted⟩

end Logs

end SecNet
