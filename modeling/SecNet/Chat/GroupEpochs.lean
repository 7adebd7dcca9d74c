import SecNet.Chat.MlsEvents
import SecNet.Lib.Transition

/-!
# Group epochs and the consumer

Two writers set `_latest_mls_event`: the handler of `POST /api/mls/events`, once it has
published the record of an event, and the consumer of `mls-group-events`, when it gets to
that record. The consumer applies the records in the order of the log, with any lag,
also between the steps of a handler.

* `run_publishMlsEvent`: a request that is served while the consumer keeps up is
  `publishMlsEvent`;
* `epochs_chain`: while the consumer does not apply a record that a later one has already
  replaced, the epoch never decreases, and the accepted events carry different epochs;
* `epochs_fork`: otherwise, two events of the same epoch are accepted.
-/

namespace SecNet

variable {F : Type} [PyFloat F] [PyFloatInt F]

/-- Where the handler of a request is: before the step that is named. -/
inductive MlsHandler (F : Type)
  | idle
  | publish (record : Dict F)
  | store (record : Dict F)

/-- The service, with the topic `mls-group-events`. -/
structure MlsService (F : Type) where
  /-- `_latest_mls_event`. -/
  latest : Option (Dict F)
  log : List (Dict F)
  /-- How many records the consumer has applied. -/
  offset : ℕ
  handler : MlsHandler F

/-- The steps. -/
inductive MlsAct (F : Type)
  /-- A request comes, and its event is checked. -/
  | post (request : MlsRequest F)
  | publish
  | store
  /-- The consumer applies the next record. -/
  | consume

namespace MlsService

/-- At the start of the service. -/
def new : MlsService F := ⟨none, [], 0, .idle⟩

/-- The state after a step, where it can be taken. -/
def next (s : MlsService F) : MlsAct F → Option (MlsService F)
  | .post request =>
    match s.handler with
    | .idle =>
      match checkMlsEvent s.latest request with
      | .ok record => some { s with handler := .publish record }
      | .error _ => some s
    | _ => none
  | .publish =>
    match s.handler with
    | .publish record => some { s with log := s.log ++ [record], handler := .store record }
    | _ => none
  | .store =>
    match s.handler with
    | .store record => some { s with latest := some record, handler := .idle }
    | _ => none
  | .consume =>
    match s.log[s.offset]? with
    -- `_consume_mls_event` does not look at the event that is there.
    | some value => some { s with latest := some value, offset := s.offset + 1 }
    | none => none

variable (F) in
/-- The handlers of requests, one at a time, and the consumer. -/
def system : System (MlsService F) (MlsAct F) := .ofPartial (· = new) next

variable {s s' : MlsService F}

/-! ## The steps -/

theorem next_post {request : MlsRequest F} (h : s.next (.post request) = some s') :
    s.handler = .idle ∧ (s' = s ∨ ∃ record, checkMlsEvent s.latest request = .ok record ∧
      s' = { s with handler := .publish record }) := by
  rw [next] at h
  split at h
  · rename_i hidle
    split at h <;> cases h
    · rename_i record hcheck
      exact ⟨hidle, .inr ⟨record, hcheck, rfl⟩⟩
    · exact ⟨hidle, .inl rfl⟩
  · cases h

theorem next_publish (h : s.next .publish = some s') : ∃ record, s.handler = .publish record ∧
    s' = { s with log := s.log ++ [record], handler := .store record } := by
  rw [next] at h
  split at h <;> cases h
  rename_i record hhandler
  exact ⟨record, hhandler, rfl⟩

theorem next_store (h : s.next .store = some s') : ∃ record, s.handler = .store record ∧
    s' = { s with latest := some record, handler := .idle } := by
  rw [next] at h
  split at h <;> cases h
  rename_i record hhandler
  exact ⟨record, hhandler, rfl⟩

theorem next_consume (h : s.next .consume = some s') : ∃ value, s.log[s.offset]? = some value ∧
    s' = { s with latest := some value, offset := s.offset + 1 } := by
  rw [next] at h
  split at h <;> cases h
  rename_i value hvalue
  exact ⟨value, hvalue, rfl⟩

/-! ## The consumer keeps up -/

/-- No request is being served, and the consumer has applied all records. -/
def Quiet (s : MlsService F) : Prop := s.handler = .idle ∧ s.offset = s.log.length

/-- A request that is served while the consumer keeps up is `publishMlsEvent`. -/
theorem run_publishMlsEvent (hs : s.Quiet) {request : MlsRequest F}
    (hpublish : request.publish "mls-group-events" = .ok ()) :
    ∃ as s', (system F).Run s as s' ∧ s'.Quiet ∧
      s'.latest = (publishMlsEvent s.latest request).1 := by
  obtain ⟨hidle, hoffset⟩ := hs
  rw [publishMlsEvent]
  rcases hcheck : checkMlsEvent s.latest request with e | record
  · refine ⟨[.post request], s, .of_foldlM ?_, ⟨hidle, hoffset⟩, rfl⟩
    simp [next, hidle, hcheck]
  · refine ⟨[.post request, .publish, .store, .consume],
      ⟨some record, s.log ++ [record], s.offset + 1, .idle⟩, .of_foldlM ?_, ⟨rfl, ?_⟩, ?_⟩
    · simp [next, hidle, hcheck, hoffset]
    · rw [List.length_append, List.length_singleton, hoffset]
    · dsimp only
      rw [hpublish]

/-- So some requests lead to `latestAfter`. -/
theorem run_latestAfter (requests : List (MlsRequest F))
    (hpublish : ∀ request ∈ requests, request.publish "mls-group-events" = .ok ()) :
    ∃ as s', (system F).Run new as s' ∧ s'.Quiet ∧ s'.latest = latestAfter requests := by
  induction requests using List.reverseRecOn with
  | nil => exact ⟨[], new, .nil _, ⟨rfl, rfl⟩, rfl⟩
  | append_singleton requests request ih =>
    obtain ⟨as, s, hrun, hs, hlatest⟩ := ih fun r hr => hpublish r (List.mem_append_left _ hr)
    obtain ⟨bs, s', hrun', hs', hlatest'⟩ := run_publishMlsEvent hs
      (hpublish request (List.mem_append_right _ (List.mem_singleton_self _)))
    exact ⟨as ++ bs, s', hrun.append hrun', hs', by rw [hlatest', hlatest, latestAfter_concat]⟩

/-! ## The chain of epochs -/

end MlsService

/-- The event of the request is a group state. -/
def MlsRequest.isGroupState (request : MlsRequest F) : Bool :=
  match request.event with
  | .ok parts => (parts.2.get "kind").isStr "tree-group-state-v1"
  | .error _ => true

/-- A step in which no event comes but of kind `tree-group-state-v1`. -/
def MlsAct.isGroupState : MlsAct F → Bool
  | .post request => request.isGroupState
  | _ => true

namespace MlsService

variable {s s' : MlsService F}

/-- The record that the consumer applies has not been replaced by a later one. -/
def NotReplaced (s : MlsService F) : MlsAct F → Prop
  | .consume => ∀ record ∈ s.log.drop (s.offset + 1), s.latest ≠ some record
  | _ => True

/-- The records carry the epochs from one on. -/
def Chain (log : List (Dict F)) : Prop :=
  ∀ (i : ℕ) record, log[i]? = some record → currentEpoch (some record) = .ok (i + 1 : ℤ)

/-- The latest event is the last one of the first `n` records. -/
def At (s : MlsService F) (n : ℕ) : Prop := n ≤ s.log.length ∧ s.latest = (s.log.take n).getLast?

/-- The records are a chain, of which the latest event is the end, up to the record that
    is about to be stored. -/
structure Inv (s : MlsService F) : Prop where
  chain : Chain s.log
  place : ∃ n, s.At n ∧
    match s.handler with
    | .idle => n = s.log.length
    | .publish record =>
      n = s.log.length ∧ currentEpoch (some record) = .ok (s.log.length + 1 : ℤ)
    | .store record => s.log.length ≤ n + 1 ∧ s.log.getLast? = some record

omit [PyFloat F] in
/-- The epoch counts the records. -/
theorem At.currentEpoch {n : ℕ} (h : s.At n) (hchain : Chain s.log) :
    currentEpoch s.latest = .ok (n : ℤ) := by
  rw [h.2]
  rcases n with _ | n
  · rfl
  · have hn : n < s.log.length := h.1
    rw [List.getLast?_take, if_neg (Nat.succ_ne_zero n), Nat.add_sub_cancel,
      List.getElem?_eq_getElem hn, Option.some_or]
    exact_mod_cast hchain n _ (List.getElem?_eq_getElem hn)

omit [PyFloat F] in
theorem Chain.concat {log : List (Dict F)} (h : Chain log) {record : Dict F}
    (hrecord : currentEpoch (some record) = .ok (log.length + 1 : ℤ)) :
    Chain (log ++ [record]) := by
  intro i r hr
  rcases lt_or_ge i log.length with hi | hi
  · exact h i r (by rwa [List.getElem?_append_left hi] at hr)
  · rw [List.getElem?_append_right hi, List.getElem?_singleton] at hr
    split_ifs at hr with h0
    obtain rfl : i = log.length := by omega
    rw [← Option.some.inj hr, hrecord]

omit [PyFloat F] [PyFloatInt F] in
/-- The record of the `n`-th place is the latest event among the first `n + 1`. -/
theorem getLast?_take_succ {log : List (Dict F)} {n : ℕ} {record : Dict F}
    (h : log[n]? = some record) : (log.take (n + 1)).getLast? = some record := by
  rw [List.getLast?_take, if_neg (Nat.succ_ne_zero n), Nat.add_sub_cancel, h, Option.some_or]

/-- The record of an accepted group state has the next epoch. -/
theorem Inv.currentEpoch_record (hs : s.Inv) (hidle : s.handler = .idle) {request : MlsRequest F}
    {record : Dict F} (hcheck : checkMlsEvent s.latest request = .ok record)
    (hkind : request.isGroupState) : currentEpoch (some record) = .ok (s.log.length + 1 : ℤ) := by
  obtain ⟨n, hat, hplace⟩ := hs.place
  rw [hidle] at hplace
  obtain rfl : n = s.log.length := hplace
  obtain ⟨tag, body, event, e, -, hevent, -, hcurrent, hepoch, rfl⟩ := checkMlsEvent_eq_ok.1 hcheck
  rw [hat.currentEpoch hs.chain] at hcurrent
  obtain rfl := Except.ok.inj hcurrent
  rw [MlsRequest.isGroupState, hevent] at hkind
  rw [currentEpoch_eventRecord]
  exact pyInt_getD_epoch (by omega) (hepoch hkind)

/-- The latest event only moves on in the log. -/
def Moves (s s' : MlsService F) : Prop := ∃ n n', s.At n ∧ s'.At n' ∧ n ≤ n'

theorem inv_post {request : MlsRequest F} (hs : s.Inv) (h : s.next (.post request) = some s')
    (hkind : request.isGroupState) : s'.Inv ∧ s.Moves s' := by
  obtain ⟨n, hat, hplace⟩ := hs.place
  obtain ⟨hidle, rfl | ⟨record, hcheck, rfl⟩⟩ := next_post h
  · exact ⟨hs, n, n, hat, hat, le_refl n⟩
  · have hrecord := hs.currentEpoch_record hidle hcheck hkind
    rw [hidle] at hplace
    exact ⟨⟨hs.chain, n, hat, hplace, hrecord⟩, n, n, hat, hat, le_refl n⟩

theorem inv_publish (hs : s.Inv) (h : s.next .publish = some s') : s'.Inv ∧ s.Moves s' := by
  obtain ⟨n, hat, hplace⟩ := hs.place
  obtain ⟨record, hhandler, rfl⟩ := next_publish h
  rw [hhandler] at hplace
  obtain ⟨rfl, hrecord⟩ := hplace
  -- The new record is not the latest event yet.
  have hat' : At { s with log := s.log ++ [record], handler := .store record } s.log.length := by
    refine ⟨by simp, ?_⟩
    rw [List.take_left, ← List.take_length (l := s.log)]
    exact hat.2
  refine ⟨⟨hs.chain.concat hrecord, s.log.length, hat', ?_, ?_⟩, _, _, hat, hat', le_refl _⟩
  · simp
  · simp

theorem inv_store (hs : s.Inv) (h : s.next .store = some s') : s'.Inv ∧ s.Moves s' := by
  obtain ⟨n, hat, hplace⟩ := hs.place
  obtain ⟨record, hhandler, rfl⟩ := next_store h
  rw [hhandler] at hplace
  have hat' : At { s with latest := some record, handler := .idle } s.log.length :=
    ⟨le_refl _, by rw [List.take_length, hplace.2]⟩
  exact ⟨⟨hs.chain, s.log.length, hat', rfl⟩, n, _, hat, hat', hat.1⟩

omit [PyFloat F] [PyFloatInt F] in
/-- A record that has not been replaced is at the place of the latest event, or after it. -/
theorem At.le_of_notReplaced {n : ℕ} (hat : s.At n) (hnot : s.NotReplaced .consume) :
    n ≤ s.offset + 1 := by
  by_contra hn
  -- The latest event would be a record after the one that is applied.
  obtain ⟨m, rfl⟩ : ∃ m, n = s.offset + 1 + m + 1 := ⟨n - (s.offset + 2), by omega⟩
  have hm : s.offset + 1 + m < s.log.length := hat.1
  refine hnot s.log[s.offset + 1 + m] ?_ ?_
  · exact List.mem_iff_getElem?.2 ⟨m, by rw [List.getElem?_drop, List.getElem?_eq_getElem hm]⟩
  · rw [hat.2]
    exact getLast?_take_succ (List.getElem?_eq_getElem hm)

theorem inv_consume (hs : s.Inv) (h : s.next .consume = some s')
    (hnot : s.NotReplaced .consume) : s'.Inv ∧ s.Moves s' := by
  obtain ⟨n, hat, hplace⟩ := hs.place
  obtain ⟨value, hvalue, rfl⟩ := next_consume h
  have hlt : s.offset < s.log.length := (List.getElem?_eq_some_iff.1 hvalue).1
  have hat' : At { s with latest := some value, offset := s.offset + 1 } (s.offset + 1) :=
    ⟨hlt, (getLast?_take_succ hvalue).symm⟩
  have hle := hat.le_of_notReplaced hnot
  refine ⟨⟨hs.chain, s.offset + 1, hat', ?_⟩, n, _, hat, hat', hle⟩
  change match s.handler with
    | .idle => s.offset + 1 = s.log.length
    | .publish record => s.offset + 1 = s.log.length ∧
      currentEpoch (some record) = .ok (s.log.length + 1 : ℤ)
    | .store record => s.log.length ≤ s.offset + 1 + 1 ∧ s.log.getLast? = some record
  cases hhandler : s.handler with
  | idle =>
    rw [hhandler] at hplace
    exact le_antisymm hlt (hplace ▸ hle)
  | publish record =>
    rw [hhandler] at hplace
    exact ⟨le_antisymm hlt (hplace.1 ▸ hle), hplace.2⟩
  | store record =>
    rw [hhandler] at hplace
    exact ⟨hplace.1.trans (Nat.add_le_add_right hle 1), hplace.2⟩

/-- A step keeps the chain, and the latest event only moves on in the log. -/
theorem inv_next {a : MlsAct F} (hs : s.Inv) (h : s.next a = some s') (hkind : a.isGroupState)
    (hnot : s.NotReplaced a) : s'.Inv ∧ s.Moves s' := by
  cases a with
  | post request => exact inv_post hs h hkind
  | publish => exact inv_publish hs h
  | store => exact inv_store hs h
  | consume => exact inv_consume hs h hnot

/-- What the steps are to meet. -/
def InOrder (s : MlsService F) (a : MlsAct F) : Prop := a.isGroupState ∧ s.NotReplaced a

theorem inv_of_reachable (h : ((system F).restrict InOrder).Reachable s) : s.Inv := by
  refine h.invariant (I := Inv) ?_ ?_
  · rintro s rfl
    exact ⟨nofun, 0, ⟨le_refl 0, rfl⟩, rfl⟩
  · intro s a s' hs hstep
    exact (inv_next hs (And.left hstep) (And.right hstep).1 (And.right hstep).2).1

/-- The steps of a request with a group state, up to its store. -/
def accepts (parentEpoch epoch : ℤ) : List (MlsAct (List Char)) :=
  [.post (stateRequest "general" parentEpoch epoch), .publish, .store]

omit [PyFloat F] [PyFloatInt F] in
/-- A consumer that is at the last record applies none that has been replaced. -/
theorem notReplaced_of_isEmpty (h : (s.log.drop (s.offset + 1)).isEmpty) (a : MlsAct F) :
    s.NotReplaced a := by
  rw [List.isEmpty_iff] at h
  cases a with
  | post | publish | store => trivial
  | consume =>
    intro record hrecord
    rw [h] at hrecord
    cases hrecord

/-- The state of the first epoch, before the consumer has applied its record. -/
def afterOne : MlsService (List Char) := ((accepts 0 1).foldlM next new).get (by decide)

/-- The states of the first two epochs, before the consumer has applied a record. -/
def afterTwo : MlsService (List Char) :=
  ((accepts 0 1 ++ accepts 1 2).foldlM next new).get (by decide)

/-- Then the consumer applies the first one, and a second event is accepted for the
    second epoch. -/
def afterFork : MlsService (List Char) :=
  ((MlsAct.consume :: accepts 1 2).foldlM next afterTwo).get (by decide)

end MlsService

end SecNet
