import SecNet.Record.Sender

/-!
# Frames cut short

A `sendall` that raises, on the timeout the reader puts on the socket, or on
anything else, leaves a part of its frame on the wire, and the number of its
record used up. Nothing in `send_packet` remembers it.

* `no_byte_after_cut`: when the socket is closed before the next `sendall`
  begins, nothing is written after a frame cut short, and the reader returns
  the packets before it and rejects nothing;
* `byte_after_cut`: when it is not, the next record is written in the middle of
  the frame, and the reader takes its bytes for a header.
-/

namespace SecNet

namespace Sending

variable {ι : Type} [DecidableEq ι] {s s' : Sending ι} {i : ι} {c : SessionCipher}

/-- A `sendall` does not begin on a connection with a frame cut short, unless
    its socket is closed. It does not begin for a record that is too large. -/
def ClosedFirst (s : Sending ι) : SendAct ι → Prop
  | .frame i => Framed (s.pc i) → s.broken → s.closed
  | _ => True

instance (s : Sending ι) : DecidablePred (ClosedFirst s)
  | .frame i => inferInstanceAs (Decidable (Framed (s.pc i) → s.broken → s.closed))
  | .acquire _ _ | .encrypt _ | .write _ _ | .cut _ | .release _ | .close =>
    inferInstanceAs (Decidable True)

/-- What keeps the bytes of a connection apart from a frame cut short. -/
structure Safe (s : Sending ι) : Prop where
  mutex : Mutex s
  closed : s.broken → ∀ i rest, s.pc i = .writing rest → s.closed
  late : s.late = []

theorem of_update {x y : SendPc} {j : ι} (h : Function.update s.pc i x j = y) :
    x = y ∨ s.pc j = y := by
  by_cases hji : j = i
  · rw [hji, Function.update_self] at h
    exact .inl h
  · rw [Function.update_of_ne hji] at h
    exact .inr h

/-- A thread in `sendall` after a frame cut short finds the socket closed. -/
theorem closed_step {a : SendAct ι} (hs : Safe s) (h : next s a = some s')
    (ha : ClosedFirst s a) : s'.broken → ∀ i rest, s'.pc i = .writing rest → s'.closed := by
  intro hb j rest hj
  cases a with
  | acquire i p =>
    obtain ⟨-, -, rfl⟩ := next_acquire h
    exact hs.closed hb j rest ((of_update hj).resolve_left (by simp))
  | encrypt i =>
    obtain ⟨p, -, rfl⟩ := next_encrypt h
    refine hs.closed hb j rest ((of_update hj).resolve_left ?_)
    cases (s.cipher.encrypt p).1 <;> simp [afterEncrypt]
  | frame i =>
    obtain ⟨r, hi, rfl⟩ := next_frame h
    by_cases hr : r.length ≤ maxFrameSize
    · have hframed : Framed (s.pc i) := hi ▸ hr
      exact ha hframed hb
    · refine hs.closed hb j rest ((of_update hj).resolve_left ?_)
      simp [afterFrame, sendFrame, not_le.1 hr]
  | write i n =>
    -- The write finds the socket open, so that no frame has been cut short.
    obtain ⟨rest', hi, hclosed, rfl⟩ := next_write h
    rw [hs.closed hb i rest' hi] at hclosed
    cases hclosed
  | cut i =>
    -- The thread leaves `sendall`, and no other thread is there.
    obtain ⟨rest', hi, rfl⟩ := next_cut h
    have hj : s.pc j = .writing rest := (of_update hj).resolve_left (by simp)
    have hij : i = j := Option.some.inj
      ((hs.mutex i (by simp [hi])).symm.trans (hs.mutex j (by simp [hj])))
    subst hij
    simp at *
  | release i =>
    obtain ⟨-, rfl⟩ := next_release h
    exact hs.closed hb j rest ((of_update hj).resolve_left (by simp))
  | close =>
    obtain rfl := Option.some.inj h
    rfl

/-- Only `sendall` writes. -/
theorem wire_step {a : SendAct ι} (h : next s a = some s') :
    (∃ i n, a = .write i n) ∨ s'.wire = s.wire ∧ s'.late = s.late := by
  cases a with
  | acquire i p =>
    obtain ⟨-, -, rfl⟩ := next_acquire h
    exact .inr ⟨rfl, rfl⟩
  | encrypt i =>
    obtain ⟨p, -, rfl⟩ := next_encrypt h
    exact .inr ⟨rfl, rfl⟩
  | frame i =>
    obtain ⟨r, -, rfl⟩ := next_frame h
    exact .inr ⟨rfl, rfl⟩
  | write i n => exact .inl ⟨i, n, rfl⟩
  | cut i =>
    obtain ⟨rest, -, rfl⟩ := next_cut h
    exact .inr ⟨rfl, rfl⟩
  | release i =>
    obtain ⟨-, rfl⟩ := next_release h
    exact .inr ⟨rfl, rfl⟩
  | close =>
    obtain rfl := Option.some.inj h
    exact .inr ⟨rfl, rfl⟩

/-- Calls are not forgotten, a socket does not open again, and a frame cut short
    stays so. -/
theorem mono_step {a : SendAct ι} (h : next s a = some s') :
    s.order <+: s'.order ∧ (s.closed → s'.closed) ∧ (s.broken → s'.broken) := by
  cases a with
  | acquire i p =>
    obtain ⟨-, -, rfl⟩ := next_acquire h
    exact ⟨List.prefix_append _ _, id, id⟩
  | encrypt i =>
    obtain ⟨p, -, rfl⟩ := next_encrypt h
    exact ⟨List.prefix_refl _, id, id⟩
  | frame i =>
    obtain ⟨r, -, rfl⟩ := next_frame h
    exact ⟨List.prefix_refl _, id, id⟩
  | write i n =>
    obtain ⟨rest, -, -, rfl⟩ := next_write h
    exact ⟨List.prefix_refl _, id, id⟩
  | cut i =>
    obtain ⟨rest, -, rfl⟩ := next_cut h
    exact ⟨List.prefix_refl _, id, fun _ => rfl⟩
  | release i =>
    obtain ⟨-, rfl⟩ := next_release h
    exact ⟨List.prefix_refl _, id, id⟩
  | close =>
    obtain rfl := Option.some.inj h
    exact ⟨List.prefix_refl _, fun _ => rfl, id⟩

/-- When nothing may be written any more, nothing is. -/
theorem wire_of_stopped {a : SendAct ι} (hs : Safe s) (h : next s a = some s')
    (hstop : s.closed ∨ s.broken) : s'.wire = s.wire ∧ s'.late = s.late := by
  refine (wire_step h).resolve_left ?_
  rintro ⟨i, n, rfl⟩
  obtain ⟨rest, hi, hclosed, -⟩ := next_write h
  have : s.closed := hstop.elim id fun hb => hs.closed hb i rest hi
  rw [hclosed] at this
  cases this

theorem safe_step {a : SendAct ι} (hs : Safe s) (h : next s a = some s') (ha : ClosedFirst s a) :
    Safe s' := by
  refine ⟨mutex_step hs.mutex h, closed_step hs h ha, ?_⟩
  by_cases hb : s.broken
  · rw [(wire_of_stopped hs h (.inr hb)).2, hs.late]
  · rcases wire_step h with ⟨i, n, rfl⟩ | ⟨-, hlate⟩
    · obtain ⟨rest, -, -, rfl⟩ := next_write h
      simp only [if_neg hb, hs.late]
    · rw [hlate, hs.late]

/-- What a connection carries, whatever has failed: some of the packets, in the
    order of the lock, without a gap, and all but the last as long as nothing
    has failed. -/
structure Carried (c : SessionCipher) (s : Sending ι) : Prop where
  packets : ∃ qs, qs <+: s.order.map Prod.snd ∧ Carries c qs s.wire
  inv : ¬(s.closed ∨ s.broken) → Inv c s

omit [DecidableEq ι] in
theorem packets_of_inv (haead : c.aead.Correct) (hinv : Inv c s) :
    ∃ qs, qs <+: s.order.map Prod.snd ∧ Carries c qs s.wire := by
  obtain ⟨m, hcarries, -⟩ := carries_of_numbered haead hinv.numbered
  exact ⟨_, (List.take_prefix _ _).trans (List.take_prefix _ _), hcarries⟩

omit [DecidableEq ι] in
/-- As long as the packets fit, `send_frame` takes their records. -/
theorem framed_of_inv (haead : c.aead.Correct) (hm : Mutex s) (hinv : Inv c s)
    (hfits : ∀ x ∈ s.order, Fits x.2) (i : ι) : Framed (s.pc i) := by
  cases hi : s.pc i with
  | encrypted r =>
    have hnum := hinv.numbered
    rw [(current_of_pc hm hi (by simp)).2] at hnum
    obtain ⟨ps, -, horder, qs, p, rfl, -, rfl, -⟩ := hnum
    have hp : p ∈ s.order.map Prod.snd := by simp [horder]
    obtain ⟨x, hx, rfl⟩ := List.mem_map.1 hp
    exact (length_record_le haead _ _).2 (hfits x hx)
  | idle | locked _ | writing _ | written | raised _ => trivial

theorem carried_step (haead : c.aead.Correct) {a : SendAct ι} (hs : Safe s) (hc : Carried c s)
    (h : next s a = some s') (hfits : ∀ x ∈ s.order, Fits x.2) : Carried c s' := by
  obtain ⟨horder, hclosed, hbroken⟩ := mono_step h
  have hkeep (hwire : s'.wire = s.wire) :
      ∃ qs, qs <+: s'.order.map Prod.snd ∧ Carries c qs s'.wire := by
    obtain ⟨qs, hqs, hcarries⟩ := hc.packets
    exact ⟨qs, hqs.trans (horder.map _), hwire ▸ hcarries⟩
  by_cases hstop : s.closed ∨ s.broken
  · refine ⟨hkeep (wire_of_stopped hs h hstop).1, fun hopen => ?_⟩
    exact absurd (hstop.imp hclosed hbroken) hopen
  · have hinv := hc.inv hstop
    by_cases ha : Succeeds s a
    · have hinv' := inv_step haead hs.mutex hinv h ha
      exact ⟨packets_of_inv haead hinv', fun _ => hinv'⟩
    · -- The records fit, so what fails is `sendall`.
      cases a with
      | frame i => exact absurd (framed_of_inv haead hs.mutex hinv hfits i) ha
      | cut i =>
        obtain ⟨rest, -, rfl⟩ := next_cut h
        exact ⟨hkeep rfl, fun hopen => absurd (.inr rfl) hopen⟩
      | acquire _ _ | encrypt _ | write _ _ | release _ | close => exact absurd trivial ha

omit [DecidableEq ι] in
theorem safe_new (c : SessionCipher) : Safe (new c : Sending ι) where
  mutex := mutex_new c
  closed h := by cases h
  late := rfl

/-- When the socket is closed before the next `sendall`, nothing is written after
    a frame cut short, and the reader returns a prefix of the packets in the
    order of the lock, and rejects nothing. -/
theorem no_byte_after_cut (haead : c.aead.Correct) {acts : List (SendAct ι)}
    (hrun : ((system ι c).restrict ClosedFirst).Run (new c) acts s) :
    s.late = [] ∧ ((∀ x ∈ s.order, Fits x.2) → ∃ qs, qs <+: s.order.map Prod.snd ∧
      ∀ (turns : List Turn) (sent : ℕ), Turn.stop ∉ turns →
        receive ⟨c.aead, c.key, sent, c.sendSequence⟩ ⟨s.wire, turns⟩ = (qs, .ok ())) := by
  have hsafe {acts : List (SendAct ι)} {s : Sending ι}
      (hrun : ((system ι c).restrict ClosedFirst).Run (new c) acts s) : Safe s :=
    hrun.invariant (fun s a s' hs (hstep : next s a = some s' ∧ ClosedFirst s a) =>
      safe_step hs hstep.1 hstep.2) (safe_new c)
  refine ⟨(hsafe hrun).late, fun hfits => ?_⟩
  have hc : Carried c s := by
    induction hrun with
    | nil => exact ⟨packets_of_inv haead (inv_new c), fun _ => inv_new c⟩
    | snoc hrun hstep ih =>
      have hfits' := fun x hx => hfits x ((mono_step hstep.1).1.subset hx)
      exact carried_step haead (hsafe hrun) (ih hfits') hstep.1 hfits'
  obtain ⟨qs, hqs, hcarries⟩ := hc.packets
  exact ⟨qs, hqs, fun turns sent hstop => receive_of_carries haead hcarries hstop sent⟩

/-- A connection closed after its frame is cut short, before the next `sendall`. -/
def closedAfterCut : List (SendAct Bool) :=
  [.acquire true [7], .encrypt true, .frame true, .write true 0, .cut true, .release true,
    .acquire false [8], .encrypt false, .close, .frame false, .cut false, .release false]

/-- What it leads to. -/
def afterClosedAfterCut : Sending Bool :=
  (closedAfterCut.foldlM (System.guarded next ClosedFirst) (new (.new tagAead (ascii "key")))).get
    (by decide)

theorem run_closedAfterCut :
    ((system Bool (.new tagAead (ascii "key"))).restrict ClosedFirst).Run
      (new (.new tagAead (ascii "key"))) closedAfterCut afterClosedAfterCut :=
  .ofPartial_foldlM (Option.some_get _).symm

/-- One byte of the frame stays on the wire, and nothing follows it. -/
theorem no_byte_after_cut_closed :
    afterClosedAfterCut.broken ∧ afterClosedAfterCut.wire = [0] ∧
      afterClosedAfterCut.late = [] :=
  ⟨by decide, by decide, (no_byte_after_cut tagAead_correct run_closedAfterCut).1⟩

/-- An empty frame holds no record. -/
theorem receive_of_empty {wire rest : Bytes} (h : frameFront wire = .item [] rest) :
    receive c ⟨wire, []⟩ = ([], .error (.valueError "encrypted record is too short")) := by
  have hsplit := Splitter.split_of_item (S := frames) h
  rw [receive, recvFramesFromSocket_eq (by simp), hsplit]
  rfl

/-- A `sendall` that raises after one byte, and another call of `send_packet`. -/
def cutThenSent : List (SendAct Bool) :=
  [.acquire true [7], .encrypt true, .frame true, .write true 0, .cut true, .release true,
    .acquire false [8], .encrypt false, .frame false, .write false 40, .release false]

/-- The other call writes its frame after the byte, and the reader takes the
    first three bytes of its header for the rest of the header cut short: it gets
    an empty record. -/
theorem byte_after_cut : ∃ s : Sending Bool,
    (system Bool (.new tagAead (ascii "key"))).Run (new (.new tagAead (ascii "key")))
      cutThenSent s ∧ (∀ x ∈ s.order, Fits x.2) ∧ s.late ≠ [] ∧
    receive (.new tagAead (ascii "key")) ⟨s.wire, []⟩ =
      ([], .error (.valueError "encrypted record is too short")) := by
  let start : Sending Bool := new (.new tagAead (ascii "key"))
  let s := (cutThenSent.foldlM next start).get (by decide)
  refine ⟨s, .of_foldlM (Option.some_get _).symm, by decide, by decide, ?_⟩
  have hfront : frameFront s.wire = .item [] (s.wire.drop 4) := by decide
  exact receive_of_empty hfront

end Sending

end SecNet
