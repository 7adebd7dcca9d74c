import SecNet.Lib.Transition
import SecNet.Record.Stream

/-!
# Concurrent senders on one connection

`PeerConnection.send_packet`, called by any number of threads: it takes the send
lock, encrypts, hands the frame of the record to `sendall`, and releases the
lock. A `sendall` writes its bytes in pieces, and may raise before the last:
what it has written stays written. The socket may be closed at any moment, and
takes no byte afterwards.

* `mutex_step`: only the holder of the lock is inside `send_packet`;
* `inv_step`: while nothing fails, the wire carries the records of the packets,
  in the order the lock was taken, up to the frame being written;
* `senders_keep_order`: hence the reader returns the packets in that order.
-/

namespace SecNet

/-- Where a thread is in `send_packet`. -/
inductive SendPc
  | idle
  /-- It holds the lock, and is about to encrypt. -/
  | locked (packet : Bytes)
  /-- It has the record. -/
  | encrypted (record : Bytes)
  /-- It is in `sendall`, with these bytes still to be written. -/
  | writing (rest : Bytes)
  | written
  | raised (e : Exn)
  deriving DecidableEq

/-- The steps of the threads `ι` in `send_packet`, and of the environment. -/
inductive SendAct (ι : Type)
  /-- The call of `send_packet` on a packet takes the lock. -/
  | acquire (i : ι) (packet : Bytes)
  | encrypt (i : ι)
  /-- `send_frame`, up to the call of `sendall`. -/
  | frame (i : ι)
  /-- `sendall` writes at most `n + 1` bytes. -/
  | write (i : ι) (n : ℕ)
  /-- `sendall` raises. -/
  | cut (i : ι)
  | release (i : ι)
  /-- Any thread closes the socket. -/
  | close
  deriving DecidableEq

/-- A connection and the threads that send on it. -/
structure Sending (ι : Type) where
  cipher : SessionCipher
  /-- The holder of `send_lock`. -/
  lock : Option ι
  closed : Bool
  /-- The bytes written to the connection. -/
  wire : Bytes
  pc : ι → SendPc
  /-- The calls of `send_packet`, in the order they took the lock. -/
  order : List (ι × Bytes)
  /-- A `sendall` has raised: its frame is cut short. -/
  broken : Bool
  /-- The bytes written after that. -/
  late : Bytes

namespace Sending

variable {ι : Type} [DecidableEq ι]

/-- A connection nobody has sent on yet, with the send cipher of its session. -/
def new (cipher : SessionCipher) : Sending ι where
  cipher := cipher
  lock := none
  closed := false
  wire := []
  pc _ := .idle
  order := []
  broken := false
  late := []

/-- After `encrypt`. -/
def afterEncrypt : Except Exn Bytes → SendPc
  | .ok r => .encrypted r
  | .error e => .raised e

/-- After the head of `send_frame`. -/
def afterFrame : Except Exn Bytes → SendPc
  | .ok b => .writing b
  | .error e => .raised e

/-- After a write, with the bytes still to be written. -/
def afterWrite (rest : Bytes) : SendPc := if rest = [] then .written else .writing rest

/-- A step, where it can be taken. -/
def next (s : Sending ι) : SendAct ι → Option (Sending ι)
  | .acquire i packet =>
    if s.lock = none ∧ s.pc i = .idle then
      some { s with
        lock := some i
        pc := Function.update s.pc i (.locked packet)
        order := s.order ++ [(i, packet)] }
    else none
  | .encrypt i =>
    match s.pc i with
    | .locked packet =>
      some { s with
        cipher := (s.cipher.encrypt packet).2
        pc := Function.update s.pc i (afterEncrypt (s.cipher.encrypt packet).1) }
    | _ => none
  | .frame i =>
    match s.pc i with
    | .encrypted record =>
      some { s with pc := Function.update s.pc i (afterFrame (sendFrame record)) }
    | _ => none
  | .write i n =>
    match s.pc i with
    | .writing rest =>
      if s.closed then none
      else some { s with
        wire := s.wire ++ rest.take (n + 1)
        pc := Function.update s.pc i (afterWrite (rest.drop (n + 1)))
        late := if s.broken then s.late ++ rest.take (n + 1) else s.late }
    | _ => none
  | .cut i =>
    match s.pc i with
    | .writing _ =>
      some { s with
        pc := Function.update s.pc i (.raised (.osError "timed out"))
        broken := true }
    | _ => none
  | .release i =>
    match s.pc i with
    | .written => some { s with lock := none, pc := Function.update s.pc i .idle }
    | .raised _ => some { s with lock := none, pc := Function.update s.pc i .idle }
    | _ => none
  | .close => some { s with closed := true }

/-- The runs of the threads `ι` on a connection. -/
def system (ι : Type) [DecidableEq ι] (cipher : SessionCipher) : System (Sending ι) (SendAct ι) :=
  .ofPartial (· = new cipher) next

/-! ## What a step does -/

variable {s s' : Sending ι} {i : ι}

theorem next_acquire {p : Bytes} (h : next s (.acquire i p) = some s') :
    s.lock = none ∧ s.pc i = .idle ∧ s' = { s with
      lock := some i
      pc := Function.update s.pc i (.locked p)
      order := s.order ++ [(i, p)] } := by
  simp only [next] at h
  split_ifs at h with hfree
  exact ⟨hfree.1, hfree.2, (Option.some.inj h).symm⟩

theorem next_encrypt (h : next s (.encrypt i) = some s') :
    ∃ p, s.pc i = .locked p ∧ s' = { s with
      cipher := (s.cipher.encrypt p).2
      pc := Function.update s.pc i (afterEncrypt (s.cipher.encrypt p).1) } := by
  simp only [next] at h
  split at h
  · exact ⟨_, ‹_›, (Option.some.inj h).symm⟩
  · cases h

theorem next_frame (h : next s (.frame i) = some s') :
    ∃ r, s.pc i = .encrypted r ∧
      s' = { s with pc := Function.update s.pc i (afterFrame (sendFrame r)) } := by
  simp only [next] at h
  split at h
  · exact ⟨_, ‹_›, (Option.some.inj h).symm⟩
  · cases h

theorem next_write {n : ℕ} (h : next s (.write i n) = some s') :
    ∃ rest, s.pc i = .writing rest ∧ s.closed = false ∧ s' = { s with
      wire := s.wire ++ rest.take (n + 1)
      pc := Function.update s.pc i (afterWrite (rest.drop (n + 1)))
      late := if s.broken then s.late ++ rest.take (n + 1) else s.late } := by
  simp only [next] at h
  split at h
  · by_cases hclosed : s.closed
    · rw [if_pos hclosed] at h
      cases h
    · rw [if_neg hclosed] at h
      exact ⟨_, ‹_›, by simpa using hclosed, (Option.some.inj h).symm⟩
  · cases h

theorem next_cut (h : next s (.cut i) = some s') :
    ∃ rest, s.pc i = .writing rest ∧ s' = { s with
      pc := Function.update s.pc i (.raised (.osError "timed out"))
      broken := true } := by
  simp only [next] at h
  split at h
  · exact ⟨_, ‹_›, (Option.some.inj h).symm⟩
  · cases h

theorem next_release (h : next s (.release i) = some s') :
    (s.pc i = .written ∨ ∃ e, s.pc i = .raised e) ∧
      s' = { s with lock := none, pc := Function.update s.pc i .idle } := by
  simp only [next] at h
  split at h
  · exact ⟨.inl ‹_›, (Option.some.inj h).symm⟩
  · exact ⟨.inr ⟨_, ‹_›⟩, (Option.some.inj h).symm⟩
  · cases h

/-! ## Mutual exclusion -/

/-- Only the holder of the lock is inside `send_packet`. -/
def Mutex (s : Sending ι) : Prop := ∀ i, s.pc i ≠ .idle → s.lock = some i

/-- What the holder moves to does not matter. -/
theorem mutex_update (hs : Mutex s) (hi : s.pc i ≠ .idle) (x : SendPc) :
    ∀ j, Function.update s.pc i x j ≠ .idle → s.lock = some j := by
  intro j hj
  by_cases hji : j = i
  · exact hji ▸ hs i hi
  · rw [Function.update_of_ne hji] at hj
    exact hs j hj

theorem mutex_step {a : SendAct ι} (hs : Mutex s) (h : next s a = some s') : Mutex s' := by
  cases a with
  | acquire i p =>
    obtain ⟨hfree, -, rfl⟩ := next_acquire h
    intro j hj
    by_cases hji : j = i
    · exact hji ▸ rfl
    · simp only [Function.update_of_ne hji] at hj
      exact absurd (hs j hj) (by simp [hfree])
  | encrypt i =>
    obtain ⟨p, hi, rfl⟩ := next_encrypt h
    exact mutex_update hs (by simp [hi]) _
  | frame i =>
    obtain ⟨r, hi, rfl⟩ := next_frame h
    exact mutex_update hs (by simp [hi]) _
  | write i n =>
    obtain ⟨rest, hi, -, rfl⟩ := next_write h
    exact mutex_update hs (by simp [hi]) _
  | cut i =>
    obtain ⟨rest, hi, rfl⟩ := next_cut h
    exact mutex_update hs (by simp [hi]) _
  | release i =>
    obtain ⟨hi, rfl⟩ := next_release h
    have hlock : s.lock = some i := hs i (by rcases hi with hi | ⟨e, hi⟩ <;> simp [hi])
    intro j hj
    by_cases hji : j = i
    · exact absurd (by simp [hji]) hj
    · -- Another thread inside would hold the lock too.
      simp only [Function.update_of_ne hji] at hj
      exact absurd (Option.some.inj ((hs j hj).symm.trans hlock)) hji
  | close =>
    obtain rfl := Option.some.inj h
    exact hs

/-- Where the holder of the lock is. -/
def current (s : Sending ι) : SendPc :=
  match s.lock with
  | none => .idle
  | some i => s.pc i

omit [DecidableEq ι] in
theorem current_of_pc {x : SendPc} (hs : Mutex s) (hi : s.pc i = x) (hx : x ≠ .idle) :
    s.lock = some i ∧ s.current = x := by
  have hlock : s.lock = some i := hs i (hi ▸ hx)
  refine ⟨hlock, ?_⟩
  rw [current, hlock]
  exact hi

/-! ## The wire -/

variable {c : SessionCipher} {n : ℕ} {order : List Bytes} {wire : Bytes}

/-- The packet that has no number yet. -/
def pending : SendPc → List Bytes
  | .locked p => [p]
  | _ => []

/-- The wire carries the records of `ps`. The numbers from `2 ^ 64` on have no
    record, as `encrypt` raises. -/
def Complete (c : SessionCipher) (ps : List Bytes) (wire : Bytes) : Prop :=
  wire = wireOf c.aead c.key c.sendSequence (ps.take (2 ^ 64 - c.sendSequence)) ∧
    ∀ q ∈ ps.take (2 ^ 64 - c.sendSequence), Fits q

/-- What is on the wire when `ps` are the packets that have had a number: their
    records, up to the bytes that are still to be written. -/
def OnWire (c : SessionCipher) (ps : List Bytes) (wire : Bytes) : SendPc → Prop
  | .idle => Complete c ps wire
  | .locked _ => Complete c ps wire
  | .encrypted r => ∃ qs p, ps = qs ++ [p] ∧ c.sendSequence + ps.length ≤ 2 ^ 64 ∧
      r = SessionCipher.record c.aead c.key (c.sendSequence + qs.length) p ∧
      wire = wireOf c.aead c.key c.sendSequence qs ∧ ∀ q ∈ qs, Fits q
  | .writing rest => ∃ qs p w, ps = qs ++ [p] ∧ c.sendSequence + ps.length ≤ 2 ^ 64 ∧
      frameOf (SessionCipher.record c.aead c.key (c.sendSequence + qs.length) p) = w ++ rest ∧
      rest ≠ [] ∧ wire = wireOf c.aead c.key c.sendSequence qs ++ w ∧ ∀ q ∈ ps, Fits q
  | .written => Complete c ps wire
  | .raised _ => Complete c ps wire

/-- Every packet has had the number of its place in the order, up to the next
    number `n`, and is on the wire under that number. -/
def Numbered (c : SessionCipher) (n : ℕ) (order : List Bytes) (wire : Bytes) (pc : SendPc) : Prop :=
  ∃ ps, n = c.sendSequence + ps.length ∧ order = ps ++ pending pc ∧ OnWire c ps wire pc

theorem numbered_acquire (h : Numbered c n order wire .idle) (p : Bytes) :
    Numbered c n (order ++ [p]) wire (.locked p) := by
  obtain ⟨ps, hn, rfl, hwire⟩ := h
  exact ⟨ps, hn, by simp [pending], hwire⟩

/-- Encrypting, under the next number, or raising when there is none left. -/
theorem numbered_encrypt {p : Bytes} (h : Numbered c n order wire (.locked p)) {d : SessionCipher}
    (haead : d.aead = c.aead) (hkey : d.key = c.key) (hd : d.sendSequence = n) :
    Numbered c (n + 1) order wire (afterEncrypt (d.encrypt p).1) := by
  obtain ⟨ps, rfl, rfl, hwire, hfits⟩ := h
  refine ⟨ps ++ [p], by simp [Nat.add_assoc], ?_, ?_⟩
  · cases (d.encrypt p).1 <;> simp [afterEncrypt, pending]
  · by_cases hlt : d.sendSequence < 2 ^ 64
    · rw [SessionCipher.encrypt_of_lt hlt, haead, hkey, hd]
      rw [hd] at hlt
      rw [List.take_of_length_le (by omega)] at hwire hfits
      exact ⟨ps, p, rfl, by simp only [List.length_append, List.length_singleton]; omega, rfl,
        hwire, hfits⟩
    · rw [SessionCipher.encrypt_of_le (not_lt.1 hlt)]
      rw [hd] at hlt
      have htake : (ps ++ [p]).take (2 ^ 64 - c.sendSequence) = ps.take (2 ^ 64 - c.sendSequence) :=
        List.take_append_of_le_length (by omega)
      refine ⟨?_, ?_⟩
      · rw [htake, hwire]
      · rw [htake]
        exact hfits

/-- Framing a record that fits. -/
theorem numbered_frame (haead : c.aead.Correct) {r : Bytes}
    (h : Numbered c n order wire (.encrypted r)) (hr : r.length ≤ maxFrameSize) :
    Numbered c n order wire (afterFrame (sendFrame r)) := by
  obtain ⟨ps, hn, rfl, qs, p, rfl, hlen, rfl, hwire, hfits⟩ := h
  rw [sendFrame_of_le hr]
  refine ⟨qs ++ [p], hn, rfl, qs, p, [], rfl, hlen, rfl, ?_, by rw [hwire, List.append_nil], ?_⟩
  · simp [frameOf, packBE]
  · intro q hq
    rcases List.mem_append.1 hq with hq | hq
    · exact hfits q hq
    · rw [List.mem_singleton.1 hq]
      exact (length_record_le haead _ _).1 hr

/-- Writing some of the frame, or all that is left of it. -/
theorem numbered_write {rest : Bytes} (h : Numbered c n order wire (.writing rest)) (k : ℕ) :
    Numbered c n order (wire ++ rest.take k) (afterWrite (rest.drop k)) := by
  obtain ⟨ps, hn, rfl, qs, p, w, rfl, hlen, hframe, -, rfl, hfits⟩ := h
  rw [afterWrite, List.append_assoc (wireOf ..)]
  split_ifs with hrest
  · -- The frame is complete: the wire carries one more packet.
    have hall : rest.take k = rest := by
      rw [← List.take_append_drop k rest, hrest, List.append_nil, List.take_take, min_self]
    have htake : (qs ++ [p]).take (2 ^ 64 - c.sendSequence) = qs ++ [p] :=
      List.take_of_length_le (by omega)
    refine ⟨qs ++ [p], hn, rfl, ?_, ?_⟩
    · rw [htake, hall, ← hframe, wireOf_concat]
    · rw [htake]
      exact hfits
  · refine ⟨qs ++ [p], hn, rfl, qs, p, w ++ rest.take k, rfl, hlen, ?_, hrest, rfl, hfits⟩
    rw [List.append_assoc, List.take_append_drop, hframe]

/-- The invariant of a connection on which nothing has failed: every packet is
    on the wire, under the number of its place in the order the lock was taken. -/
structure Inv (c : SessionCipher) (s : Sending ι) : Prop where
  aead : s.cipher.aead = c.aead
  key : s.cipher.key = c.key
  numbered : Numbered c s.cipher.sendSequence (s.order.map Prod.snd) s.wire s.current

/-- `send_frame` takes the record of a thread that has one. -/
def Framed : SendPc → Prop
  | .encrypted r => r.length ≤ maxFrameSize
  | _ => True

instance : DecidablePred Framed
  | .encrypted r => inferInstanceAs (Decidable (r.length ≤ maxFrameSize))
  | .idle | .locked _ | .writing _ | .written | .raised _ => inferInstanceAs (Decidable True)

/-- A step at which `send_frame` does not raise. -/
def Succeeds (s : Sending ι) : SendAct ι → Prop
  | .frame i => Framed (s.pc i)
  | .cut _ => False
  | _ => True

instance (s : Sending ι) : DecidablePred (Succeeds s)
  | .frame i => inferInstanceAs (Decidable (Framed (s.pc i)))
  | .cut _ => inferInstanceAs (Decidable False)
  | .acquire _ _ | .encrypt _ | .write _ _ | .release _ | .close => inferInstanceAs (Decidable True)

omit [DecidableEq ι] in
theorem inv_new (c : SessionCipher) : Inv c (new c : Sending ι) where
  aead := rfl
  key := rfl
  numbered := ⟨[], rfl, rfl, by simp [new, current, OnWire, Complete]⟩

/-- The invariant after a step of the holder of the lock. -/
theorem inv_update (haead : s'.cipher.aead = c.aead) (hkey : s'.cipher.key = c.key)
    (hlock : s'.lock = some i) {x : SendPc} (hpc : s'.pc = Function.update s.pc i x)
    (hnum : Numbered c s'.cipher.sendSequence (s'.order.map Prod.snd) s'.wire x) : Inv c s' := by
  refine ⟨haead, hkey, ?_⟩
  rw [current, hlock, hpc]
  simpa using hnum

/-- While nothing fails, every step keeps the invariant. -/
theorem inv_step (haead : c.aead.Correct) {a : SendAct ι} (hm : Mutex s) (hinv : Inv c s)
    (h : next s a = some s') (ha : Succeeds s a) : Inv c s' := by
  obtain ⟨haead', hkey, hnum⟩ := hinv
  cases a with
  | acquire i p =>
    obtain ⟨hfree, -, rfl⟩ := next_acquire h
    rw [current, hfree] at hnum
    refine inv_update haead' hkey rfl rfl ?_
    rw [List.map_append]
    exact numbered_acquire hnum p
  | encrypt i =>
    obtain ⟨p, hi, rfl⟩ := next_encrypt h
    obtain ⟨hlock, hcur⟩ := current_of_pc hm hi (by simp)
    rw [hcur] at hnum
    exact inv_update haead' hkey hlock rfl (numbered_encrypt hnum haead' hkey rfl)
  | frame i =>
    obtain ⟨r, hi, rfl⟩ := next_frame h
    obtain ⟨hlock, hcur⟩ := current_of_pc hm hi (by simp)
    rw [hcur] at hnum
    rw [Succeeds, hi] at ha
    exact inv_update haead' hkey hlock rfl (numbered_frame haead hnum ha)
  | write i k =>
    obtain ⟨rest, hi, -, rfl⟩ := next_write h
    obtain ⟨hlock, hcur⟩ := current_of_pc hm hi (by simp)
    rw [hcur] at hnum
    exact inv_update haead' hkey hlock rfl (numbered_write hnum (k + 1))
  | cut i => exact ha.elim
  | release i =>
    obtain ⟨hi, rfl⟩ := next_release h
    refine ⟨haead', hkey, ?_⟩
    -- The wire is complete either way: what has raised is `encrypt`.
    rcases hi with hi | ⟨e, hi⟩
    · rw [(current_of_pc hm hi (by simp)).2] at hnum
      exact hnum
    · rw [(current_of_pc hm hi (by simp)).2] at hnum
      exact hnum
  | close =>
    obtain rfl := Option.some.inj h
    exact ⟨haead', hkey, hnum⟩

/-! ## What the reader returns -/

/-- The wire carries the packets `qs`, and at most some of one more frame. -/
def Carries (c : SessionCipher) (qs : List Bytes) (wire : Bytes) : Prop :=
  ∃ w, wire = wireOf c.aead c.key c.sendSequence qs ++ w ∧ frameFront w = .more ∧
    qs.length ≤ 2 ^ 64 - c.sendSequence ∧ ∀ q ∈ qs, Fits q

theorem receive_of_carries (haead : c.aead.Correct) {qs : List Bytes} (h : Carries c qs wire)
    {turns : List Turn} (hstop : Turn.stop ∉ turns) (sent : ℕ) :
    receive ⟨c.aead, c.key, sent, c.sendSequence⟩ ⟨wire, turns⟩ = (qs, .ok ()) := by
  obtain ⟨w, rfl, hw, hlen, hfits⟩ := h
  exact receive_wireOf haead hfits hlen hw hstop sent

theorem carries_of_complete {ps : List Bytes} (h : Complete c ps wire) :
    Carries c (ps.take (2 ^ 64 - c.sendSequence)) wire := by
  obtain ⟨rfl, hfits⟩ := h
  exact ⟨[], by rw [List.append_nil], frames_front_nil, List.length_take_le _ _, hfits⟩

/-- The wire carries the packets in the order of the lock, up to the one whose
    record is not complete. -/
theorem carries_of_numbered (haead : c.aead.Correct) {pc : SendPc}
    (h : Numbered c n order wire pc) :
    ∃ m, Carries c ((order.take (2 ^ 64 - c.sendSequence)).take m) wire ∧
      order.length ≤ m + 1 ∧ (pc = .idle → order.length ≤ m) := by
  obtain ⟨ps, -, rfl, hwire⟩ := h
  have hall : (ps.take (2 ^ 64 - c.sendSequence)).take ps.length =
      ps.take (2 ^ 64 - c.sendSequence) := List.take_of_length_le (List.length_take_le' _ _)
  -- A packet that has no record yet is the last one.
  have hlast (qs : List Bytes) (p : Bytes) (hps : ps = qs ++ [p])
      (hlen : c.sendSequence + ps.length ≤ 2 ^ 64) :
      (ps.take (2 ^ 64 - c.sendSequence)).take qs.length = qs := by
    rw [List.take_of_length_le (i := 2 ^ 64 - c.sendSequence) (by omega), hps, List.take_left]
  cases pc with
  | locked p =>
    refine ⟨ps.length, ?_, by simp [pending], by simp⟩
    rw [List.take_take, min_comm, ← List.take_take, pending, List.take_left]
    exact carries_of_complete hwire
  | encrypted r =>
    obtain ⟨qs, p, hps, hlen, -, rfl, hfits⟩ := hwire
    refine ⟨qs.length, ?_, by simp [pending, hps], by simp⟩
    simp only [pending, List.append_nil, hlast qs p hps hlen]
    rw [hps, List.length_append, List.length_singleton] at hlen
    exact ⟨[], by rw [List.append_nil], frames_front_nil, by omega, hfits⟩
  | writing rest =>
    obtain ⟨qs, p, w, hps, hlen, hframe, hrest, rfl, hfits⟩ := hwire
    refine ⟨qs.length, ?_, by simp [pending, hps], by simp⟩
    simp only [pending, List.append_nil, hlast qs p hps hlen]
    rw [hps, List.length_append, List.length_singleton] at hlen
    have hp : Fits p := hfits p (by simp [hps])
    refine ⟨w, rfl, frameFront_of_cut ((length_record_le haead _ _).2 hp) hframe hrest,
      by omega, ?_⟩
    exact fun q hq => hfits q (by simp [hps, hq])
  | idle | written | raised e =>
    refine ⟨ps.length, ?_, by simp [pending], by simp [pending]⟩
    simp only [pending, List.append_nil, hall]
    exact carries_of_complete hwire

omit [DecidableEq ι] in
theorem mutex_new (c : SessionCipher) : Mutex (new c : Sending ι) :=
  fun _ h => absurd rfl h

/-- When every write succeeds, the reader with the key and the counter of the
    sender returns the packets in the order the lock was taken, none lost but
    the one of the thread that holds the lock, for every way they arrive. The
    numbers from `2 ^ 64` on do not exist: `encrypt` has raised, and nothing has
    been sent. -/
theorem senders_keep_order (haead : c.aead.Correct) {acts : List (SendAct ι)}
    (hrun : ((system ι c).restrict Succeeds).Run (new c) acts s) :
    ∃ m, s.order.length ≤ m + 1 ∧ (s.lock = none → s.order.length ≤ m) ∧
      ∀ (turns : List Turn) (sent : ℕ), Turn.stop ∉ turns →
        receive ⟨c.aead, c.key, sent, c.sendSequence⟩ ⟨s.wire, turns⟩ =
          (((s.order.map Prod.snd).take (2 ^ 64 - c.sendSequence)).take m, .ok ()) := by
  have hinv : Mutex s ∧ Inv c s := by
    refine hrun.invariant (I := fun s => Mutex s ∧ Inv c s) ?_ ⟨mutex_new c, inv_new c⟩
    intro s a s' ⟨hm, hinv⟩ ⟨hstep, ha⟩
    exact ⟨mutex_step hm hstep, inv_step haead hm hinv hstep ha⟩
  obtain ⟨m, hcarries, hm, hidle⟩ := carries_of_numbered haead hinv.2.numbered
  rw [List.length_map] at hm hidle
  refine ⟨m, hm, fun hlock => hidle ?_, fun turns sent hstop => ?_⟩
  · rw [current, hlock]
  · exact receive_of_carries haead hcarries hstop sent

/-- Two threads on one connection, the first writing its frame in pieces. -/
def twoSenders : List (SendAct Bool) :=
  [.acquire true [7], .encrypt true, .frame true, .write true 1, .write true 40, .release true,
    .acquire false [8], .encrypt false, .frame false, .write false 40, .release false]

/-- What it leads to. -/
def afterTwoSenders : Sending Bool :=
  (twoSenders.foldlM (System.guarded next Succeeds) (new ⟨tagAead, ascii "key", 5, 0⟩)).get
    (by decide)

theorem run_twoSenders : ((system Bool ⟨tagAead, ascii "key", 5, 0⟩).restrict Succeeds).Run
    (new ⟨tagAead, ascii "key", 5, 0⟩) twoSenders afterTwoSenders :=
  .ofPartial_foldlM (Option.some_get _).symm

/-- The reader returns both packets of `twoSenders`. -/
theorem senders_keep_order_two :
    receive ⟨tagAead, ascii "key", 0, 5⟩ ⟨afterTwoSenders.wire, [.arrive 0, .quiet, .arrive 30]⟩ =
      ([[7], [8]], .ok ()) := by
  obtain ⟨m, -, hm, hrecv⟩ := senders_keep_order tagAead_correct run_twoSenders
  have horder : afterTwoSenders.order.map Prod.snd = [[7], [8]] := by decide
  have hm : 2 ≤ m := hm (by decide)
  rw [hrecv _ 0 (by decide), horder, List.take_of_length_le (i := m)]
  · rfl
  · exact (List.length_take_le' _ _).trans hm

end Sending

end SecNet
