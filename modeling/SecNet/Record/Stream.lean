import SecNet.Framing.Reader
import SecNet.Record.Cipher

/-!
# Records on a stream

The reader of a peer takes the frames of its connection apart
(`recv_frames_from_socket`) and opens each as the next record of the session:
this is the head of the loop of `start_peer_packet_manager`, and of the reader
of the client. On the other side, `wireOf` is what a connection carries when the
records of a list of packets have been written to it, each in a frame.

* `receive_wireOf`: the reader returns the packets of the wire, in order, for
  every way the stream arrives, also when the last frame is not complete;
* `frameFront_of_cut`: a frame cut short holds no frame.
-/

namespace SecNet

/-! ## The reader -/

/-- Opening records in order: the packets, and the cipher after them, or what
    the first record rejected raises. -/
def decryptAll (c : SessionCipher) : List Bytes → List Bytes × Except Exn SessionCipher
  | [] => ([], .ok c)
  | r :: rs =>
    match c.decrypt r with
    | (.error e, _) => ([], .error e)
    | (.ok p, c') => (p :: (decryptAll c' rs).1, (decryptAll c' rs).2)

/-- `for frame in recv_frames_from_socket(...)`, with `decrypt(frame)` at the
    head of the loop: the packets the loop gets, and how it ends. -/
def receive (c : SessionCipher) (s : Socket) : List Bytes × Except Exn Unit :=
  match decryptAll c (recvFramesFromSocket s).1 with
  | (ps, .error e) => (ps, .error e)
  | (ps, .ok _) => (ps, (recvFramesFromSocket s).2)

/-! ## The wire -/

/-- A payload in its frame. -/
def frameOf (r : Bytes) : Bytes := packBE 4 r.length ++ r

/-- The records of packets numbered from `n`. -/
def recordsFrom (aead : Aead) (key : Bytes) (n : ℕ) (ps : List Bytes) : List Bytes :=
  ps.mapIdx fun i p => SessionCipher.record aead key (n + i) p

/-- What a connection carries after packets numbered from `n`. -/
def wireOf (aead : Aead) (key : Bytes) (n : ℕ) (ps : List Bytes) : Bytes :=
  (recordsFrom aead key n ps).flatMap frameOf

/-- A packet whose record has a frame. -/
def Fits (p : Bytes) : Prop := p.length + 24 ≤ maxFrameSize

instance (p : Bytes) : Decidable (Fits p) := inferInstanceAs (Decidable (_ ≤ _))

variable {aead : Aead} {key : Bytes} {n : ℕ} {ps : List Bytes}

theorem sendFrame_of_le {r : Bytes} (h : r.length ≤ maxFrameSize) :
    sendFrame r = .ok (frameOf r) := by
  rw [sendFrame, if_neg (not_lt.2 h), frameOf]

theorem sendFrame_eq_ok {r b : Bytes} (h : sendFrame r = .ok b) :
    r.length ≤ maxFrameSize ∧ b = frameOf r := by
  rw [sendFrame] at h
  split_ifs at h with hr
  exact ⟨not_lt.1 hr, (Except.ok.inj h).symm⟩

theorem length_record_le (haead : aead.Correct) (n : ℕ) (p : Bytes) :
    (SessionCipher.record aead key n p).length ≤ maxFrameSize ↔ Fits p := by
  have := SessionCipher.length_record (c := .new aead key) haead n p
  rw [Fits, ← this, SessionCipher.new]

@[simp]
theorem wireOf_nil : wireOf aead key n [] = [] := rfl

/-- The wire after one more packet. -/
theorem wireOf_concat (p : Bytes) :
    wireOf aead key n (ps ++ [p]) =
      wireOf aead key n ps ++ frameOf (SessionCipher.record aead key (n + ps.length) p) := by
  simp [wireOf, recordsFrom, List.mapIdx_append]

/-- The receiver with the key of the records, and their counter, opens them all. -/
theorem decryptAll_recordsFrom (haead : aead.Correct) {sent : ℕ} (h : ps.length ≤ 2 ^ 64 - n) :
    decryptAll ⟨aead, key, sent, n⟩ (recordsFrom aead key n ps) =
      (ps, .ok ⟨aead, key, sent, n + ps.length⟩) := by
  induction ps generalizing n with
  | nil => rfl
  | cons p ps ih =>
    rw [List.length_cons] at h
    have hcons : recordsFrom aead key n (p :: ps) =
        SessionCipher.record aead key n p :: recordsFrom aead key (n + 1) ps := by
      simp only [recordsFrom, List.mapIdx_cons, Nat.add_zero]
      simp only [Nat.add_assoc, Nat.add_comm 1]
    have hdec := SessionCipher.decrypt_record (c := ⟨aead, key, sent, n⟩) haead
      (show n < 2 ^ 64 by omega) p
    rw [hcons, decryptAll, hdec]
    simp only
    rw [ih (by omega), List.length_cons, Nat.add_assoc, Nat.add_comm 1]

/-- The frames of a stream are those of its payloads. -/
theorem frames_front_frame {r : Bytes} (hr : r.length ≤ maxFrameSize) (b : Bytes) :
    frames.front (frameOf r ++ b) = .item r b :=
  frameFront_frame hr b

/-- A frame at the front of a buffer is what the buffer begins with. -/
theorem eq_of_frames_front {b rest r : Bytes} (h : frames.front b = .item r rest) :
    b = frameOf r ++ rest := by
  obtain ⟨h4, -, hlen, hr, hrest⟩ := frameFront_item h
  have hhead : packBE 4 (unpackBE (b.take 4)) = b.take 4 := by
    have := packBE_unpackBE (b.take 4)
    rwa [List.length_take, min_eq_left h4] at this
  have hsize : r.length = unpackBE (b.take 4) := by
    rw [hr, List.length_take, List.length_drop]
    omega
  rw [frameOf, hsize, hhead, hr, hrest, List.append_assoc, ← List.drop_drop,
    List.take_append_drop, List.take_append_drop]

/-- A strict prefix of a frame holds no frame. -/
theorem frameFront_of_cut {r w rest : Bytes} (hr : r.length ≤ maxFrameSize)
    (h : frameOf r = w ++ rest) (hrest : rest ≠ []) : frameFront w = .more := by
  have hwhole : frameFront (w ++ rest) = .item r [] := by
    have := frameFront_frame hr []
    rwa [List.append_nil, ← frameOf, h] at this
  rcases hw : frameFront w with _ | ⟨x, t⟩ | e
  · rfl
  · -- What follows a frame would be the rest, and no byte.
    have hitem : frameFront (w ++ rest) = .item x (t ++ rest) := frames.item_append rest hw
    rw [hwhole, Front.item.injEq] at hitem
    exact absurd (List.append_eq_nil_iff.1 hitem.2.symm).2 hrest
  · have hbad : frameFront (w ++ rest) = .bad e := frames.bad_append rest hw
    rw [hwhole] at hbad
    cases hbad

/-- The reader returns the packets of the wire, for every way the stream
    arrives, and waits for the rest of the frame that is not complete. -/
theorem receive_wireOf (haead : aead.Correct) (hfits : ∀ p ∈ ps, Fits p)
    (hn : ps.length ≤ 2 ^ 64 - n) {w : Bytes} (hw : frameFront w = .more) {turns : List Turn}
    (hstop : Turn.stop ∉ turns) (sent : ℕ) :
    receive ⟨aead, key, sent, n⟩ ⟨wireOf aead key n ps ++ w, turns⟩ = (ps, .ok ()) := by
  have hframe : ∀ r ∈ recordsFrom aead key n ps, ∀ c,
      frames.front (frameOf r ++ c) = .item r c := by
    intro r hr c
    obtain ⟨i, hi, rfl⟩ := List.mem_mapIdx.1 hr
    exact frames_front_frame ((length_record_le haead _ _).2 (hfits _ (List.getElem_mem hi))) c
  have hsplit := Splitter.split_flatMap hframe w
  rw [Splitter.split_of_more (S := frames) (b := w) hw, List.append_nil] at hsplit
  rw [receive, recvFramesFromSocket_eq hstop, wireOf, hsplit]
  simp only
  rw [decryptAll_recordsFrom haead hn]
  rfl

end SecNet
