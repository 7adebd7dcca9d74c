import SecNet.Framing.Protocol
import SecNet.Lib.Splitter

/-!
# The incremental reader, and its agreement with the blocking one

`recv_frames_from_socket` reads a connection in chunks of at most 4096 bytes,
keeps what is left of them in a buffer, and yields the frames as they are
completed (`recvFramesFromSocket`); the handshake reads the same connection
frame by frame (`recvFrame`). Both cut the stream as one splitter, `frames`:

* `drain_eq_split`: the inner loop of the reader is the splitter;
* `recvFramesLoop_eq`: so is the whole reader, on the buffer and what is left
  of the stream, for every way the stream arrives;
* `recvFrame_eq`: `recvFrame` reads the item at the front of the stream, and
  leaves the stream after it;
* `readers_agree`: hence the payloads sent are received, in order, whichever
  reader takes over at whichever frame, and the two readers agree on malformed
  streams too.
-/

namespace SecNet

/-! ## The reader -/

/-- The inner loop of `recv_frames_from_socket`: the frames completed by the
    buffer, and what is left of it. -/
def drain (buffer : Bytes) : List Bytes × Except Exn Bytes :=
  if 4 ≤ buffer.length then
    let length := unpackBE (buffer.take 4)
    if length > maxFrameSize then ([], .error (.valueError "frame is too large"))
    else if buffer.length < 4 + length then ([], .ok buffer)
    else
      let frame := (buffer.drop 4).take length
      (frame :: (drain (buffer.drop (4 + length))).1, (drain (buffer.drop (4 + length))).2)
  else ([], .ok buffer)
termination_by buffer.length
decreasing_by all_goals simp only [List.length_drop]; omega

theorem length_of_nextTurn {turns turns' : List Turn} {turn : Turn}
    (h : nextTurn turns = (turn, turns')) : turns'.length ≤ turns.length := by
  cases turns <;> simp_all [nextTurn]

theorem not_mem_of_nextTurn {turns turns' : List Turn} {turn t : Turn}
    (h : nextTurn turns = (turn, turns')) (ht : t ∉ turns) : t ∉ turns' := by
  cases turns <;> simp_all [nextTurn]

theorem stop_mem_of_nextTurn {turns turns' : List Turn}
    (h : nextTurn turns = (.stop, turns')) : Turn.stop ∈ turns := by
  cases turns <;> simp_all [nextTurn]

/-- A timeout is a turn of the network. -/
theorem length_of_nextTurn_quiet {turns turns' : List Turn}
    (h : nextTurn turns = (.quiet, turns')) : turns'.length < turns.length := by
  cases turns <;> simp_all [nextTurn]

/-- The outer loop: the frames yielded, and whether the generator ends (`ok`),
    at the end of the stream or on the stop event, or raises. -/
def recvFramesLoop (buffer left : Bytes) (turns : List Turn) : List Bytes × Except Exn Unit :=
  match _h : nextTurn turns with
  | (.stop, _) => ([], .ok ())
  -- `except socket.timeout: continue`
  | (.quiet, turns') => recvFramesLoop buffer left turns'
  | (.arrive k, turns') =>
    let chunk := left.take (min 4096 (k + 1))
    if chunk = [] then ([], .ok ())
    else match drain (buffer ++ chunk) with
      | (frames, .error e) => (frames, .error e)
      | (frames, .ok buffer') =>
        let rest := recvFramesLoop buffer' (left.drop (min 4096 (k + 1))) turns'
        (frames ++ rest.1, rest.2)
termination_by turns.length + left.length
decreasing_by
  · have := length_of_nextTurn_quiet _h
    omega
  · rename_i hne
    have := length_of_nextTurn _h
    have := List.length_pos_iff.2 (mt (List.take_eq_nil_iff.2 ∘ .inr) hne)
    simp only [List.length_drop]
    omega

/-- `recv_frames_from_socket`: the frames it yields, and how it ends. -/
def recvFramesFromSocket (s : Socket) : List Bytes × Except Exn Unit :=
  recvFramesLoop [] s.left s.turns

/-! ## The readers as one splitter -/

/-- The frame at the front of a buffer. -/
def frameFront (b : Bytes) : Front UInt8 Bytes Exn :=
  if 4 ≤ b.length then
    let length := unpackBE (b.take 4)
    if length > maxFrameSize then .bad (.valueError "frame is too large")
    else if b.length < 4 + length then .more
    else .item ((b.drop 4).take length) (b.drop (4 + length))
  else .more

/-- A front that holds something has a whole header, which what follows does
    not change. -/
theorem frameFront_header {b : Bytes} (h : frameFront b ≠ .more) (c : Bytes) :
    4 ≤ b.length ∧ (b ++ c).take 4 = b.take 4 := by
  have h4 : 4 ≤ b.length := by
    by_contra h4
    exact h (by rw [frameFront, if_neg h4])
  exact ⟨h4, List.take_append_of_le_length h4⟩

theorem frameFront_item {b r x : Bytes} (h : frameFront b = .item x r) :
    4 ≤ b.length ∧ unpackBE (b.take 4) ≤ maxFrameSize ∧ 4 + unpackBE (b.take 4) ≤ b.length ∧
      x = (b.drop 4).take (unpackBE (b.take 4)) ∧ r = b.drop (4 + unpackBE (b.take 4)) := by
  rw [frameFront] at h
  split_ifs at h with h4
  simp only at h
  split_ifs at h with hmax hlen
  simp only [Front.item.injEq] at h
  exact ⟨h4, not_lt.1 hmax, not_lt.1 hlen, h.1.symm, h.2.symm⟩

theorem frameFront_bad {b : Bytes} {e : Exn} (h : frameFront b = .bad e) :
    4 ≤ b.length ∧ maxFrameSize < unpackBE (b.take 4) ∧ e = .valueError "frame is too large" := by
  rw [frameFront] at h
  split_ifs at h with h4
  simp only at h
  split_ifs at h with hmax hlen
  simp only [Front.bad.injEq] at h
  exact ⟨h4, hmax, h.symm⟩

/-- The frames of a stream. -/
def frames : Splitter UInt8 Bytes Exn where
  front := frameFront
  length_lt h := by
    obtain ⟨h4, -, -, -, rfl⟩ := frameFront_item h
    rw [List.length_drop]
    omega
  item_append c h := by
    obtain ⟨-, hhead⟩ := frameFront_header (by rw [h]; simp) c
    obtain ⟨h4, hmax, hlen, rfl, rfl⟩ := frameFront_item h
    rw [frameFront, hhead, if_pos (by rw [List.length_append]; omega)]
    simp only
    rw [if_neg (not_lt.2 hmax), if_neg (by rw [List.length_append]; omega),
      List.drop_append_of_le_length h4, List.drop_append_of_le_length hlen,
      List.take_append_of_le_length (by rw [List.length_drop]; omega)]
  bad_append c h := by
    obtain ⟨-, hhead⟩ := frameFront_header (by rw [h]; simp) c
    obtain ⟨h4, hmax, rfl⟩ := frameFront_bad h
    rw [frameFront, hhead, if_pos (by rw [List.length_append]; omega)]
    simp only
    rw [if_pos hmax]

/-- A frame is at the front of its stream. -/
theorem frameFront_frame {p : Bytes} (hp : p.length ≤ maxFrameSize) (c : Bytes) :
    frameFront (packBE 4 p.length ++ p ++ c) = .item p c := by
  have hhead : (packBE 4 p.length ++ p ++ c).take 4 = packBE 4 p.length := by
    rw [List.append_assoc, List.take_append_of_le_length (by simp)]
    exact List.take_of_length_le (by simp)
  have hlen : unpackBE (packBE 4 p.length) = p.length :=
    unpackBE_packBE (lt_of_le_of_lt hp (by decide))
  have htail : (packBE 4 p.length ++ p ++ c).drop 4 = p ++ c := by
    rw [List.append_assoc, List.drop_append_of_le_length (by simp),
      List.drop_of_length_le (by simp), List.nil_append]
  rw [frameFront, hhead, hlen, if_pos (by simp)]
  simp only
  rw [if_neg (not_lt.2 hp), if_neg (by simp), ← List.drop_drop, htail, List.take_left,
    List.drop_left]

/-- A turn of the inner loop looks at the front of the buffer. -/
theorem drain_eq (b : Bytes) : drain b = match frameFront b with
    | .more => ([], .ok b)
    | .item x r => (x :: (drain r).1, (drain r).2)
    | .bad e => ([], .error e) := by
  rw [drain, frameFront]
  simp only
  split_ifs <;> rfl

/-- The inner loop of the reader splits the buffer. -/
theorem drain_eq_split (b : Bytes) : drain b = frames.split b := by
  induction b using Splitter.split.induct frames with
  | case1 b hb =>
    rw [Splitter.split_of_more hb, drain_eq, show frameFront b = .more from hb]
  | case2 b x r hb _ ih =>
    rw [Splitter.split_of_item hb, drain_eq, show frameFront b = .item x r from hb, ← ih]
  | case3 b e hb =>
    rw [Splitter.split_of_bad hb, drain_eq, show frameFront b = .bad e from hb]

/-- How a reader ends on what is left of its stream: at its end, inside a
    frame or not, or on an error. -/
def ending : Except Exn Bytes → Except Exn Unit
  | .ok _ => .ok ()
  | .error e => .error e

/-- The incremental reader splits its buffer and what is left of the stream,
    for every way the stream arrives. -/
theorem recvFramesLoop_eq {buffer left : Bytes} {turns : List Turn}
    (hb : frames.front buffer = .more) (hstop : Turn.stop ∉ turns) :
    recvFramesLoop buffer left turns =
      ((frames.split (buffer ++ left)).1, ending (frames.split (buffer ++ left)).2) := by
  induction buffer, left, turns using recvFramesLoop.induct with
  | case1 buffer left turns turns' h => exact absurd (stop_mem_of_nextTurn h) hstop
  | case2 buffer left turns turns' h ih =>
    rw [recvFramesLoop, h]
    exact ih hb (not_mem_of_nextTurn h hstop)
  | case3 buffer left turns k turns' h chunk hchunk =>
    -- `recv` returns nothing: the stream is at its end.
    have hleft : left = [] := (List.take_eq_nil_iff.1 hchunk).resolve_left (by omega)
    rw [recvFramesLoop, h]
    simp only
    rw [if_pos hchunk, hleft, List.append_nil, Splitter.split_of_more hb]
    rfl
  -- A frame in the buffer is too large, whatever comes later.
  | case4 buffer left turns k turns' h chunk hchunk xs e hdrain =>
    have hleft : buffer ++ left = (buffer ++ chunk) ++ left.drop (min 4096 (k + 1)) := by
      rw [List.append_assoc, List.take_append_drop]
    rw [hleft, Splitter.split_append, ← drain_eq_split, hdrain, recvFramesLoop, h]
    simp only [chunk] at hchunk hdrain
    simp only [if_neg hchunk, hdrain, ending]
  | case5 buffer left turns k turns' h chunk hchunk xs buffer' hdrain ih =>
    have hleft : buffer ++ left = (buffer ++ chunk) ++ left.drop (min 4096 (k + 1)) := by
      rw [List.append_assoc, List.take_append_drop]
    -- What the inner loop leaves in the buffer has no complete frame at its front.
    have hb' : frames.front buffer' = .more := Splitter.front_of_split (drain_eq_split _ ▸ hdrain)
    rw [hleft, Splitter.split_append, ← drain_eq_split, hdrain, recvFramesLoop, h]
    simp only [chunk] at hchunk hdrain
    simp only [if_neg hchunk, hdrain, ih hb' (not_mem_of_nextTurn h hstop)]

theorem frames_front_nil : frames.front [] = .more := by simp [frames, frameFront]

/-- `recv_frames_from_socket` splits the stream. -/
theorem recvFramesFromSocket_eq {s : Socket} (hstop : Turn.stop ∉ s.turns) :
    recvFramesFromSocket s = ((frames.split s.left).1, ending (frames.split s.left).2) := by
  rw [recvFramesFromSocket, recvFramesLoop_eq frames_front_nil hstop, List.nil_append]

/-- `recv_frame` reads the frame at the front of the stream, and leaves the
    stream after it; where there is none, it waits for the end of the stream. -/
theorem recvFrame_eq (s : Socket) :
    ∃ turns, turns <:+ s.turns ∧ recvFrame s = match frameFront s.left with
    | .item x r => .ok (x, ⟨r, turns⟩)
    | .bad e => .error e
    | .more => .error (.connectionError "peer closed the connection") := by
  rw [recvFrame, frameFront]
  by_cases h4 : 4 ≤ s.left.length
  · obtain ⟨turns, hturns, hhead⟩ := recvExact_of_le h4
    simp only [hhead, if_pos h4]
    by_cases hmax : unpackBE (s.left.take 4) > maxFrameSize
    · exact ⟨[], List.nil_suffix, by simp [hmax, bind, Except.bind]⟩
    · by_cases hlen : s.left.length < 4 + unpackBE (s.left.take 4)
      -- The stream ends inside the frame.
      · have hshort := recvExact_of_lt (s := ⟨s.left.drop 4, turns⟩)
          (n := unpackBE (s.left.take 4)) (by simp only [List.length_drop]; omega)
        exact ⟨[], List.nil_suffix, by simp [hmax, hlen, hshort, bind, Except.bind]⟩
      · obtain ⟨turns', hturns', hbody⟩ := recvExact_of_le (s := ⟨s.left.drop 4, turns⟩)
          (n := unpackBE (s.left.take 4)) (by simp only [List.length_drop]; omega)
        exact ⟨turns', hturns'.trans hturns, by simp [hmax, hlen, hbody, bind, Except.bind]⟩
  · rw [recvExact_of_lt (not_le.1 h4)]
    exact ⟨[], List.nil_suffix, by simp [h4, bind, Except.bind]⟩

/-! ## Both readers on one stream -/

/-- Reading `k` frames with `recv_frame`: the frames, and the socket after
    them, or what the read that failed raised. -/
def recvFrames : ℕ → Socket → List Bytes × Except Exn Socket
  | 0, s => ([], .ok s)
  | k + 1, s =>
    match recvFrame s with
    | .ok (frame, s') => (frame :: (recvFrames k s').1, (recvFrames k s').2)
    | .error e => ([], .error e)

/-- Reading frames with `recv_frame` until it raises. -/
def recvFramesUntilRaise (s : Socket) : List Bytes × Except Exn Socket :=
  recvFrames (s.left.length + 1) s

/-- Reading the first `k` frames with `recv_frame` and the rest with
    `recv_frames_from_socket`. -/
def recvHandover (k : ℕ) (s : Socket) : List Bytes × Except Exn Unit :=
  match recvFrames k s with
  | (xs, .ok s') => (xs ++ (recvFramesFromSocket s').1, (recvFramesFromSocket s').2)
  | (xs, .error e) => (xs, .error e)

/-- The stream of the `send_frame` outputs of a list of payloads. -/
def sendFrames : List Bytes → Except Exn Bytes
  | [] => .ok []
  | p :: ps => do
    let frame ← sendFrame p
    let stream ← sendFrames ps
    .ok (frame ++ stream)

/-- The error the readers share: the length of a frame is over the limit. -/
def TooLarge {α : Type} (r : Except Exn α) : Prop := r = .error (.valueError "frame is too large")

theorem tooLarge_ending (r : Except Exn Bytes) : TooLarge (ending r) ↔ TooLarge r := by
  cases r <;> simp [ending, TooLarge]

/-- `recv_frame`, `k` times, reads the `k` first frames of the stream, and
    leaves the stream after them. -/
theorem recvFrames_ok {k : ℕ} {s s' : Socket} {xs : List Bytes}
    (h : recvFrames k s = (xs, .ok s')) :
    xs.length = k ∧ s'.turns <:+ s.turns ∧
      frames.split s.left = (xs ++ (frames.split s'.left).1, (frames.split s'.left).2) := by
  induction k generalizing s xs with
  | zero =>
    obtain ⟨rfl, rfl⟩ : [] = xs ∧ s = s' := by simpa [recvFrames] using h
    exact ⟨rfl, List.suffix_refl _, rfl⟩
  | succ k ih =>
    obtain ⟨turns, hturns, hread⟩ := recvFrame_eq s
    rw [recvFrames, hread] at h
    cases hf : frameFront s.left with
    | more => simp [hf] at h
    | bad e => simp [hf] at h
    | item x r =>
      simp only [hf, Prod.mk.injEq] at h
      obtain ⟨rfl, h⟩ := h
      obtain ⟨hlen, hturns', hsplit⟩ := ih (Prod.ext rfl h)
      refine ⟨by rw [List.length_cons, hlen], hturns'.trans hturns, ?_⟩
      rw [Splitter.split_of_item (S := frames) hf, hsplit]
      rfl

/-- Where `recv_frame` raises, all the frames have been read. -/
theorem recvFrames_error {k : ℕ} {s : Socket} {xs : List Bytes} {e : Exn}
    (h : recvFrames k s = (xs, .error e)) :
    xs.length < k ∧ (frames.split s.left).1 = xs ∧
      (e = .valueError "frame is too large" ↔ TooLarge (frames.split s.left).2) := by
  induction k generalizing s xs with
  | zero => simp [recvFrames] at h
  | succ k ih =>
    obtain ⟨turns, -, hread⟩ := recvFrame_eq s
    rw [recvFrames, hread] at h
    cases hf : frameFront s.left with
    | more =>
      obtain ⟨rfl, rfl⟩ : [] = xs ∧ _ = e := by simpa [hf] using h
      simp [Splitter.split_of_more (S := frames) hf, TooLarge]
    | bad e' =>
      obtain ⟨rfl, rfl⟩ : [] = xs ∧ e' = e := by simpa [hf] using h
      simp [Splitter.split_of_bad (S := frames) hf, TooLarge]
    | item x r =>
      simp only [hf, Prod.mk.injEq] at h
      obtain ⟨rfl, h⟩ := h
      obtain ⟨hlen, hxs, he⟩ := ih (Prod.ext rfl h)
      rw [Splitter.split_of_item (S := frames) hf]
      exact ⟨Nat.succ_lt_succ hlen, congrArg (x :: ·) hxs, he⟩

/-- The blocking reader delivers the frames of the stream, and finds the frame
    that is too large if there is one. -/
theorem recvFramesUntilRaise_eq (s : Socket) :
    (recvFramesUntilRaise s).1 = (frames.split s.left).1 ∧
      (TooLarge (recvFramesUntilRaise s).2 ↔ TooLarge (frames.split s.left).2) := by
  rw [recvFramesUntilRaise]
  rcases h : recvFrames (s.left.length + 1) s with ⟨xs, e | s'⟩
  · obtain ⟨-, hxs, he⟩ := recvFrames_error h
    exact ⟨hxs.symm, by rw [← he]; simp [TooLarge]⟩
  · -- There are not as many frames as bytes: the reads cannot all succeed.
    obtain ⟨hlen, -, hsplit⟩ := recvFrames_ok h
    have := Splitter.length_split_le (S := frames) s.left
    rw [hsplit, List.length_append] at this
    omega

/-- So do the two readers, one taking over from the other. -/
theorem recvHandover_eq (k : ℕ) {s : Socket} (hstop : Turn.stop ∉ s.turns) :
    (recvHandover k s).1 = (frames.split s.left).1 ∧
      (TooLarge (recvHandover k s).2 ↔ TooLarge (frames.split s.left).2) := by
  rw [recvHandover]
  rcases h : recvFrames k s with ⟨xs, e | s'⟩
  · obtain ⟨-, hxs, he⟩ := recvFrames_error h
    exact ⟨hxs.symm, by rw [← he]; simp [TooLarge]⟩
  · obtain ⟨-, hturns, hsplit⟩ := recvFrames_ok h
    have hstop' : Turn.stop ∉ s'.turns := fun hs => hstop (hturns.subset hs)
    rw [hsplit]
    simp only [recvFramesFromSocket_eq hstop', tooLarge_ending, and_self]

/-- The payloads sent, when `send_frame` takes them, are the frames of their
    stream. -/
theorem split_sendFrames {payloads : List Bytes} (h : ∀ p ∈ payloads, p.length ≤ maxFrameSize) :
    sendFrames payloads = .ok (payloads.flatMap fun p => packBE 4 p.length ++ p) ∧
      ∀ c, frames.split ((payloads.flatMap fun p => packBE 4 p.length ++ p) ++ c) =
        (payloads ++ (frames.split c).1, (frames.split c).2) := by
  refine ⟨?_, Splitter.split_flatMap fun p hp c => frameFront_frame (h p hp) c⟩
  induction payloads with
  | nil => rfl
  | cons p ps ih =>
    have hp := h p List.mem_cons_self
    rw [sendFrames, ih fun q hq => h q (List.mem_cons_of_mem _ hq), sendFrame, if_neg (not_lt.2 hp)]
    rfl

/-- The two readers are one decoder: the payloads sent are received, in order,
    whichever of their frames the incremental reader takes over at, and for
    every stream at all the frames delivered before its end, and whether a
    frame is found too large, depend neither on the way it arrives nor on the
    reader. -/
theorem readers_agree :
    (∀ (payloads : List Bytes) (k : ℕ) (turns : List Turn),
      (∀ p ∈ payloads, p.length ≤ maxFrameSize) → k ≤ payloads.length → Turn.stop ∉ turns →
      ∃ stream, sendFrames payloads = .ok stream ∧
        recvHandover k ⟨stream, turns⟩ = (payloads, .ok ())) ∧
    ∀ stream : Bytes, ∃ (delivered : List Bytes) (tooLarge : Prop), ∀ turns : List Turn,
      ((recvFramesUntilRaise ⟨stream, turns⟩).1 = delivered ∧
        (TooLarge (recvFramesUntilRaise ⟨stream, turns⟩).2 ↔ tooLarge)) ∧
      (Turn.stop ∉ turns →
        ((recvFramesFromSocket ⟨stream, turns⟩).1 = delivered ∧
          (TooLarge (recvFramesFromSocket ⟨stream, turns⟩).2 ↔ tooLarge)) ∧
        ∀ k, (recvHandover k ⟨stream, turns⟩).1 = delivered ∧
          (TooLarge (recvHandover k ⟨stream, turns⟩).2 ↔ tooLarge)) := by
  constructor
  · intro payloads k turns hp hk hstop
    obtain ⟨hsend, hsplit⟩ := split_sendFrames hp
    specialize hsplit []
    rw [List.append_nil, Splitter.split_of_more frames_front_nil, List.append_nil] at hsplit
    refine ⟨_, hsend, ?_⟩
    rw [recvHandover]
    generalize payloads.flatMap (fun p => packBE 4 p.length ++ p) = stream at hsplit
    rcases h : recvFrames k ⟨stream, turns⟩ with ⟨xs, e | s'⟩
    · -- The stream has the `k` frames that are read, so no read raises.
      obtain ⟨hlen, hxs, -⟩ := recvFrames_error h
      have hxs : payloads = xs := by rw [← hxs, hsplit]
      rw [← hxs] at hlen
      exact absurd hlen (not_lt.2 hk)
    · obtain ⟨-, hturns, hs'⟩ := recvFrames_ok h
      have hstop' : Turn.stop ∉ s'.turns := fun hs => hstop (hturns.subset hs)
      rw [hsplit, Prod.mk.injEq] at hs'
      simp only [recvFramesFromSocket_eq hstop', ← hs'.1, ← hs'.2, ending]
  · intro stream
    refine ⟨(frames.split stream).1, TooLarge (frames.split stream).2, fun turns => ?_⟩
    refine ⟨recvFramesUntilRaise_eq _, fun hstop => ⟨?_, fun k => recvHandover_eq k hstop⟩⟩
    rw [recvFramesFromSocket_eq hstop, tooLarge_ending]
    exact ⟨rfl, Iff.rfl⟩

/-- Two payloads, the second read by the incremental reader in pieces. -/
theorem readers_agree_pair : ∃ stream, sendFrames [[1, 2], [3]] = .ok stream ∧
    recvHandover 1 ⟨stream, [.arrive 0, .arrive 2, .quiet, .arrive 1]⟩ = ([[1, 2], [3]], .ok ()) :=
  readers_agree.1 _ 1 _ (by decide) (by decide) (by decide)

end SecNet
