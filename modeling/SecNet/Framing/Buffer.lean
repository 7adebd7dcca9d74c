import SecNet.Framing.Reader
import SecNet.Lib.Transition

/-!
# The reassembly buffer

`recv_frames_from_socket` taken one step at a time, with the buffer in sight:
the turns of its two loops, on whatever the socket answers (`reader`). The
frames it yields are those of the functional reader, whose runs are runs of
these steps (`run_recvFramesLoop`).

* `buffer_bounded`: the buffer is bounded, wherever the reader is, and the inner
  loop leaves no complete frame in it;
* `split_received_outer`: at the head of the outer loop, the frames of what has
  been received have been yielded, and the buffer is what is left of it, as when
  the chunks are fed to the splitter (`feed_received_outer`).
-/

namespace SecNet

/-- Where `recv_frames_from_socket` is. -/
inductive ReaderPoint
  /-- At `while not stop_event.is_set()`. -/
  | outer
  /-- At `while len(buffer) >= 4`. -/
  | inner
  /-- The generator has returned. -/
  | ended
  /-- The generator has raised. -/
  | raised (e : Exn)
  deriving DecidableEq

/-- The state of `recv_frames_from_socket`. -/
structure Reader where
  buffer : Bytes
  yielded : List Bytes
  point : ReaderPoint
  deriving DecidableEq

/-- A step of `recv_frames_from_socket`. -/
inductive ReaderStep
  /-- The stop event is found set. -/
  | stop
  /-- `recv` times out. -/
  | timeout
  /-- `recv` raises something else. -/
  | fail (e : Exn)
  /-- `recv` returns a chunk, which is empty at the end of the stream. -/
  | recv (chunk : Bytes)
  /-- A turn of the inner loop. -/
  | turn
  deriving DecidableEq

namespace Reader

/-- The reader on entry. -/
def start : Reader := ⟨[], [], .outer⟩

/-- A turn of the inner loop: it ends, raises, or yields a frame. -/
def innerTurn (r : Reader) : Reader :=
  if 4 ≤ r.buffer.length then
    let length := unpackBE (r.buffer.take 4)
    if length > maxFrameSize then { r with point := .raised (.valueError "frame is too large") }
    -- `break`
    else if r.buffer.length < 4 + length then { r with point := .outer }
    else
      let frame := (r.buffer.drop 4).take length
      { r with buffer := r.buffer.drop (4 + length), yielded := r.yielded ++ [frame] }
  else { r with point := .outer }

/-- `recv_frames_from_socket`, one step at a time. -/
def step (r : Reader) : ReaderStep → Option Reader
  | .stop => if r.point = .outer then some { r with point := .ended } else none
  -- `except socket.timeout: continue`
  | .timeout => if r.point = .outer then some r else none
  | .fail e => if r.point = .outer then some { r with point := .raised e } else none
  | .recv chunk =>
    if r.point = .outer ∧ chunk.length ≤ 4096 then
      if chunk = [] then some { r with point := .ended }
      else some { r with buffer := r.buffer ++ chunk, point := .inner }
    else none
  | .turn => if r.point = .inner then some r.innerTurn else none

/-- The runs of `recv_frames_from_socket`. -/
def reader : System Reader ReaderStep := .ofPartial (· = start) step

/-- What the socket has handed over. -/
def received (steps : List ReaderStep) : Bytes :=
  steps.flatMap fun
    | .recv chunk => chunk
    | _ => []

/-! ## The steps -/

/-- A turn of the inner loop looks at the front of the buffer. -/
theorem innerTurn_eq (r : Reader) : r.innerTurn = match frameFront r.buffer with
    | .more => { r with point := .outer }
    | .item x rest => { r with buffer := rest, yielded := r.yielded ++ [x] }
    | .bad e => { r with point := .raised e } := by
  rw [innerTurn, frameFront]
  simp only
  split_ifs <;> rfl

/-- What a step does: at the head of the outer loop it leaves it or stays there
    with the buffer it has, or adds a chunk to it; a turn of the inner loop
    comes from inside it. -/
theorem step_cases {r r' : Reader} {s : ReaderStep} (h : r.step s = some r') :
    (r.point = .outer ∧ received [s] = [] ∧ r'.buffer = r.buffer ∧ r'.yielded = r.yielded ∧
      r'.point ≠ .inner) ∨
    (∃ chunk, r.point = .outer ∧ s = .recv chunk ∧ chunk.length ≤ 4096 ∧
      r' = { r with buffer := r.buffer ++ chunk, point := .inner }) ∨
    (r.point = .inner ∧ s = .turn ∧ r' = r.innerTurn) := by
  cases s with
  | stop =>
    obtain ⟨hr, rfl⟩ : r.point = .outer ∧ _ = r' := by simpa [step] using h
    exact .inl ⟨hr, rfl, rfl, rfl, by simp⟩
  | timeout =>
    obtain ⟨hr, rfl⟩ : r.point = .outer ∧ _ = r' := by simpa [step] using h
    exact .inl ⟨hr, rfl, rfl, rfl, by simp [hr]⟩
  | fail e =>
    obtain ⟨hr, rfl⟩ : r.point = .outer ∧ _ = r' := by simpa [step] using h
    exact .inl ⟨hr, rfl, rfl, rfl, by simp⟩
  | recv chunk =>
    rw [step] at h
    split_ifs at h with hr hchunk
    · obtain rfl := Option.some.inj h
      exact .inl ⟨hr.1, by simp [received, hchunk], rfl, rfl, by simp⟩
    · exact .inr (.inl ⟨chunk, hr.1, rfl, hr.2, (Option.some.inj h).symm⟩)
  | turn =>
    obtain ⟨hr, rfl⟩ : r.point = .inner ∧ _ = r' := by simpa [step] using h
    exact .inr (.inr ⟨hr, rfl, rfl⟩)

theorem received_snoc (steps : List ReaderStep) (s : ReaderStep) :
    received (steps ++ [s]) = received steps ++ received [s] :=
  List.flatMap_append

/-! ## The buffer is bounded -/

/-- A buffer with no complete frame at its front is short. -/
theorem length_of_frameFront_more {b : Bytes} (h : frameFront b = .more) :
    b.length < 4 + maxFrameSize := by
  rw [frameFront] at h
  split_ifs at h with h4
  · simp only at h
    split_ifs at h with hmax hlen
    omega
  · omega

/-- A buffer with no frame at its front does not start with a frame, of any length. -/
theorem ne_frame_of_frameFront_more {b : Bytes} (h : frameFront b = .more) (p rest : Bytes) :
    b ≠ packBE 4 p.length ++ p ++ rest := by
  rintro rfl
  have hlen := length_of_frameFront_more h
  simp only [List.length_append, length_packBE] at hlen
  rw [frameFront_frame (by omega)] at h
  simp at h

/-- The invariant of the two loops: the buffer is bounded, and the inner loop
    leaves no complete frame in it. -/
structure Bounded (r : Reader) : Prop where
  length_lt : r.buffer.length < 4 + maxFrameSize + 4096
  front_outer : r.point = .outer → frameFront r.buffer = .more

theorem Bounded.start : start.Bounded where
  length_lt := by simp [Reader.start]
  front_outer _ := frames_front_nil

/-- A turn of the inner loop leaves the buffer as it is or takes a frame off it,
    and ends the loop only where there is none to take. -/
theorem Bounded.innerTurn {r : Reader} (hr : r.Bounded) (hinner : r.point = .inner) :
    r.innerTurn.Bounded := by
  rw [innerTurn_eq]
  cases hfront : frameFront r.buffer with
  | more => exact ⟨hr.length_lt, fun _ => hfront⟩
  | item x rest =>
    have hlt : rest.length < r.buffer.length := frames.length_lt hfront
    exact ⟨hlt.trans hr.length_lt, fun h => by simp [hinner] at h⟩
  | bad e => exact ⟨hr.length_lt, fun h => by simp at h⟩

theorem Bounded.step {r r' : Reader} {s : ReaderStep} (hr : r.Bounded)
    (h : r.step s = some r') : r'.Bounded := by
  obtain ⟨hr₀, -, hb, -, -⟩ | ⟨chunk, hr₀, -, hchunk, rfl⟩ | ⟨hr₀, -, rfl⟩ := step_cases h
  · exact ⟨hb ▸ hr.length_lt, fun _ => hb ▸ hr.front_outer hr₀⟩
  · -- What the inner loop has left, and one chunk.
    refine ⟨?_, fun h => by simp at h⟩
    have := length_of_frameFront_more (hr.front_outer hr₀)
    rw [List.length_append]
    omega
  · exact hr.innerTurn hr₀

/-- The invariant holds along every run. -/
theorem bounded_of_run {steps : List ReaderStep} {r : Reader}
    (h : reader.Run start steps r) : r.Bounded :=
  h.invariant (fun _ _ _ hr hs => hr.step hs) .start

/-! ## What has been received -/

/-- The frames of what has been received are the ones yielded, and then those
    of the buffer. -/
theorem split_received {steps : List ReaderStep} {r : Reader} (h : reader.Run start steps r) :
    frames.split (received steps) =
      (r.yielded ++ (frames.split r.buffer).1, (frames.split r.buffer).2) := by
  induction h with
  | nil => rfl
  | @snoc r r' steps s hrun hstep ih =>
    obtain ⟨-, hrec, hb, hy, -⟩ | ⟨chunk, hr, rfl, -, rfl⟩ | ⟨-, rfl, rfl⟩ := step_cases hstep
    · rw [received_snoc, hrec, List.append_nil, hb, hy]
      exact ih
    · -- The buffer was left without a complete frame, and the chunk comes after it.
      have hmore : frames.front r.buffer = .more := (bounded_of_run hrun).front_outer hr
      rw [Splitter.split_of_more hmore, List.append_nil] at ih
      rw [received_snoc, Splitter.split_append, ih]
      simp [received]
    · rw [received_snoc, show received [.turn] = [] from rfl, List.append_nil, ih, innerTurn_eq]
      cases hfront : frameFront r.buffer with
      | more => rfl
      | item x rest => simp [Splitter.split_of_item (S := frames) hfront]
      | bad e => rfl

/-- When the inner loop has ended, all the frames that what has been received
    completes have been yielded, and the buffer is what is left of it. -/
theorem split_received_outer {steps : List ReaderStep} {r : Reader}
    (h : reader.Run start steps r) (hr : r.point = .outer) :
    frames.split (received steps) = (r.yielded, .ok r.buffer) := by
  rw [split_received h, Splitter.split_of_more (S := frames) ((bounded_of_run h).front_outer hr),
    List.append_nil]

/-- They are the frames of the chunks that are fed to the splitter one by one. -/
theorem feed_received_outer {steps : List ReaderStep} {r : Reader}
    (h : reader.Run start steps r) (hr : r.point = .outer) :
    frames.feed [] (steps.map fun s => received [s]) = (r.yielded, .ok r.buffer) := by
  have hreceived : (steps.map fun s => received [s]).flatten = received steps := by
    simp [received, List.flatMap_def]
  rw [Splitter.feed_eq_split frames_front_nil, List.nil_append, hreceived]
  exact split_received_outer h hr

/-- Wherever `recv_frames_from_socket` is, its buffer holds fewer than
    `4 + MAX_FRAME_SIZE + 4096` bytes; at the head of the outer loop, where the
    inner loop leaves it, it holds fewer than `4 + MAX_FRAME_SIZE` and does not
    start with a complete frame. -/
theorem buffer_bounded {steps : List ReaderStep} {r : Reader}
    (h : reader.Run start steps r) :
    r.buffer.length < 4 + maxFrameSize + 4096 ∧
      (r.point = .outer → r.buffer.length < 4 + maxFrameSize ∧
        ∀ p rest, r.buffer ≠ packBE 4 p.length ++ p ++ rest) := by
  have hr := bounded_of_run h
  refine ⟨hr.length_lt, fun houter => ?_⟩
  have hfront := hr.front_outer houter
  exact ⟨length_of_frameFront_more hfront, ne_frame_of_frameFront_more hfront⟩

/-- After a frame of one byte and the first byte of the next one, that byte is
    what the inner loop leaves. -/
theorem buffer_bounded_two_frames :
    reader.Run start [.recv [0, 0, 0, 1, 7, 0], .turn, .turn] ⟨[0], [[7]], .outer⟩ ∧
      ([0] : Bytes).length < 4 + maxFrameSize ∧
      ∀ p rest, ([0] : Bytes) ≠ packBE 4 p.length ++ p ++ rest := by
  have h : reader.Run start [.recv [0, 0, 0, 1, 7, 0], .turn, .turn] ⟨[0], [[7]], .outer⟩ :=
    .of_foldlM (by decide)
  exact ⟨h, (buffer_bounded h).2 rfl⟩

/-! ## The functional reader -/

/-- The inner loop is a run of its turns. -/
theorem run_drain (b : Bytes) (ys : List Bytes) :
    ∃ steps r, reader.Run ⟨b, ys, .inner⟩ steps r ∧ r.yielded = ys ++ (drain b).1 ∧
      (∀ b', (drain b).2 = .ok b' → r.buffer = b' ∧ r.point = .outer) ∧
      ∀ e, (drain b).2 = .error e → r.point = .raised e := by
  induction b using Splitter.split.induct frames generalizing ys with
  | case1 b hb =>
    have hturn : innerTurn ⟨b, ys, .inner⟩ = ⟨b, ys, .outer⟩ := by
      rw [innerTurn_eq, show frameFront b = .more from hb]
    refine ⟨[.turn], _, .snoc (.nil _) (congrArg some hturn), ?_⟩
    simp [drain_eq, show frameFront b = .more from hb]
  | case2 b x rest hb _ ih =>
    have hturn : innerTurn ⟨b, ys, .inner⟩ = ⟨rest, ys ++ [x], .inner⟩ := by
      rw [innerTurn_eq, show frameFront b = .item x rest from hb]
    obtain ⟨steps, r, hrun, hr⟩ := ih (ys ++ [x])
    refine ⟨.turn :: steps, r, .cons (congrArg some hturn) hrun, ?_⟩
    rw [drain_eq, show frameFront b = .item x rest from hb]
    simpa using hr
  | case3 b e hb =>
    have hturn : innerTurn ⟨b, ys, .inner⟩ = ⟨b, ys, .raised e⟩ := by
      rw [innerTurn_eq, show frameFront b = .bad e from hb]
    refine ⟨[.turn], _, .snoc (.nil _) (congrArg some hturn), ?_⟩
    simp [drain_eq, show frameFront b = .bad e from hb]

theorem step_recv {buffer chunk : Bytes} {ys : List Bytes} (hne : chunk ≠ [])
    (hlen : chunk.length ≤ 4096) :
    step ⟨buffer, ys, .outer⟩ (.recv chunk) = some ⟨buffer ++ chunk, ys, .inner⟩ := by
  rw [step, if_pos ⟨rfl, hlen⟩, if_neg hne]

/-- Where the generator is when it has come to an end. -/
def endPoint : Except Exn Unit → ReaderPoint
  | .ok () => .ended
  | .error e => .raised e

/-- The functional reader is a run of these steps, for every way the stream arrives. -/
theorem run_recvFramesLoop (buffer left : Bytes) (turns : List Turn) (ys : List Bytes) :
    ∃ steps r, reader.Run ⟨buffer, ys, .outer⟩ steps r ∧
      r.yielded = ys ++ (recvFramesLoop buffer left turns).1 ∧
      r.point = endPoint (recvFramesLoop buffer left turns).2 := by
  induction buffer, left, turns using recvFramesLoop.induct generalizing ys with
  | case1 buffer left turns turns' h =>
    rw [recvFramesLoop, h]
    exact ⟨[.stop], _, .snoc (.nil _) rfl, (List.append_nil _).symm, rfl⟩
  | case2 buffer left turns turns' h ih =>
    obtain ⟨steps, r, hrun, hr⟩ := ih ys
    rw [recvFramesLoop, h]
    exact ⟨.timeout :: steps, r, .cons rfl hrun, hr⟩
  | case3 buffer left turns k turns' h chunk hchunk =>
    rw [recvFramesLoop, h]
    simp only
    rw [if_pos hchunk]
    exact ⟨[.recv []], _, .snoc (.nil _) rfl, (List.append_nil _).symm, rfl⟩
  | case4 buffer left turns k turns' h chunk hchunk xs e hdrain =>
    have hlen : chunk.length ≤ 4096 := (List.length_take_le _ _).trans (min_le_left _ _)
    obtain ⟨steps, r, hrun, hy, -, herr⟩ := run_drain (buffer ++ chunk) ys
    rw [hdrain] at hy herr
    refine ⟨.recv chunk :: steps, r, .cons (step_recv hchunk hlen) hrun, ?_⟩
    rw [recvFramesLoop, h]
    simp only [chunk] at hchunk hdrain
    simp only [if_neg hchunk, hdrain]
    exact ⟨hy, herr e rfl⟩
  | case5 buffer left turns k turns' h chunk hchunk xs buffer' hdrain ih =>
    have hlen : chunk.length ≤ 4096 := (List.length_take_le _ _).trans (min_le_left _ _)
    obtain ⟨steps, ⟨b, zs, pt⟩, hrun, hy, hok, -⟩ := run_drain (buffer ++ chunk) ys
    rw [hdrain] at hy hok
    -- The inner loop has come back to the outer one, which goes on from there.
    obtain ⟨rfl, rfl⟩ := hok buffer' rfl
    obtain rfl : zs = ys ++ xs := hy
    obtain ⟨steps', r, hrun', hy', hpt⟩ := ih (ys ++ xs)
    refine ⟨.recv chunk :: (steps ++ steps'), r,
      .cons (step_recv hchunk hlen) (hrun.append hrun'), ?_⟩
    rw [recvFramesLoop, h]
    simp only [chunk] at hchunk hdrain
    simp only [if_neg hchunk, hdrain]
    exact ⟨by rw [hy', List.append_assoc], hpt⟩

end Reader

end SecNet
