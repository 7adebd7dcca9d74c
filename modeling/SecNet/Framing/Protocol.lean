import SecNet.Exn
import SecNet.Lib.Bytes

/-!
# Length-prefixed frames

The wire protocol of `protocol.py`: a frame is a payload after its length, on
four bytes in network order. `sendFrame` gives the bytes handed to `sendall`,
and `recvFrame` reads one frame back from a blocking socket, asking for exactly
the bytes of the header and then of the payload.

A receiving socket is the bytes the peer has written and that are still to be
read, with the turns the network will take: how many bytes a `recv` finds, or
that it finds none before the timeout of the socket, or that another thread
sets the stop event of its reader. When the turns are used up, as much arrives
as is asked for, and when nothing is left the peer has closed the connection:
`recv` returns no byte.
-/

namespace SecNet

/-- The largest payload of a frame. -/
def maxFrameSize : ℕ := 4 * 1024 * 1024

/-- A turn of the network on a receiving socket. -/
inductive Turn
  /-- At most `k + 1` bytes arrive. -/
  | arrive (k : ℕ)
  /-- Nothing arrives before the timeout, if the socket has one. -/
  | quiet
  /-- The stop event of the reader is set. -/
  | stop
  deriving DecidableEq, Repr

/-- A receiving socket: the bytes still to be read, and the turns to come. -/
structure Socket where
  left : Bytes
  turns : List Turn

/-- The next turn, and the turns after it. -/
def nextTurn : List Turn → Turn × List Turn
  | [] => (.arrive maxFrameSize, [])
  | turn :: turns => (turn, turns)

/-- The size of the next arrival, and the turns after it. -/
def nextArrival : List Turn → ℕ × List Turn
  | [] => (maxFrameSize + 1, [])
  | .arrive k :: turns => (k + 1, turns)
  | _ :: turns => nextArrival turns

theorem nextArrival_pos (turns : List Turn) : 0 < (nextArrival turns).1 := by
  induction turns with
  | nil => exact Nat.succ_pos _
  | cons turn turns ih => cases turn <;> first | exact Nat.succ_pos _ | exact ih

theorem nextArrival_suffix (turns : List Turn) : (nextArrival turns).2 <:+ turns := by
  induction turns with
  | nil => exact List.suffix_refl _
  | cons turn turns ih =>
    cases turn with
    | arrive k => exact List.suffix_cons _ _
    | quiet => exact ih.trans (List.suffix_cons _ _)
    | stop => exact ih.trans (List.suffix_cons _ _)

/-- `sock.recv(size)` on a socket without timeout: it waits for a turn that
    brings bytes. -/
def Socket.recv (size : ℕ) (s : Socket) : Bytes × Socket :=
  let n := min size (nextArrival s.turns).1
  (s.left.take n, ⟨s.left.drop n, (nextArrival s.turns).2⟩)

/-- A `recv` returns the next bytes of the stream, at most as many as it is
    asked for, and at least one unless the stream has ended. -/
theorem Socket.recv_spec (size : ℕ) (s : Socket) :
    (s.recv size).1 ++ (s.recv size).2.left = s.left ∧ (s.recv size).1.length ≤ size ∧
      (0 < size → (s.recv size).1 = [] → s.left = []) := by
  refine ⟨List.take_append_drop _ _, ?_, fun hs h => ?_⟩
  · exact le_trans (List.length_take_le _ _) (min_le_left _ _)
  · have := nextArrival_pos s.turns
    exact (List.take_eq_nil_iff.1 h).resolve_left (by omega)

/-- `recv_exact`: as many calls of `recv` as it takes to read `remaining` bytes. -/
def recvExact (remaining : ℕ) (s : Socket) : Except Exn (Bytes × Socket) :=
  if remaining = 0 then .ok ([], s)
  else
    let chunk := (s.recv remaining).1
    if chunk = [] then .error (.connectionError "peer closed the connection")
    else do
      let (rest, s') ← recvExact (remaining - chunk.length) (s.recv remaining).2
      .ok (chunk ++ rest, s')
termination_by remaining
decreasing_by
  rename_i h0 hc
  exact Nat.sub_lt (Nat.pos_of_ne_zero h0) (List.length_pos_iff.2 hc)

/-- `send_frame`: the bytes of a frame, as given to `sendall`. -/
def sendFrame (data : Bytes) : Except Exn Bytes :=
  if data.length > maxFrameSize then .error (.valueError "frame is too large")
  else .ok (packBE 4 data.length ++ data)

/-- `recv_frame`: the payload of the next frame. -/
def recvFrame (s : Socket) : Except Exn (Bytes × Socket) := do
  let (header, s) ← recvExact 4 s
  let length := unpackBE header
  if length > maxFrameSize then .error (.valueError "frame is too large")
  else recvExact length s

/-! ## What the reads do to the stream -/

/-- A read of as many bytes as are left, or fewer, takes them from the stream,
    whatever the turns of the network. -/
theorem recvExact_of_le {n : ℕ} {s : Socket} (h : n ≤ s.left.length) :
    ∃ turns, turns <:+ s.turns ∧
      recvExact n s = .ok (s.left.take n, ⟨s.left.drop n, turns⟩) := by
  induction n, s using recvExact.induct with
  | case1 s => exact ⟨s.turns, List.suffix_refl _, by rw [recvExact]; simp⟩
  | case2 n s hn chunk hchunk =>
    obtain ⟨-, -, hend⟩ := s.recv_spec n
    rw [hend (Nat.pos_of_ne_zero hn) hchunk] at h
    exact absurd (Nat.le_zero.1 h) hn
  | case3 n s hn chunk hchunk ih =>
    obtain ⟨happ, hle, -⟩ := s.recv_spec n
    have hlen : s.left.length = chunk.length + (s.recv n).2.left.length := by
      rw [← happ, List.length_append]
    obtain ⟨turns, hturns, ih⟩ := ih (by omega)
    refine ⟨turns, hturns.trans (nextArrival_suffix _), ?_⟩
    rw [recvExact, if_neg hn]
    simp only [chunk] at hchunk ih hlen
    rw [if_neg hchunk, ih, ← happ, List.take_append, List.drop_append,
      List.take_of_length_le hle, List.drop_of_length_le hle]
    rfl

/-- A read of more bytes than are left finds the connection closed. -/
theorem recvExact_of_lt {n : ℕ} {s : Socket} (h : s.left.length < n) :
    recvExact n s = .error (.connectionError "peer closed the connection") := by
  induction n, s using recvExact.induct with
  | case1 s => exact absurd h (Nat.not_lt_zero _)
  | case2 n s hn chunk hchunk => rw [recvExact, if_neg hn, if_pos hchunk]
  | case3 n s hn chunk hchunk ih =>
    obtain ⟨happ, hle, -⟩ := s.recv_spec n
    have hlen : s.left.length = chunk.length + (s.recv n).2.left.length := by
      rw [← happ, List.length_append]
    rw [recvExact, if_neg hn]
    simp only [chunk] at hchunk ih hlen hle
    rw [if_neg hchunk, ih (by omega)]
    rfl

end SecNet
