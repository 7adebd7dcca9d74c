import SecNet.Lib.Splitter
import SecNet.Lib.Transition

/-!
# Two processes on a connection

A *process* sends and receives on a connection, and returns or raises. What it
sends is a list of `α`, and it receives the items that a splitter finds in what
has been sent to it. Two processes at the ends of one connection (`Duplex`) take
their steps in any order; one that receives waits for a complete item.

* `Duplex.commutes`: the steps of the two ends do not get in each other's way,
  so that by `Run.completesAt` one complete run is as good as any;
* `Process.Trace`: the runs of one process, by what it receives and sends;
* `run_trace_left`, `run_trace_right`: the ends of the connection follow them;
* `completesAt_of_dialogue`: hence a dialogue comes to its end.
-/

namespace SecNet

variable {α ι ε R R' : Type}

/-- A process: it has returned or raised, or it sends or receives next. -/
inductive Process (α ι ε R : Type)
  | ret (r : R)
  | raise (e : ε)
  | send (b : List α) (next : Process α ι ε R)
  | recv (next : ι → Process α ι ε R)

namespace Process

/-- A process, and then another with what it returns. -/
def bind : Process α ι ε R → (R → Process α ι ε R') → Process α ι ε R'
  | .ret r, f => f r
  | .raise e, _ => .raise e
  | .send b p, f => .send b (bind p f)
  | .recv k, f => .recv fun x => bind (k x) f

instance : Monad (Process α ι ε) where
  pure := .ret
  bind := bind

/-- A computation that does not use the connection. -/
def lift : Except ε R → Process α ι ε R
  | .ok r => .ret r
  | .error e => .raise e

instance : MonadLift (Except ε) (Process α ι ε) where
  monadLift := lift

/-- Sending a computed list. -/
def sendAll (b : List α) : Process α ι ε Unit := .send b (.ret ())

/-- Receiving an item. -/
def recvItem : Process α ι ε ι := .recv .ret

@[simp]
theorem ret_bind (r : R) (f : R → Process α ι ε R') : (Process.ret r >>= f) = f r := rfl

@[simp]
theorem pure_bind (r : R) (f : R → Process α ι ε R') :
    ((pure r : Process α ι ε R) >>= f) = f r := rfl

@[simp]
theorem raise_bind (e : ε) (f : R → Process α ι ε R') :
    ((Process.raise e : Process α ι ε R) >>= f) = .raise e := rfl

@[simp]
theorem send_bind (b : List α) (p : Process α ι ε R) (f : R → Process α ι ε R') :
    (Process.send b p >>= f) = .send b (p >>= f) := rfl

@[simp]
theorem sendAll_bind (b : List α) (f : Unit → Process α ι ε R') :
    (sendAll b >>= f) = .send b (f ()) := rfl

@[simp]
theorem recvItem_bind (f : ι → Process α ι ε R') : (recvItem >>= f) = .recv f := rfl

@[simp]
theorem lift_ok (r : R) : (lift (.ok r) : Process α ι ε R) = .ret r := rfl

@[simp]
theorem lift_error (e : ε) : (lift (.error e) : Process α ι ε R) = .raise e := rfl

/-- Three processes, one after the other. -/
theorem bind_assoc {R'' : Type} (p : Process α ι ε R) (f : R → Process α ι ε R')
    (g : R' → Process α ι ε R'') : (p >>= f) >>= g = p >>= fun r => f r >>= g := by
  induction p with
  | ret r => rfl
  | raise e => rfl
  | send b p ih => exact congrArg (Process.send b) ih
  | recv k ih => exact congrArg Process.recv (funext ih)

/-- Two computations, one after the other. -/
theorem lift_bind (x : Except ε R) (f : R → Except ε R') :
    (lift (x >>= f) : Process α ι ε R') = lift x >>= fun r => lift (f r) := by
  cases x <;> rfl

/-- The runs of a process: the items it receives, what it sends, and the process
    it becomes. -/
inductive Trace : Process α ι ε R → List ι → List (List α) → Process α ι ε R → Prop
  | nil (p : Process α ι ε R) : Trace p [] [] p
  | send {b : List α} {p p' : Process α ι ε R} {xs : List ι} {ys : List (List α)} :
    Trace p xs ys p' → Trace (.send b p) xs (b :: ys) p'
  | recv {k : ι → Process α ι ε R} {p' : Process α ι ε R} {x : ι} {xs : List ι}
    {ys : List (List α)} : Trace (k x) xs ys p' → Trace (.recv k) (x :: xs) ys p'

/-- A run, and then another. -/
theorem Trace.append {p p' p'' : Process α ι ε R} {xs xs' : List ι} {ys ys' : List (List α)}
    (h : Trace p xs ys p') (h' : Trace p' xs' ys' p'') :
    Trace p (xs ++ xs') (ys ++ ys') p'' := by
  induction h with
  | nil => exact h'
  | send _ ih => exact .send (ih h')
  | recv _ ih => exact .recv (ih h')

/-- A run of the first of two processes, one after the other. -/
theorem Trace.bind {p p' : Process α ι ε R'} {xs : List ι} {ys : List (List α)}
    (h : Trace p xs ys p') (f : R' → Process α ι ε R) : Trace (p >>= f) xs ys (p' >>= f) := by
  induction h with
  | nil p => exact .nil _
  | send _ ih => exact .send ih
  | recv _ ih => exact .recv ih

/-- A process has raised. -/
def Raised (p : Process α ι ε R) : Prop := ∃ e, p = .raise e

/-- A process that has raised does nothing more. -/
theorem Trace.of_raise {e : ε} {p : Process α ι ε R} {xs : List ι} {ys : List (List α)}
    (h : Trace (.raise e) xs ys p) : xs = [] ∧ ys = [] ∧ Raised p := by
  cases h
  exact ⟨rfl, rfl, e, rfl⟩

/-- A run that goes on, or does not end by raising, gets through a computation. -/
theorem Trace.of_lift {x : Except ε R'} {f : R' → Process α ι ε R} {p : Process α ι ε R}
    {xs : List ι} {ys : List (List α)} (h : Trace (lift x >>= f) xs ys p)
    (hp : xs = [] → ys = [] → ¬ Raised p) : ∃ r, x = .ok r ∧ Trace (f r) xs ys p := by
  cases x with
  | ok r => exact ⟨r, rfl, h⟩
  | error e =>
    obtain ⟨hxs, hys, hraised⟩ := h.of_raise
    exact absurd hraised (hp hxs hys)

/-- A run that receives something has sent what comes first. -/
theorem Trace.of_send {b : List α} {p p' : Process α ι ε R} {x : ι} {xs : List ι}
    {ys : List (List α)} (h : Trace (.send b p) (x :: xs) ys p') :
    ∃ ys', ys = b :: ys' ∧ Trace p (x :: xs) ys' p' := by
  cases h with
  | send h => exact ⟨_, rfl, h⟩

/-- What is sent first. -/
theorem Trace.of_send_cons {b b' : List α} {p p' : Process α ι ε R} {xs : List ι}
    {ys : List (List α)} (h : Trace (.send b p) xs (b' :: ys) p') : b' = b ∧ Trace p xs ys p' := by
  cases h with
  | send h => exact ⟨rfl, h⟩

theorem Trace.of_recv {k : ι → Process α ι ε R} {p : Process α ι ε R} {x : ι} {xs : List ι}
    {ys : List (List α)} (h : Trace (.recv k) (x :: xs) ys p) : Trace (k x) xs ys p := by
  cases h with
  | recv h => exact h

theorem not_raised_ret (r : R) : ¬ Raised (.ret r : Process α ι ε R) := by
  rintro ⟨e, h⟩
  cases h

/-- A run that returns receives what it waits for. -/
theorem Trace.of_recv_ret {k : ι → Process α ι ε R} {r : R} {xs : List ι} {ys : List (List α)}
    (h : Trace (.recv k) xs ys (.ret r)) :
    ∃ x xs', xs = x :: xs' ∧ Trace (k x) xs' ys (.ret r) := by
  cases h with
  | recv h => exact ⟨_, _, rfl, h⟩

/-- A run that returns sends what comes first. -/
theorem Trace.of_send_ret {b : List α} {p : Process α ι ε R} {r : R} {xs : List ι}
    {ys : List (List α)} (h : Trace (.send b p) xs ys (.ret r)) :
    ∃ ys', ys = b :: ys' ∧ Trace p xs ys' (.ret r) := by
  cases h with
  | send h => exact ⟨_, rfl, h⟩

/-- A process that has returned does nothing more. -/
theorem Trace.of_ret {r r' : R} {xs : List ι} {ys : List (List α)}
    (h : Trace (.ret r : Process α ι ε R) xs ys (.ret r')) : xs = [] ∧ ys = [] ∧ r = r' := by
  cases h
  exact ⟨rfl, rfl, rfl⟩

/-- All that a process may send is of one kind. -/
inductive Sends (P : List α → Prop) : Process α ι ε R → Prop
  | ret (r : R) : Sends P (.ret r)
  | raise (e : ε) : Sends P (.raise e)
  | send {b : List α} {p : Process α ι ε R} : P b → Sends P p → Sends P (.send b p)
  | recv {k : ι → Process α ι ε R} : (∀ x, Sends P (k x)) → Sends P (.recv k)

theorem Sends.bind {P : List α → Prop} {p : Process α ι ε R'} (hp : Sends P p)
    {f : R' → Process α ι ε R} (hf : ∀ r, Sends P (f r)) : Sends P (p >>= f) := by
  induction hp with
  | ret r => exact hf r
  | raise e => exact .raise e
  | send hb _ ih => exact .send hb ih
  | recv _ ih => exact .recv ih

theorem Sends.lift {P : List α → Prop} {x : Except ε R'} {f : R' → Process α ι ε R}
    (hf : ∀ r, x = .ok r → Sends P (f r)) : Sends P (lift x >>= f) := by
  cases x with
  | ok r => exact hf r rfl
  | error e => exact .raise e

/-- So is all that it sends in a run. -/
theorem Sends.of_mem {P : List α → Prop} {p p' : Process α ι ε R} {xs : List ι}
    {ys : List (List α)} (hp : Sends P p) (h : Trace p xs ys p') : ∀ y ∈ ys, P y := by
  induction h with
  | nil => exact nofun
  | send _ ih =>
    cases hp with
    | send hb hp =>
      rintro y (_ | ⟨_, hy⟩)
      · exact hb
      · exact ih hp y hy
  | recv _ ih =>
    cases hp with
    | recv hp => exact ih (hp _)

variable (S : Splitter α ι ε)

/-- A step of a process, on what has been sent to it: the process it becomes,
    what is left, and what it sends. -/
def act : Process α ι ε R → List α → Option (Process α ι ε R × List α × List α)
  | .send b p, inbox => some (p, inbox, b)
  | .recv k, inbox =>
    match S.front inbox with
    | .more => none
    | .item x rest => some (k x, rest, [])
    | .bad e => some (.raise e, inbox, [])
  | _, _ => none

variable {S}

/-- What is sent to a process later does not change its step. -/
theorem act_append {p p' : Process α ι ε R} {inbox inbox' out : List α}
    (h : p.act S inbox = some (p', inbox', out)) (c : List α) :
    p.act S (inbox ++ c) = some (p', inbox' ++ c, out) := by
  cases p with
  | ret r => cases h
  | raise e => cases h
  | send b p =>
    simp only [act, Option.some.injEq, Prod.mk.injEq] at h ⊢
    obtain ⟨rfl, rfl, rfl⟩ := h
    exact ⟨rfl, rfl, rfl⟩
  | recv k =>
    rcases hf : S.front inbox with _ | ⟨x, rest⟩ | e
    · simp [act, hf] at h
    · simp only [act, hf, S.item_append c hf, Option.some.injEq, Prod.mk.injEq] at h ⊢
      obtain ⟨rfl, rfl, rfl⟩ := h
      exact ⟨rfl, rfl, rfl⟩
    · simp only [act, hf, S.bad_append c hf, Option.some.injEq, Prod.mk.injEq] at h ⊢
      obtain ⟨rfl, rfl, rfl⟩ := h
      exact ⟨rfl, rfl, rfl⟩

/-- A step of a process is a part of a run, on items that were sent to it, if it does not
    raise. -/
theorem trace_of_act {encode : ι → List α}
    (hfront : ∀ {b c : List α} {x : ι}, S.front b = .item x c → b = encode x ++ c)
    {p p' : Process α ι ε R} {inbox inbox' out : List α}
    (h : p.act S inbox = some (p', inbox', out)) :
    Raised p' ∨ ∃ xs ys, p.Trace xs ys p' ∧ inbox = xs.flatMap encode ++ inbox' := by
  cases p with
  | ret r => cases h
  | raise e => cases h
  | send b p =>
    simp only [act, Option.some.injEq, Prod.mk.injEq] at h
    obtain ⟨rfl, rfl, rfl⟩ := h
    exact .inr ⟨[], [b], .send (.nil p), rfl⟩
  | recv k =>
    rcases hf : S.front inbox with _ | ⟨x, rest⟩ | e
    · simp [act, hf] at h
    · simp only [act, hf, Option.some.injEq, Prod.mk.injEq] at h
      obtain ⟨rfl, rfl, rfl⟩ := h
      refine .inr ⟨[x], [], .recv (.nil _), ?_⟩
      rw [List.flatMap_singleton]
      exact hfront hf
    · simp only [act, hf, Option.some.injEq, Prod.mk.injEq] at h
      obtain ⟨rfl, rfl, rfl⟩ := h
      exact .inl ⟨e, rfl⟩

/-- What becomes of a process when the connection breaks while it sends or receives. -/
def interrupt (e : ε) : Process α ι ε R → Option (Process α ι ε R)
  | .send _ _ => some (.raise e)
  | .recv _ => some (.raise e)
  | _ => none

theorem raised_of_interrupt {e : ε} {p p' : Process α ι ε R} (h : p.interrupt e = some p') :
    Raised p' := by
  cases p with
  | ret r => cases h
  | raise e => cases h
  | send b p =>
    obtain rfl := Option.some.inj h
    exact ⟨e, rfl⟩
  | recv k =>
    obtain rfl := Option.some.inj h
    exact ⟨e, rfl⟩

/-- The steps of a process, with all that it sends. -/
inductive Acts (S : Splitter α ι ε) :
    Process α ι ε R → List α → Process α ι ε R → List α → List α → Prop
  | nil (p : Process α ι ε R) (inbox : List α) : Acts S p inbox p inbox []
  | cons {p p₁ p' : Process α ι ε R} {inbox inbox₁ inbox' out₁ out : List α} :
    p.act S inbox = some (p₁, inbox₁, out₁) → Acts S p₁ inbox₁ p' inbox' out →
    Acts S p inbox p' inbox' (out₁ ++ out)

/-- A process follows each of its runs, when the items have been sent to it. -/
theorem Trace.acts {encode : ι → List α} {p p' : Process α ι ε R} {xs : List ι}
    {ys : List (List α)} (h : p.Trace xs ys p')
    (hfront : ∀ x ∈ xs, ∀ c, S.front (encode x ++ c) = .item x c) (rest : List α) :
    Acts S p (xs.flatMap encode ++ rest) p' rest ys.flatten := by
  induction h with
  | nil p => exact .nil p rest
  | send _ ih => exact .cons rfl (ih hfront)
  | @recv k p' x xs ys _ ih =>
    have hact : (Process.recv k).act S ((x :: xs).flatMap encode ++ rest) =
        some (k x, xs.flatMap encode ++ rest, []) := by
      rw [List.flatMap_cons, List.append_assoc, act, hfront x List.mem_cons_self]
    exact .cons hact (ih fun y hy => hfront y (List.mem_cons_of_mem x hy))

end Process

/-- Two processes at the ends of a connection, with what has been sent to each
    and that it has not received. -/
@[ext]
structure Duplex (α ι ε R R' : Type) where
  left : Process α ι ε R
  right : Process α ι ε R'
  toLeft : List α
  toRight : List α

/-- The ends of a connection. -/
inductive End
  | left
  | right
  deriving DecidableEq

namespace Duplex

variable (S : Splitter α ι ε)

/-- A step of one end. -/
def next (d : Duplex α ι ε R R') : End → Option (Duplex α ι ε R R')
  | .left => do
    let (p, inbox, out) ← d.left.act S d.toLeft
    some ⟨p, d.right, inbox, d.toRight ++ out⟩
  | .right => do
    let (p, inbox, out) ← d.right.act S d.toRight
    some ⟨d.left, p, d.toLeft ++ out, inbox⟩

/-- Two processes on a new connection. -/
def start (p : Process α ι ε R) (q : Process α ι ε R') : Duplex α ι ε R R' := ⟨p, q, [], []⟩

/-- The system of two processes. -/
def system (p : Process α ι ε R) (q : Process α ι ε R') : System (Duplex α ι ε R R') End :=
  .ofPartial (· = start p q) (next S)

variable {S}

theorem next_left {d : Duplex α ι ε R R'} {p : Process α ι ε R} {inbox out : List α}
    (h : d.left.act S d.toLeft = some (p, inbox, out)) :
    d.next S .left = some ⟨p, d.right, inbox, d.toRight ++ out⟩ := by
  rw [next, h]
  rfl

theorem next_right {d : Duplex α ι ε R R'} {p : Process α ι ε R'} {inbox out : List α}
    (h : d.right.act S d.toRight = some (p, inbox, out)) :
    d.next S .right = some ⟨d.left, p, d.toLeft ++ out, inbox⟩ := by
  rw [next, h]
  rfl

/-- Each end takes its step before or after a step of the other, and to the same effect. -/
theorem next_comm {d d₁ d₂ : Duplex α ι ε R R'} (h₁ : d.next S .left = some d₁)
    (h₂ : d.next S .right = some d₂) :
    ∃ t, d₁.next S .right = some t ∧ d₂.next S .left = some t := by
  obtain ⟨⟨p, inbox, out⟩, hp, h₁⟩ := Option.bind_eq_some_iff.1 h₁
  obtain ⟨⟨q, inbox', out'⟩, hq, h₂⟩ := Option.bind_eq_some_iff.1 h₂
  obtain rfl := Option.some.inj h₁
  obtain rfl := Option.some.inj h₂
  -- What the one end sends is put behind what the other has not received yet.
  exact ⟨⟨p, q, inbox ++ out', inbox' ++ out⟩, next_right (Process.act_append hq out),
    next_left (Process.act_append hp out')⟩

/-- The steps of the two ends do not get in each other's way. -/
theorem commutes (p : Process α ι ε R) (q : Process α ι ε R') : (system S p q).Commutes where
  unique s a s₁ s₂ h₁ h₂ := Option.some.inj (Eq.trans (Eq.symm h₁) h₂)
  comm s a b s₁ s₂ hab h₁ h₂ := by
    cases a <;> cases b
    · exact absurd rfl hab
    · exact next_comm h₁ h₂
    · obtain ⟨t, h, h'⟩ := next_comm h₂ h₁
      exact ⟨t, h', h⟩
    · exact absurd rfl hab

/-- When both processes have returned, no step can be taken. -/
theorem final_of_ret (p : Process α ι ε R) (q : Process α ι ε R') (r : R) (r' : R')
    (inbox inbox' : List α) : (system S p q).Final ⟨.ret r, .ret r', inbox, inbox'⟩ := by
  intro a s h
  cases a <;> cases h

variable {p₀ : Process α ι ε R} {q₀ : Process α ι ε R'}

/-- The left end takes the steps of its process. -/
theorem run_left {p p' : Process α ι ε R} {inbox inbox' out : List α}
    (h : p.Acts S inbox p' inbox' out) (q : Process α ι ε R') (toRight : List α) :
    ∃ as, (system S p₀ q₀).Run ⟨p, q, inbox, toRight⟩ as ⟨p', q, inbox', toRight ++ out⟩ := by
  induction h generalizing toRight with
  | nil p inbox =>
    rw [List.append_nil]
    exact ⟨[], .nil _⟩
  | @cons p p₁ p' inbox inbox₁ inbox' out₁ out hact _ ih =>
    obtain ⟨as, has⟩ := ih (toRight ++ out₁)
    rw [List.append_assoc] at has
    exact ⟨.left :: as, .cons (next_left hact) has⟩

/-- So does the right end. -/
theorem run_right {q q' : Process α ι ε R'} {inbox inbox' out : List α}
    (h : q.Acts S inbox q' inbox' out) (p : Process α ι ε R) (toLeft : List α) :
    ∃ as, (system S p₀ q₀).Run ⟨p, q, toLeft, inbox⟩ as ⟨p, q', toLeft ++ out, inbox'⟩ := by
  induction h generalizing toLeft with
  | nil q inbox =>
    rw [List.append_nil]
    exact ⟨[], .nil _⟩
  | @cons q q₁ q' inbox inbox₁ inbox' out₁ out hact _ ih =>
    obtain ⟨as, has⟩ := ih (toLeft ++ out₁)
    rw [List.append_assoc] at has
    exact ⟨.right :: as, .cons (next_right hact) has⟩

variable (p₀ q₀)

/-- The left end takes all that has been sent to it, when its process has a run
    that does. -/
theorem run_trace_left {encode : ι → List α} {p p' : Process α ι ε R} {xs ys : List ι}
    (h : p.Trace xs (ys.map encode) p')
    (hfront : ∀ x ∈ xs, ∀ c, S.front (encode x ++ c) = .item x c) (q : Process α ι ε R')
    (toRight : List α) :
    ∃ as, (system S p₀ q₀).Run ⟨p, q, xs.flatMap encode, toRight⟩ as
      ⟨p', q, [], toRight ++ ys.flatMap encode⟩ := by
  have hacts := h.acts hfront []
  rw [List.append_nil, ← List.flatMap_def] at hacts
  exact run_left hacts q toRight

/-- So does the right end. -/
theorem run_trace_right {encode : ι → List α} {q q' : Process α ι ε R'} {xs ys : List ι}
    (h : q.Trace xs (ys.map encode) q')
    (hfront : ∀ x ∈ xs, ∀ c, S.front (encode x ++ c) = .item x c) (p : Process α ι ε R)
    (toLeft : List α) :
    ∃ as, (system S p₀ q₀).Run ⟨p, q, toLeft, xs.flatMap encode⟩ as
      ⟨p, q', toLeft ++ ys.flatMap encode, []⟩ := by
  have hacts := h.acts hfront []
  rw [List.append_nil, ← List.flatMap_def] at hacts
  exact run_right hacts p toLeft

/-- A dialogue in which the left end has the first and the last word comes to
    its end, in whatever order the two ends take their steps. -/
theorem completesAt_of_dialogue {encode : ι → List α} {p p₁ p₂ : Process α ι ε R}
    {q q₁ : Process α ι ε R'} {as bs cs ds : List ι} {r : R} {r' : R'}
    (hfront : ∀ x ∈ as ++ bs ++ cs ++ ds, ∀ c, S.front (encode x ++ c) = .item x c)
    (h₁ : p.Trace [] (as.map encode) p₁) (h₂ : q.Trace as (bs.map encode) q₁)
    (h₃ : p₁.Trace bs (cs.map encode) p₂) (h₄ : q₁.Trace cs (ds.map encode) (.ret r'))
    (h₅ : p₂.Trace ds [] (.ret r)) :
    (system S p q).CompletesAt (start p q) ⟨.ret r, .ret r', [], []⟩ := by
  simp only [List.mem_append] at hfront
  -- One run of the two: each end speaks in turn, and the other receives all of it.
  obtain ⟨l₁, hl₁⟩ := run_trace_left p q h₁ nofun q []
  obtain ⟨l₂, hl₂⟩ := run_trace_right p q h₂ (fun x hx => hfront x (.inl (.inl (.inl hx)))) p₁ []
  obtain ⟨l₃, hl₃⟩ := run_trace_left p q h₃ (fun x hx => hfront x (.inl (.inl (.inr hx)))) q₁ []
  obtain ⟨l₄, hl₄⟩ := run_trace_right p q h₄ (fun x hx => hfront x (.inl (.inr hx))) p₂ []
  have h₅ : p₂.Trace ds (([] : List ι).map encode) (.ret r) := h₅
  obtain ⟨l₅, hl₅⟩ := run_trace_left p q h₅ (fun x hx => hfront x (.inr hx)) (.ret r') []
  have hrun := (((hl₁.append hl₂).append hl₃).append hl₄).append hl₅
  exact System.Run.completesAt (commutes p q) hrun (final_of_ret p q r r' [] [])

end Duplex

end SecNet
