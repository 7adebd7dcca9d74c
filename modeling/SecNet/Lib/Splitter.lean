import Mathlib.Data.List.Basic

/-!
# Splitting a stream into items

A *splitter* looks at the front of a buffer: there may be a complete item with
what follows it, not enough to tell yet, or something that no continuation
makes right (`Front`). What it has recognised does not depend on what comes
later (`item_append`, `bad_append`), so that a stream can be split as it
arrives, keeping what is left between two chunks:

* `split`: the items at the front of a buffer, and what is left after them;
* `split_append`: splitting a buffer and then more of the stream is splitting
  both at once;
* `feed_eq_split`: so the chunks a stream arrives in do not matter;
* `split_flatMap`: a code whose words the splitter recognises is split back.
-/

namespace SecNet

variable {α ι ε : Type*}

/-- What the front of a buffer holds: not a complete item yet, an item and
    what follows it, or an error. -/
inductive Front (α ι ε : Type*)
  | more
  | item (x : ι) (rest : List α)
  | bad (e : ε)
  deriving DecidableEq

/-- A splitter of streams of `α` into items `ι`, with the errors `ε`. -/
structure Splitter (α ι ε : Type*) where
  /-- What is at the front of a buffer. -/
  front : List α → Front α ι ε
  /-- An item takes some of the buffer. -/
  length_lt {b r : List α} {x : ι} : front b = .item x r → r.length < b.length
  /-- What follows an item does not change it. -/
  item_append {b r : List α} {x : ι} (c : List α) :
    front b = .item x r → front (b ++ c) = .item x (r ++ c)
  /-- What follows an error does not mend it. -/
  bad_append {b : List α} {e : ε} (c : List α) : front b = .bad e → front (b ++ c) = .bad e

namespace Splitter

variable (S : Splitter α ι ε)

/-- The items at the front of a buffer, in order, and what is left after the
    last one, or the error met there. -/
def split (b : List α) : List ι × Except ε (List α) :=
  match h : S.front b with
  | .more => ([], .ok b)
  | .item x r =>
    have : r.length < b.length := S.length_lt h
    (x :: (split r).1, (split r).2)
  | .bad e => ([], .error e)
termination_by b.length

/-- Splitting a stream as it arrives: the items of the buffer `b` and the
    chunks after it, splitting after each chunk and keeping what is left. -/
def feed : List α → List (List α) → List ι × Except ε (List α)
  | b, [] => ([], .ok b)
  | b, c :: cs =>
    match S.split (b ++ c) with
    | (xs, .ok r) => (xs ++ (feed r cs).1, (feed r cs).2)
    | (xs, .error e) => (xs, .error e)

variable {S}

theorem split_of_more {b : List α} (h : S.front b = .more) : S.split b = ([], .ok b) := by
  rw [split]
  split <;> simp_all

theorem split_of_item {b r : List α} {x : ι} (h : S.front b = .item x r) :
    S.split b = (x :: (S.split r).1, (S.split r).2) := by
  rw [split]
  split <;> simp_all

theorem split_of_bad {b : List α} {e : ε} (h : S.front b = .bad e) :
    S.split b = ([], .error e) := by
  rw [split]
  split <;> simp_all

/-- What is left has no complete item at its front. -/
theorem front_of_split {b r : List α} {xs : List ι} (h : S.split b = (xs, .ok r)) :
    S.front r = .more := by
  induction b using split.induct S generalizing xs with
  | case1 b hb =>
    rw [split_of_more hb] at h
    obtain ⟨_, rfl⟩ : _ ∧ b = r := by simpa using h
    exact hb
  | case2 b x r' hb _ ih =>
    rw [split_of_item hb, Prod.mk.injEq] at h
    exact ih (Prod.ext rfl h.2)
  | case3 b e hb =>
    rw [split_of_bad hb] at h
    simp at h

/-- There are at most as many items as elements. -/
theorem length_split_le (b : List α) : (S.split b).1.length ≤ b.length := by
  induction b using split.induct S with
  | case1 b hb => simp [split_of_more hb]
  | case2 b x r hb _ ih =>
    have := S.length_lt hb
    rw [split_of_item hb, List.length_cons]
    omega
  | case3 b e hb => simp [split_of_bad hb]

/-- Splitting more of the stream after an item split off, a buffer left over,
    or an error. -/
theorem split_append (b c : List α) :
    S.split (b ++ c) = match S.split b with
      | (xs, .ok r) => (xs ++ (S.split (r ++ c)).1, (S.split (r ++ c)).2)
      | (xs, .error e) => (xs, .error e) := by
  induction b using split.induct S with
  | case1 b hb => simp [split_of_more hb]
  | case2 b x r hb _ ih =>
    rw [split_of_item hb, split_of_item (S.item_append c hb), ih]
    rcases S.split r with ⟨xs, r' | r'⟩ <;> rfl
  | case3 b e hb => simp [split_of_bad hb, split_of_bad (S.bad_append c hb)]

/-- The chunks a stream arrives in do not matter. -/
theorem feed_eq_split {b : List α} (hb : S.front b = .more) (cs : List (List α)) :
    S.feed b cs = S.split (b ++ cs.flatten) := by
  induction cs generalizing b with
  | nil => simp [feed, split_of_more hb]
  | cons c cs ih =>
    rw [feed, List.flatten_cons, ← List.append_assoc, split_append (b ++ c)]
    rcases hs : S.split (b ++ c) with ⟨xs, e | r⟩
    · rfl
    · simp only [ih (front_of_split hs)]

/-- A code whose words the splitter recognises, whatever follows them, is
    split back into the words it was made of. -/
theorem split_flatMap {encode : ι → List α} {xs : List ι}
    (h : ∀ x ∈ xs, ∀ c, S.front (encode x ++ c) = .item x c) (c : List α) :
    S.split (xs.flatMap encode ++ c) = (xs ++ (S.split c).1, (S.split c).2) := by
  induction xs with
  | nil => rfl
  | cons x xs ih =>
    rw [List.flatMap_cons, List.append_assoc,
      split_of_item (h x List.mem_cons_self _), ih fun y hy => h y (List.mem_cons_of_mem _ hy)]
    rfl

end Splitter

end SecNet
