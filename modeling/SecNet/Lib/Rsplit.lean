import Mathlib.Tactic

/-!
# The last separator

A list cut at its last separator, as `text.rsplit(sep, 1)` cuts a text: what
comes after the cut has no separator, so that there is one such cut.

* `rsplit_eq_some`: the cut of a list with a separator;
* `append_sep_inj`: the two parts of the cut are read back.
-/

namespace SecNet

variable {α : Type*} [DecidableEq α]

/-- What is before the last separator, and what is after it. -/
def rsplit (sep : α) : List α → Option (List α × List α)
  | [] => none
  | x :: xs =>
    match rsplit sep xs with
    | some (before, after) => some (x :: before, after)
    | none => if x = sep then some ([], xs) else none

/-- A list without separators is not cut. -/
theorem rsplit_eq_none {sep : α} {xs : List α} : rsplit sep xs = none ↔ sep ∉ xs := by
  induction xs with
  | nil => simp [rsplit]
  | cons x xs ih =>
    rw [rsplit]
    cases h : rsplit sep xs with
    | none =>
      rw [h] at ih
      simp [ih.1 rfl, eq_comm (a := sep)]
    | some cut =>
      rw [h] at ih
      simp only [reduceCtorEq, false_iff, not_not] at ih
      simp [ih]

theorem rsplit_append {sep : α} {after : List α} (h : sep ∉ after) (before : List α) :
    rsplit sep (before ++ sep :: after) = some (before, after) := by
  induction before with
  | nil => rw [List.nil_append, rsplit, rsplit_eq_none.2 h, if_pos rfl]
  | cons x before ih => rw [List.cons_append, rsplit, ih]

/-- The cut of a list is before a part without separators. -/
theorem rsplit_eq_some {sep : α} {xs before after : List α} :
    rsplit sep xs = some (before, after) ↔ xs = before ++ sep :: after ∧ sep ∉ after := by
  constructor
  · intro h
    induction xs generalizing before with
    | nil => simp [rsplit] at h
    | cons x xs ih =>
      rw [rsplit] at h
      cases hcut : rsplit sep xs with
      | none =>
        simp only [hcut, Option.ite_none_right_eq_some, Option.some.injEq, Prod.mk.injEq] at h
        obtain ⟨rfl, rfl, rfl⟩ := h
        exact ⟨rfl, rsplit_eq_none.1 hcut⟩
      | some cut =>
        simp only [hcut, Option.some.injEq, Prod.mk.injEq] at h
        obtain ⟨rfl, rfl⟩ := h
        obtain ⟨hxs, hsep⟩ := ih hcut
        exact ⟨congrArg (x :: ·) hxs, hsep⟩
  · rintro ⟨rfl, h⟩
    exact rsplit_append h before

/-- A list is cut in one way. -/
theorem append_sep_inj {sep : α} {before before' after after' : List α} (h : sep ∉ after)
    (h' : sep ∉ after') (heq : before ++ sep :: after = before' ++ sep :: after') :
    before = before' ∧ after = after' := by
  have hcut := rsplit_append h before
  rw [heq, rsplit_append h' before', Option.some.injEq, Prod.mk.injEq] at hcut
  exact ⟨hcut.1.symm, hcut.2.symm⟩

end SecNet
