import Mathlib.Tactic

/-!
# Lists that are changed and changed back

An element is put in front of a list, or not, and then the first match is deleted, whether it is
that element or not; or an element is appended, and then its first occurrence is deleted.

* `eraseP_consIf`: what is deleted is the element, where it was put there;
* `deleteUnless_eq_iff`, `append_erase_eq_iff`: when the list is the one of before.
-/

namespace SecNet

variable {α : Type} {p : α → Prop} [DecidablePred p] {x : α} {l : List α}

/-- What is left when the first match is deleted, unless a match had been put in front. -/
def deleteUnless (added : Prop) [Decidable added] (p : α → Prop) [DecidablePred p] (l : List α) :
    List α :=
  if added then l else l.eraseP fun a => p a

/-- What may have been put in front. -/
def consIf (added : Prop) [Decidable added] (x : α) (l : List α) : List α :=
  if added then x :: l else l

theorem deleteUnless_congr {a b : Prop} [Decidable a] [Decidable b] (h : a ↔ b) (p : α → Prop)
    [DecidablePred p] (l : List α) : deleteUnless a p l = deleteUnless b p l := by
  rw [deleteUnless, deleteUnless, if_congr h rfl rfl]

theorem eraseP_consIf (added : Prop) [Decidable added] (hx : p x) :
    (consIf added x l).eraseP (fun a => p a) = deleteUnless added p l := by
  rw [consIf, deleteUnless]
  split_ifs
  · exact List.eraseP_cons_of_pos (decide_eq_true hx)
  · rfl

theorem eraseP_consIf_of_neg (added : Prop) [Decidable added] (hx : ¬p x) :
    (consIf added x l).eraseP (fun a => p a) = consIf added x (l.eraseP fun a => p a) := by
  rw [consIf, consIf]
  split_ifs
  · exact List.eraseP_cons_of_neg (mt of_decide_eq_true hx)
  · rfl

theorem consIf_congr {a b : Prop} [Decidable a] [Decidable b] (h : a ↔ b) (x : α) (l : List α) :
    consIf a x l = consIf b x l := by
  rw [consIf, consIf, if_congr h rfl rfl]

theorem mem_consIf {added : Prop} [Decidable added] {y : α} :
    y ∈ consIf added x l ↔ added ∧ y = x ∨ y ∈ l := by
  rw [consIf]
  split_ifs with hadded
  · rw [List.mem_cons, and_iff_right hadded]
  · exact (or_iff_right fun h => hadded h.1).symm

theorem deleteUnless_sublist (added : Prop) [Decidable added] (p : α → Prop) [DecidablePred p]
    (l : List α) : (deleteUnless added p l).Sublist l := by
  rw [deleteUnless]
  split_ifs
  · exact .refl l
  · exact List.eraseP_sublist

/-- A list from which something may have been deleted, and then a match. -/
theorem deleteUnless_eq_iff_of_sublist {m : List α} (hm : m.Sublist l) (added : Prop)
    [Decidable added] : deleteUnless added p m = l ↔ m = l ∧ deleteUnless added p l = l := by
  constructor
  · intro h
    have hsub : l.Sublist m := h ▸ deleteUnless_sublist added p m
    obtain rfl := hm.antisymm hsub
    exact ⟨rfl, h⟩
  · rintro ⟨rfl, h⟩
    exact h

theorem deleteUnless_eq_iff (added : Prop) [Decidable added] :
    deleteUnless added p l = l ↔ added ∨ ∀ y ∈ l, ¬p y := by
  rw [deleteUnless]
  split_ifs with hadded
  · exact iff_of_true rfl (.inl hadded)
  · rw [List.eraseP_eq_self_iff, or_iff_right hadded]
    simp only [decide_eq_true_eq]

theorem append_singleton_eq_cons_iff (l : List α) (x : α) :
    l ++ [x] = x :: l ↔ ∀ y ∈ l, y = x := by
  induction l with
  | nil => exact iff_of_true rfl nofun
  | cons y l ih =>
    rw [List.cons_append, List.cons.injEq, List.forall_mem_cons]
    refine and_congr_right fun hy => ?_
    rw [hy, ih]

/-- An element that is appended and then erased: the list is the same just when it has the element
    at its end only, if at all. -/
theorem append_erase_eq_iff [DecidableEq α] (l : List α) (x : α) :
    (l ++ [x]).erase x = l ↔ ∀ y ∈ l.dropWhile (· ≠ x), y = x := by
  induction l with
  | nil => simp
  | cons y l ih =>
    by_cases hy : y = x
    · subst hy
      rw [List.cons_append, List.erase_cons_head, List.dropWhile_cons]
      simp only [ne_eq, not_true_eq_false, decide_false, Bool.false_eq_true, if_false,
        List.forall_mem_cons, true_and]
      exact append_singleton_eq_cons_iff l y
    · rw [List.cons_append, List.erase_cons_tail (by simpa using hy), List.dropWhile_cons,
        if_pos (by simpa using hy), List.cons.injEq]
      exact (and_iff_right rfl).trans ih

end SecNet
