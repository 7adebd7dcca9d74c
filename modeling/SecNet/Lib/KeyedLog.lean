import Mathlib.Data.List.Basic
import Mathlib.Tactic.SplitIfs

/-!
# Keyed logs

A log of records, each of which has a key, for readers who go by the last record of each key
(`latest`). Such a log may be compacted, which drops records that a later one of the same key
supersedes, and its keys may be spread over partitions, which are read in any order: what is
read is a rearrangement of the log (`Rearrangement`).

* `latest_concat`: the last records, when one is appended;
* `Rearrangement.latest_eq`: a rearrangement has the same last records;
* `Rearrangement.subset`: and no other records.
-/

namespace SecNet

variable {K R : Type} [DecidableEq K] (key : R → K)

/-- The last record of a key. -/
def latest (log : List R) (k : K) : Option R := (log.filter (key · = k)).getLast?

/-- What may be read of a log: records that are superseded have been dropped, and the order is
    kept within each key. -/
inductive Rearrangement (log : List R) : List R → Prop
  | refl : Rearrangement log log
  | drop {before after : List R} {r : R} : Rearrangement log (before ++ r :: after) →
    (∃ r' ∈ after, key r' = key r) → Rearrangement log (before ++ after)
  | reorder {log' log'' : List R} : Rearrangement log log' →
    (∀ k, log''.filter (key · = k) = log'.filter (key · = k)) → Rearrangement log log''

variable {key} {log log' : List R} {k : K} {r : R}

theorem latest_concat (log : List R) (r : R) (k : K) :
    latest key (log ++ [r]) k = if key r = k then some r else latest key log k := by
  rw [latest, List.filter_append, List.filter_singleton]
  split_ifs with hk
  · rw [decide_eq_true hk, cond_true, List.getLast?_concat]
  · rw [decide_eq_false hk, cond_false, List.append_nil, latest]

theorem mem_of_latest (h : latest key log k = some r) : r ∈ log ∧ key r = k := by
  have hmem := List.mem_filter.1 (List.mem_of_getLast? h)
  exact ⟨hmem.1, of_decide_eq_true hmem.2⟩

theorem latest_eq_none : latest key log k = none ↔ ∀ r ∈ log, key r ≠ k := by
  rw [latest, List.getLast?_eq_none_iff, List.filter_eq_nil_iff]
  exact forall₂_congr fun r _ => not_congr decide_eq_true_iff

/-- A rearrangement has the same last records. -/
theorem Rearrangement.latest_eq (h : Rearrangement key log log') :
    latest key log' = latest key log := by
  induction h with
  | refl => rfl
  | @drop before after r _ hlater ih =>
    rw [← ih]
    funext k
    rw [latest, latest, List.filter_append, List.filter_append]
    by_cases hk : key r = k
    · -- A later record of the key is the last one, with the record and without it.
      obtain ⟨r', hr', hkey⟩ := hlater
      have hne : after.filter (key · = k) ≠ [] :=
        List.ne_nil_of_mem (List.mem_filter.2 ⟨hr', decide_eq_true (hkey.trans hk)⟩)
      rw [List.filter_cons_of_pos (by simpa using hk), List.getLast?_append_of_ne_nil _ hne,
        List.getLast?_append_of_ne_nil _ (List.cons_ne_nil _ _), List.getLast?_cons_of_ne_nil hne]
    · rw [List.filter_cons_of_neg (by simpa using hk)]
  | reorder _ hfilter ih =>
    rw [← ih]
    funext k
    rw [latest, latest, hfilter]

/-- A rearrangement has no other records. -/
theorem Rearrangement.subset (h : Rearrangement key log log') : log' ⊆ log := by
  induction h with
  | refl => exact List.Subset.refl _
  | drop _ _ ih =>
    refine fun r hr => ih ?_
    rcases List.mem_append.1 hr with hr | hr
    · exact List.mem_append_left _ hr
    · exact List.mem_append_right _ (List.mem_cons_of_mem _ hr)
  | reorder _ hfilter ih =>
    intro r hr
    have hmem : r ∈ List.filter (key · = key r) _ := List.mem_filter.2 ⟨hr, decide_eq_true rfl⟩
    rw [hfilter] at hmem
    exact ih (List.mem_filter.1 hmem).1

end SecNet
