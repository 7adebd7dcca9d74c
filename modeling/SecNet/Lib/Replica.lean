import SecNet.Lib.KeyedLog
import Mathlib.Tactic

/-!
# Replicas of a log

A log of records, and a reader that goes through it from its beginning, one record after the other,
and keeps a memory of what it has read. Records of some kind may also be written to the memory
ahead of the reader. When the reader starts again, it has forgotten everything.

* `Replica.eq_foldl`: where nothing is written ahead, the memory is what has been read;
* `Replica.latest_eq`: a memory of the last record of each key has, of each key that the reader has
  no record before it of, the last record of the whole log, whoever has written it;
* `Replica.mem`: such a memory has no other records than those of the log.
-/

namespace SecNet

/-- A log, how far its reader is, and a memory that they lead to, where the records of a kind may
    be written ahead. -/
inductive Replica {R M : Type} (apply : M → R → M) (start : M) (Ahead : R → Prop) :
    List R → ℕ → M → Prop
  | start (log : List R) : Replica apply start Ahead log 0 start
  | append {log : List R} {n : ℕ} {m : M} (r : R) : Replica apply start Ahead log n m →
    Replica apply start Ahead (log ++ [r]) n m
  /-- A record that the reader has before it is written to the memory. -/
  | write {log : List R} {n : ℕ} {m : M} {r : R} : Replica apply start Ahead log n m → Ahead r →
    r ∈ log.drop n → Replica apply start Ahead log n (apply m r)
  | read {log : List R} {n : ℕ} {m : M} {r : R} : Replica apply start Ahead log n m →
    log[n]? = some r → Replica apply start Ahead log (n + 1) (apply m r)

namespace Replica

variable {R M : Type} {apply : M → R → M} {start m : M} {Ahead : R → Prop} {log : List R} {n : ℕ}

/-- The reader is not ahead of the log. -/
theorem le_length (h : Replica apply start Ahead log n m) : n ≤ log.length := by
  induction h with
  | start log => exact Nat.zero_le _
  | append r _ ih =>
    rw [List.length_append]
    exact ih.trans (Nat.le_add_right _ _)
  | write _ _ _ ih => exact ih
  | read _ hr _ => exact (List.getElem?_eq_some_iff.1 hr).1

/-- A record that has just been appended may be written. -/
theorem append_write (h : Replica apply start Ahead log n m) {r : R} (hr : Ahead r) :
    Replica apply start Ahead (log ++ [r]) n (apply m r) := by
  refine (h.append r).write hr ?_
  rw [List.drop_append_of_le_length h.le_length]
  exact List.mem_append_right _ (List.mem_singleton_self r)

/-- Where nothing is written ahead, the memory is what has been read. -/
theorem eq_foldl (h : Replica apply start (fun _ => False) log n m) :
    m = (log.take n).foldl apply start := by
  induction h with
  | start log => rfl
  | append r hreplica ih => rw [ih, List.take_append_of_le_length hreplica.le_length]
  | write _ hfalse _ _ => exact hfalse.elim
  | read _ hr ih => rw [List.take_add_one, hr, List.foldl_append, ← ih]; rfl

/-! ## The last record of each key -/

variable {K V : Type} [DecidableEq K]

/-- A memory of the last record of each key, or of what is kept of it. -/
def put (key : R → Option K) (val : R → V) (m : K → Option V) (r : R) : K → Option V :=
  match key r with
  | some k => Function.update m k (some (val r))
  | none => m

variable {key : R → Option K} {val : R → V} {m : K → Option V} {k : K} {r : R}

theorem put_of_key (h : key r = some k) : put key val m r k = some (val r) := by
  rw [put, h]
  exact Function.update_self ..

theorem put_of_key_ne (h : key r ≠ some k) : put key val m r k = m k := by
  cases hkey : key r with
  | none => rw [put, hkey]
  | some k' =>
    have hne : k ≠ k' := by
      rintro rfl
      exact h hkey
    rw [put, hkey]
    exact Function.update_of_ne hne _ _

/-- Once the reader has no record of a key before it, the memory has the last one of the log. -/
theorem latest_eq (h : Replica (put key val) (fun _ => none) Ahead log n m)
    (hk : ∀ r ∈ log.drop n, key r ≠ some k) : m k = (latest key log (some k)).map val := by
  induction h with
  | start log =>
    have hnone : latest key log (some k) = none := latest_eq_none.2 hk
    rw [hnone, Option.map_none]
  | @append log n m r hreplica ih =>
    rw [List.drop_append_of_le_length hreplica.le_length] at hk
    rw [latest_concat, if_neg (hk r (List.mem_append_right _ (List.mem_singleton_self r))),
      ih fun r' hr' => hk r' (List.mem_append_left _ hr')]
  | @write log n m r _ _ hr ih =>
    rw [put_of_key_ne (hk r hr), ih hk]
  | @read log n m r _ hr ih =>
    obtain ⟨hlt, hget⟩ := List.getElem?_eq_some_iff.1 hr
    have hdrop : log.drop n = r :: log.drop (n + 1) := by rw [List.drop_eq_getElem_cons hlt, hget]
    by_cases hkey : key r = some k
    · -- No later record has the key.
      have hlater : (log.drop (n + 1)).filter (key · = some k) = [] :=
        List.filter_eq_nil_iff.2 fun r' hr' h => hk r' hr' (of_decide_eq_true h)
      have hlast : latest key (log.take n ++ r :: log.drop (n + 1)) (some k) = some r := by
        rw [latest, List.filter_append, List.filter_cons_of_pos (by simpa using hkey), hlater,
          List.getLast?_concat]
      rw [← hdrop, List.take_append_drop] at hlast
      rw [put_of_key hkey, hlast, Option.map_some]
    · rw [put_of_key_ne hkey]
      refine ih fun r' hr' => ?_
      rw [hdrop] at hr'
      rcases List.mem_cons.1 hr' with rfl | hr'
      · exact hkey
      · exact hk r' hr'

/-- The memory has nothing but what is kept of records of the log. -/
theorem mem (h : Replica (put key val) (fun _ => none) Ahead log n m) {v : V} (hm : m k = some v) :
    ∃ r ∈ log, key r = some k ∧ val r = v := by
  have hput {log : List R} {m : K → Option V} {r' : R}
      (ih : m k = some v → ∃ r ∈ log, key r = some k ∧ val r = v) (hr' : r' ∈ log)
      (hm : put key val m r' k = some v) : ∃ r ∈ log, key r = some k ∧ val r = v := by
    by_cases hkey : key r' = some k
    · rw [put_of_key hkey] at hm
      exact ⟨r', hr', hkey, Option.some.inj hm⟩
    · rw [put_of_key_ne hkey] at hm
      exact ih hm
  induction h with
  | start log => cases hm
  | append r' _ ih =>
    obtain ⟨r, hr, hkey⟩ := ih hm
    exact ⟨r, List.mem_append_left _ hr, hkey⟩
  | write _ _ hr' ih => exact hput ih (List.mem_of_mem_drop hr') hm
  | read _ hr' ih => exact hput ih (List.mem_of_getElem? hr') hm

end Replica

end SecNet
