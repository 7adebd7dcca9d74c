import Mathlib.Tactic

/-!
# Lists with writers

Lists by their keys, of entries with ids, and the writers that are under way: each of them adds an
entry to its list when it finishes, or nothing where it fails. They finish in any order.

The *weight* of an id in a list counts its entries there, and the writers that are to add one.

* `weight_finish_le`: no writer that finishes adds to a weight;
* `exists_settle`: when they all succeed, the entries come up to the weight.
-/

namespace SecNet

variable {K I M T : Type*}

/-- A writer under way: the list it is to add to, the id of the entry, and where it comes from. -/
structure Writer (K I T : Type*) where
  key : K
  id : I
  source : T

/-- The lists, and the writers under way. -/
structure Board (K I M T : Type*) where
  lists : K → List (I × M)
  writers : List (Writer K I T)

namespace Board

/-- No entries, and no writers. -/
def empty : Board K I M T := ⟨fun _ => [], []⟩

variable [DecidableEq K] [DecidableEq I]

/-- An entry is added to a list. -/
def add (b : Board K I M T) (k : K) (i : I) (m : M) : Board K I M T :=
  { b with lists := Function.update b.lists k (b.lists k ++ [(i, m)]) }

/-- A writer starts. -/
def start (b : Board K I M T) (w : Writer K I T) : Board K I M T :=
  { b with writers := b.writers ++ [w] }

/-- A writer finishes, with the entry that it adds, if any. -/
def finish (b : Board K I M T) (n : ℕ) (f : Option (Writer K I T → M)) : Board K I M T :=
  match b.writers[n]? with
  | none => b
  | some w =>
    let b := { b with writers := b.writers.eraseIdx n }
    match f with
    | none => b
    | some f => b.add w.key w.id (f w)

/-- Writers finish, one after the other. -/
def settle (b : Board K I M T) (fs : List (ℕ × Option (Writer K I T → M))) : Board K I M T :=
  fs.foldl (fun b f => b.finish f.1 f.2) b

/-- The entries of an id in a list. -/
def listed (b : Board K I M T) (k : K) (i : I) : ℕ := (b.lists k).countP fun entry => i = entry.1

/-- The writers that are to add an entry of an id to a list. -/
def pending (b : Board K I M T) (k : K) (i : I) : ℕ :=
  b.writers.countP fun w => k = w.key ∧ i = w.id

/-- The entries of an id in a list, and those that are to be added. -/
def weight (b : Board K I M T) (k : K) (i : I) : ℕ := b.listed k i + b.pending k i

omit [DecidableEq K] in
/-- The entries of an id are counted in its list. -/
theorem count_map_fst (b : Board K I M T) (k : K) (i : I) :
    ((b.lists k).map Prod.fst).count i = b.listed k i := by
  rw [List.count, List.countP_map, listed]
  simp only [Function.comp_def, beq_eq_decide, eq_comm]

variable {b : Board K I M T} {k k' : K} {i i' : I} {n : ℕ}

theorem listed_add (m : M) :
    (b.add k i m).listed k' i' = b.listed k' i' + if k' = k ∧ i' = i then 1 else 0 := by
  rw [listed, listed, add]
  by_cases hk : k' = k
  · subst hk
    simp only [Function.update_self, List.countP_append, List.countP_singleton, true_and,
      decide_eq_true_eq]
  · simp only [Function.update_of_ne hk, hk, false_and, if_false, Nat.add_zero]

theorem pending_start (w : Writer K I T) :
    (b.start w).pending k i = b.pending k i + if k = w.key ∧ i = w.id then 1 else 0 := by
  simp only [pending, start, List.countP_append, List.countP_singleton, decide_eq_true_eq]

theorem weight_add (m : M) :
    (b.add k i m).weight k' i' = b.weight k' i' + if k' = k ∧ i' = i then 1 else 0 := by
  rw [weight, listed_add, weight, Nat.add_right_comm]
  rfl

theorem weight_start (w : Writer K I T) :
    (b.start w).weight k i = b.weight k i + if k = w.key ∧ i = w.id then 1 else 0 := by
  rw [weight, pending_start, weight, ← Nat.add_assoc]
  rfl

/-- A writer that finishes is no longer under way. -/
theorem pending_eraseIdx {w : Writer K I T} (hw : b.writers[n]? = some w) :
    b.pending k i = { b with writers := b.writers.eraseIdx n }.pending k i +
      if k = w.key ∧ i = w.id then 1 else 0 := by
  obtain ⟨hn, rfl⟩ := List.getElem?_eq_some_iff.1 hw
  rw [pending, ← (List.getElem_cons_eraseIdx_perm hn).countP_eq, List.countP_cons, pending]
  simp only [decide_eq_true_eq]

/-- A writer that succeeds keeps the weights. -/
theorem weight_finish {w : Writer K I T} (hw : b.writers[n]? = some w) (f : Writer K I T → M) :
    (b.finish n (some f)).weight k i = b.weight k i := by
  rw [finish, hw]
  dsimp only
  rw [weight_add, weight, weight, pending_eraseIdx hw, Nat.add_assoc]
  rfl

omit [DecidableEq I] in
theorem finish_of_none (hw : b.writers[n]? = none) (f : Option (Writer K I T → M)) :
    b.finish n f = b := by
  rw [finish, hw]

/-- No writer that finishes adds to a weight. -/
theorem weight_finish_le (n : ℕ) (f : Option (Writer K I T → M)) :
    (b.finish n f).weight k i ≤ b.weight k i := by
  rcases hw : b.writers[n]? with _ | w
  · rw [finish_of_none hw]
  cases f with
  | none =>
    rw [finish, hw, weight, weight, pending_eraseIdx hw]
    exact Nat.add_le_add_left (Nat.le_add_right _ _) _
  | some f => exact (weight_finish hw f).le

/-- A writer that succeeds has its entry listed. -/
theorem listed_finish {w : Writer K I T} (hw : b.writers[n]? = some w) (f : Writer K I T → M) :
    (b.finish n (some f)).listed k i = b.listed k i + if k = w.key ∧ i = w.id then 1 else 0 := by
  rw [finish, hw]
  dsimp only
  rw [listed_add]
  rfl

/-- A writer that fails adds nothing. -/
theorem listed_finish_none (n : ℕ) : (b.finish n none).listed k i = b.listed k i := by
  rcases hw : b.writers[n]? with _ | w
  · rw [finish_of_none hw]
  · rw [finish, hw]
    rfl

/-- The entries stay. -/
theorem listed_le_finish (n : ℕ) (f : Option (Writer K I T → M)) :
    b.listed k i ≤ (b.finish n f).listed k i := by
  rcases hw : b.writers[n]? with _ | w
  · rw [finish_of_none hw]
  cases f with
  | none => rw [listed_finish_none]
  | some f =>
    rw [listed_finish hw]
    exact Nat.le_add_right _ _

omit [DecidableEq I] in
/-- The writers that are left. -/
theorem mem_of_mem_finish {f : Option (Writer K I T → M)} {w : Writer K I T}
    (h : w ∈ (b.finish n f).writers) : w ∈ b.writers := by
  rcases hw : b.writers[n]? with _ | w'
  · rwa [finish_of_none hw] at h
  cases f with
  | none =>
    rw [finish, hw] at h
    exact List.mem_of_mem_eraseIdx h
  | some f =>
    rw [finish, hw] at h
    exact List.mem_of_mem_eraseIdx h

/-- When they succeed, the entries come up to the weight. -/
theorem exists_settle (b : Board K I M T) (k : K) (i : I) (f : Writer K I T → M) : ∃ ns : List ℕ,
    (b.settle (ns.map fun n => (n, some f))).listed k i = b.weight k i := by
  -- By the number of the writers that are to add an entry.
  induction h : b.pending k i generalizing b with
  | zero => exact ⟨[], by rw [List.map_nil, settle, List.foldl_nil, weight, h, Nat.add_zero]⟩
  | succ c ih =>
    have hpos : 0 < b.pending k i := h ▸ Nat.succ_pos c
    obtain ⟨w, hmem, hw⟩ := List.countP_pos_iff.1 hpos
    obtain ⟨rfl, rfl⟩ := of_decide_eq_true hw
    obtain ⟨n, hn⟩ := List.getElem?_of_mem hmem
    have hpending : (b.finish n (some f)).pending w.key w.id = c := by
      rw [pending_eraseIdx hn, if_pos ⟨rfl, rfl⟩] at h
      rw [finish, hn]
      exact Nat.succ.inj h
    obtain ⟨ns, hns⟩ := ih (b.finish n (some f)) hpending
    refine ⟨n :: ns, ?_⟩
    rw [← weight_finish hn f, ← hns]
    rfl

end Board

end SecNet
