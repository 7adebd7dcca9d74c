import Mathlib.Data.Finset.Insert
import Mathlib.Data.Finset.Defs
import Mathlib.Tactic.SplitIfs

/-!
# Stores with tombstones

A store into which values are put under keys, and from which keys are dropped for
good: a key that has been dropped is remembered, and what is put under it later
is ignored. The operations may come in any order, and any number of times.

* `live_foldl`: what is left at the end is what was put and never dropped;
* `foldl_congr`: so the order of the operations, and their number, do not matter;
* `exists_mem_compact`: a log keeps, when it is compacted to the last record of
  each key, what holds of all the later records of a key once it holds of one.
-/

namespace SecNet

variable {K V : Type} [DecidableEq K]

/-- A store: the values that are there, and the keys that have been dropped. -/
@[ext]
structure Store (K V : Type) where
  live : K → Option V
  dropped : Finset K

namespace Store

/-- The operations on a store. -/
inductive Op (K V : Type)
  | put (k : K) (v : V)
  | drop (k : K)

/-- The empty store. -/
def empty : Store K V := ⟨fun _ => none, ∅⟩

/-- A store after an operation. -/
def apply (s : Store K V) : Op K V → Store K V
  | .put k v => if k ∈ s.dropped then s else { s with live := Function.update s.live k (some v) }
  | .drop k => ⟨Function.update s.live k none, insert k s.dropped⟩

@[simp]
theorem live_put (s : Store K V) (k j : K) (v : V) :
    (s.apply (.put k v)).live j = if j = k ∧ k ∉ s.dropped then some v else s.live j := by
  rw [apply]
  by_cases hk : k ∈ s.dropped
  · simp [hk]
  · simp [hk, Function.update_apply]

@[simp]
theorem dropped_put (s : Store K V) (k : K) (v : V) :
    (s.apply (.put k v)).dropped = s.dropped := by
  rw [apply]
  split_ifs <;> rfl

@[simp]
theorem live_drop (s : Store K V) (k j : K) :
    (s.apply (.drop k)).live j = if j = k then none else s.live j := Function.update_apply ..

@[simp]
theorem dropped_drop (s : Store K V) (k : K) : (s.apply (.drop k)).dropped = insert k s.dropped :=
  rfl

/-- A key that has been dropped has no value. -/
def Clean (s : Store K V) : Prop := ∀ k ∈ s.dropped, s.live k = none

theorem clean_apply {s : Store K V} (h : s.Clean) (op : Op K V) : (s.apply op).Clean := by
  intro k hk
  cases op with
  -- A value is put only where the key has not been dropped.
  | put k' v =>
    rw [dropped_put] at hk
    rw [live_put, if_neg, h k hk]
    rintro ⟨rfl, hk'⟩
    exact hk' hk
  | drop k' =>
    rw [live_drop]
    split_ifs with hkk'
    · rfl
    · exact h k ((Finset.mem_insert.1 hk).resolve_left hkk')

/-- The keys that have been dropped at the end. -/
theorem mem_dropped_foldl (s : Store K V) (ops : List (Op K V)) (k : K) :
    k ∈ (ops.foldl apply s).dropped ↔ k ∈ s.dropped ∨ .drop k ∈ ops := by
  induction ops generalizing s with
  | nil => simp
  | cons op ops ih =>
    rw [List.foldl_cons, ih, List.mem_cons]
    cases op with
    | put k' v => simp
    | drop k' => simp [or_left_comm, or_assoc]

/-- A value that is there at the end was there before, or was put. -/
theorem live_of_foldl {s : Store K V} {ops : List (Op K V)} {k : K} {v : V}
    (h : (ops.foldl apply s).live k = some v) : s.live k = some v ∨ .put k v ∈ ops := by
  induction ops generalizing s with
  | nil => exact .inl h
  | cons op ops ih =>
    rcases ih h with hlive | hmem
    · cases op with
      | put k' v' =>
        rw [live_put] at hlive
        split_ifs at hlive with hk
        · rw [hk.1, Option.some.inj hlive]
          exact .inr List.mem_cons_self
        · exact .inl hlive
      | drop k' =>
        rw [live_drop] at hlive
        split_ifs at hlive
        exact .inl hlive
    · exact .inr (List.mem_cons_of_mem op hmem)

theorem notMem_dropped_apply {s : Store K V} {op : Op K V} {k : K} (hk : k ∉ s.dropped)
    (hop : op ≠ .drop k) : k ∉ (s.apply op).dropped := by
  cases op with
  | put k' v => rwa [dropped_put]
  | drop k' =>
    rw [dropped_drop, Finset.mem_insert]
    rintro (rfl | hk')
    · exact hop rfl
    · exact hk hk'

/-- A key that is not dropped keeps a value. -/
theorem isSome_live_apply {s : Store K V} {op : Op K V} {k : K} (hk : k ∉ s.dropped)
    (hop : op ≠ .drop k) (h : (s.live k).isSome ∨ ∃ v, op = .put k v) :
    ((s.apply op).live k).isSome := by
  cases op with
  | put k' v =>
    rw [live_put]
    split_ifs with hkk'
    · rfl
    · refine h.resolve_right ?_
      rintro ⟨v', hput⟩
      obtain ⟨rfl, -⟩ := Op.put.inj hput
      exact hkk' ⟨rfl, hk⟩
  | drop k' =>
    have hne : k ≠ k' := by
      rintro rfl
      exact hop rfl
    rw [live_drop, if_neg hne]
    exact h.resolve_right nofun

theorem isSome_live_foldl {s : Store K V} {ops : List (Op K V)} {k : K} (hk : k ∉ s.dropped)
    (hops : .drop k ∉ ops) (h : (s.live k).isSome ∨ ∃ v, .put k v ∈ ops) :
    ((ops.foldl apply s).live k).isSome := by
  induction ops generalizing s with
  | nil => exact h.resolve_right nofun
  | cons op ops ih =>
    have hop : op ≠ .drop k := by
      rintro rfl
      exact hops List.mem_cons_self
    have hops' : .drop k ∉ ops := fun hmem => hops (List.mem_cons_of_mem op hmem)
    have hdropped := notMem_dropped_apply hk hop
    -- The value is there after this operation, or is put by a later one.
    by_cases hnow : (s.live k).isSome ∨ ∃ v, op = .put k v
    · exact ih hdropped hops' (.inl (isSome_live_apply hk hop hnow))
    · refine ih hdropped hops' (.inr ?_)
      rcases h with hlive | ⟨v, hput⟩
      · exact absurd (.inl hlive) hnow
      · rcases List.mem_cons.1 hput with rfl | hput
        · exact absurd (.inr ⟨v, rfl⟩) hnow
        · exact ⟨v, hput⟩

/-- The operations put one value under each key. -/
def Functional (ops : List (Op K V)) : Prop :=
  ∀ k v v', .put k v ∈ ops → .put k v' ∈ ops → v = v'

theorem clean_foldl {s : Store K V} (h : s.Clean) (ops : List (Op K V)) :
    (ops.foldl apply s).Clean := by
  induction ops generalizing s with
  | nil => exact h
  | cons op ops ih => exact ih (clean_apply h op)

omit [DecidableEq K] in
theorem clean_empty : (empty : Store K V).Clean := fun _ _ => rfl

/-- What is left at the end is what was put and never dropped. -/
theorem live_foldl {ops : List (Op K V)} (hops : Functional ops) (k : K) (v : V) :
    (ops.foldl apply empty).live k = some v ↔ .put k v ∈ ops ∧ .drop k ∉ ops := by
  constructor
  · intro h
    refine ⟨(live_of_foldl h).resolve_left nofun, fun hdrop => ?_⟩
    have hdropped := (mem_dropped_foldl empty ops k).2 (.inr hdrop)
    rw [clean_foldl clean_empty ops k hdropped] at h
    cases h
  · rintro ⟨hput, hdrop⟩
    obtain ⟨v', hv'⟩ := Option.isSome_iff_exists.1
      (isSome_live_foldl (s := empty) (Finset.notMem_empty k) hdrop (.inr ⟨v, hput⟩))
    rw [hv', hops k v v' hput ((live_of_foldl hv').resolve_left nofun)]

/-- Neither the order of the operations, nor how often each is done, matters. -/
theorem foldl_congr {ops ops' : List (Op K V)} (hops : Functional ops)
    (h : ∀ op, op ∈ ops ↔ op ∈ ops') : ops.foldl apply empty = ops'.foldl apply empty := by
  have hops' : Functional ops' := fun k v v' hv hv' => hops k v v' ((h _).2 hv) ((h _).2 hv')
  ext k v
  · rw [live_foldl hops, live_foldl hops', h, h]
  · rw [mem_dropped_foldl, mem_dropped_foldl, h]

end Store

/-! ## Compacted logs -/

variable {R : Type}

/-- A log of records with keys, compacted to the last record of each key. -/
def compact : List (K × R) → List (K × R)
  | [] => []
  | x :: log => if x.1 ∈ log.map Prod.fst then compact log else x :: compact log

theorem mem_of_mem_compact {x : K × R} {log : List (K × R)} (h : x ∈ compact log) : x ∈ log := by
  induction log with
  | nil => exact h
  | cons y log ih =>
    rw [compact] at h
    split_ifs at h
    · exact List.mem_cons_of_mem y (ih h)
    · rcases List.mem_cons.1 h with rfl | h
      · exact List.mem_cons_self
      · exact List.mem_cons_of_mem y (ih h)

/-- What holds of all the later records of a key, once it holds of one, is kept. -/
theorem exists_mem_compact {P : R → Prop} {log : List (K × R)}
    (hlog : log.Pairwise fun x y => x.1 = y.1 → P x.2 → P y.2) (k : K) :
    (∃ r, (k, r) ∈ compact log ∧ P r) ↔ ∃ r, (k, r) ∈ log ∧ P r := by
  constructor
  · rintro ⟨r, hr, hP⟩
    exact ⟨r, mem_of_mem_compact hr, hP⟩
  · induction log with
    | nil => rintro ⟨r, hr, -⟩; cases hr
    | cons x log ih =>
      rintro ⟨r, hr, hP⟩
      rw [List.pairwise_cons] at hlog
      rw [compact]
      split_ifs with hx
      · refine ih hlog.2 ?_
        rcases List.mem_cons.1 hr with rfl | hr
        · -- A later record of the key takes its place.
          obtain ⟨y, hy, hyx⟩ := List.mem_map.1 hx
          obtain rfl : y.1 = k := hyx
          exact ⟨y.2, hy, hlog.1 y hy rfl hP⟩
        · exact ⟨r, hr, hP⟩
      · rcases List.mem_cons.1 hr with rfl | hr
        · exact ⟨r, List.mem_cons_self, hP⟩
        · obtain ⟨r', hr', hP'⟩ := ih hlog.2 ⟨r, hr, hP⟩
          exact ⟨r', List.mem_cons_of_mem x hr', hP'⟩

end SecNet
