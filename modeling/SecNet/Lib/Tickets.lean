import Mathlib.Tactic

/-!
# Tickets

A table of tickets that can be redeemed once, until they expire. Issuing a ticket first prunes the
ones that have expired.

* `exists_issue`: a ticket in the table was issued, and has not been redeemed since;
* `live_run`: pruning makes no difference to the tickets that have not expired.
-/

namespace SecNet

/-- Where keys are distinct, what comes after an entry is determined by its key. -/
theorem eq_of_nodup_filterMap {α κ : Type*} {f : α → Option κ} {k : κ} {x x' : α}
    {a a' b b' : List α}
    (hnodup : ((a ++ x :: b).filterMap f).Nodup) (hx : f x = some k) (hx' : f x' = some k)
    (h : a ++ x :: b = a' ++ x' :: b') : b = b' := by
  have hmem : ∀ c d, k ∈ List.filterMap f (c ++ x' :: d) := fun c d =>
    List.mem_filterMap.2 ⟨x', by simp, hx'⟩
  induction a generalizing a' with
  | nil =>
    rw [List.nil_append, List.filterMap_cons_some hx, List.nodup_cons] at hnodup
    cases a' with
    | nil => exact (List.cons.inj h).2
    | cons y a' =>
      obtain ⟨-, rfl⟩ := List.cons.inj h
      exact absurd (hmem a' b') hnodup.1
  | cons y a ih =>
    cases a' with
    | nil =>
      obtain ⟨rfl, -⟩ := List.cons.inj h
      rw [List.cons_append, List.filterMap_cons_some hx', List.nodup_cons] at hnodup
      exact absurd (List.mem_filterMap.2 ⟨x, by simp, hx⟩) hnodup.1
    | cons y' a' =>
      rw [List.cons_append, List.cons_append, List.cons.injEq] at h
      obtain ⟨rfl, h⟩ := h
      refine ih (hnodup.sublist ?_) h
      exact List.Sublist.filterMap f (List.sublist_cons_self y _)

variable {K V T : Type*} [DecidableEq K] [LinearOrder T]

/-- The tickets, with what they are for and when they expire. -/
abbrev Tickets (K V T : Type*) := K → Option (V × T)

namespace Tickets

/-- What is done with tickets. -/
inductive Op (K V T : Type*)
  | issue (now : T) (k : K) (v : V) (expiry : T)
  | redeem (k : K)

/-- A ticket that has expired. -/
def Expired (now : T) (ticket : V × T) : Prop := ticket.2 < now

instance (now : T) : DecidablePred (Expired (V := V) now) :=
  fun _ => inferInstanceAs (Decidable (_ < _))

/-- The tickets that have not expired. -/
def live (now : T) (t : Tickets K V T) : Tickets K V T :=
  fun k => (t k).filter fun ticket => ¬Expired now ticket

/-- The table after an operation. -/
def next (t : Tickets K V T) : Op K V T → Tickets K V T
  | .issue now k v expiry => Function.update (t.live now) k (some (v, expiry))
  | .redeem k => Function.update t k none

/-- The same, without pruning. -/
def nextKept (t : Tickets K V T) : Op K V T → Tickets K V T
  | .issue _ k v expiry => Function.update t k (some (v, expiry))
  | .redeem k => Function.update t k none

/-- The table after operations on an empty one. -/
def run (ops : List (Op K V T)) : Tickets K V T := ops.foldl next fun _ => none

/-- The same, without pruning. -/
def runKept (ops : List (Op K V T)) : Tickets K V T := ops.foldl nextKept fun _ => none

/-- The operation is not after a time. -/
def Op.NotAfter (now : T) : Op K V T → Prop
  | .issue now' _ _ _ => now' ≤ now
  | .redeem _ => True

variable {t : Tickets K V T} {ops : List (Op K V T)}

omit [DecidableEq K] in
theorem live_eq_some {now : T} {k : K} {ticket : V × T} :
    t.live now k = some ticket ↔ t k = some ticket ∧ ¬Expired now ticket := by
  rw [live, Option.filter_eq_some_iff, decide_eq_true_eq]

theorem run_append (ops : List (Op K V T)) (op : Op K V T) :
    run (ops ++ [op]) = next (run ops) op := by
  rw [run, List.foldl_append, List.foldl_cons, List.foldl_nil, ← run]

omit [LinearOrder T] in
theorem runKept_append (ops : List (Op K V T)) (op : Op K V T) :
    runKept (ops ++ [op]) = nextKept (runKept ops) op := by
  rw [runKept, List.foldl_append, List.foldl_cons, List.foldl_nil, ← runKept]

/-- A ticket that is there after an operation: it has been issued, or was there before and has not
    been redeemed. -/
theorem next_eq_some {op : Op K V T} {k : K} {v : V} {expiry : T}
    (h : t.next op k = some (v, expiry)) :
    (∃ now, op = .issue now k v expiry) ∨ t k = some (v, expiry) ∧ op ≠ .redeem k := by
  cases op with
  | issue now k' v' expiry' =>
    rw [next] at h
    by_cases hk : k = k'
    · subst hk
      rw [Function.update_self] at h
      obtain ⟨rfl, rfl⟩ := Prod.mk.inj (Option.some.inj h)
      exact .inl ⟨now, rfl⟩
    · rw [Function.update_of_ne hk] at h
      exact .inr ⟨(live_eq_some.1 h).1, nofun⟩
  | redeem k' =>
    rw [next] at h
    by_cases hk : k = k'
    · subst hk
      rw [Function.update_self] at h
      cases h
    · rw [Function.update_of_ne hk] at h
      exact .inr ⟨h, fun heq => hk (Op.redeem.inj heq).symm⟩

/-- A ticket in the table was issued, and has not been redeemed since. -/
theorem exists_issue {k : K} {v : V} {expiry : T} (h : run ops k = some (v, expiry)) :
    ∃ before now after, ops = before ++ .issue now k v expiry :: after ∧ .redeem k ∉ after := by
  induction ops using List.reverseRecOn with
  | nil => cases h
  | append_singleton ops op ih =>
    rw [run_append] at h
    rcases next_eq_some h with ⟨now, rfl⟩ | ⟨h, hop⟩
    · exact ⟨ops, now, [], rfl, List.not_mem_nil⟩
    · obtain ⟨before, now, after, rfl, hafter⟩ := ih h
      refine ⟨before, now, after ++ [op], by rw [List.append_assoc, List.cons_append], ?_⟩
      rw [List.mem_append, List.mem_singleton, not_or]
      exact ⟨hafter, Ne.symm hop⟩

omit [DecidableEq K] in
/-- What has expired by an earlier time has expired. -/
theorem live_live {now now' : T} (h : now' ≤ now) (t : Tickets K V T) :
    live now (t.live now') = t.live now := by
  funext k
  ext ticket
  rw [live_eq_some, live_eq_some, live_eq_some, and_assoc, and_congr_right_iff]
  exact fun _ => and_iff_right_of_imp fun hlive => fun hexpired => hlive (hexpired.trans_le h)

theorem live_update (now : T) (t : Tickets K V T) (k : K) (ticket : Option (V × T)) :
    live now (Function.update t k ticket) =
      Function.update (t.live now) k (ticket.filter fun ticket => ¬Expired now ticket) := by
  funext k'
  rw [live]
  by_cases hk : k' = k
  · subst hk
    rw [Function.update_self, Function.update_self]
  · rw [Function.update_of_ne hk, Function.update_of_ne hk, live]

/-- Pruning makes no difference to the tickets that have not expired. -/
theorem live_run {now : T} (h : ∀ op ∈ ops, op.NotAfter now) :
    live now (run ops) = live now (runKept ops) := by
  induction ops using List.reverseRecOn with
  | nil => rfl
  | append_singleton ops op ih =>
    have hops := ih fun op hop => h op (List.mem_append_left _ hop)
    have hop := h op (by simp)
    rw [run_append, runKept_append]
    cases op with
    | issue now' k v expiry =>
      rw [next, nextKept, live_update, live_update, live_live hop, hops]
    | redeem k =>
      rw [next, nextKept, live_update, live_update, hops]

end Tickets

end SecNet
