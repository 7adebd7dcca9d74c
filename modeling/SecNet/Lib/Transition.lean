import Mathlib.Tactic

/-!
# Transition systems

A system with its initial states and its labelled steps, and its runs: the
labels of the steps taken, in order. What is assumed of the environment is
said of the steps it takes (`restrict`): the runs of the restricted system are
those whose steps all meet the condition.

* `Run.invariant`, `Reachable.invariant`: what every step preserves holds along
  every run;
* `AllSteps.iff`: conditions that are equivalent along the runs that meet one of them;
* `Run.mono`: a run of a system with fewer steps is a run;
* `Run.completesAt`: when the steps commute, and one run comes to an end, all of
  them do, and at the same state.
-/

namespace SecNet

variable {σ α : Type*}

/-- A system: its initial states, and its steps, by their labels. -/
structure System (σ α : Type*) where
  init : σ → Prop
  step : σ → α → σ → Prop

namespace System

variable (S : System σ α)

/-- The runs between two states, by the labels of their steps. -/
inductive Run : σ → List α → σ → Prop
  | nil (s : σ) : Run s [] s
  | snoc {s s' s'' : σ} {as : List α} {a : α} :
    Run s as s' → S.step s' a s'' → Run s (as ++ [a]) s''

/-- The states of the runs from an initial state. -/
def Reachable (s : σ) : Prop := ∃ s₀ as, S.init s₀ ∧ S.Run s₀ as s

/-- The system of the steps that meet a condition. -/
def restrict (P : σ → α → Prop) : System σ α where
  init := S.init
  step s a s' := S.step s a s' ∧ P s a

/-- The system of a function, which takes every step from every state. -/
def ofFun (init : σ → Prop) (f : σ → α → σ) : System σ α where
  init := init
  step s a s' := s' = f s a

/-- The system of a partial function: a step is taken where it is defined. -/
def ofPartial (init : σ → Prop) (f : σ → α → Option σ) : System σ α where
  init := init
  step s a s' := f s a = some s'

variable {S}

/-- What every step preserves, every run preserves. -/
theorem Run.invariant {I : σ → Prop} (hstep : ∀ s a s', I s → S.step s a s' → I s')
    {s s' : σ} {as : List α} (h : S.Run s as s') (hs : I s) : I s' := by
  induction h with
  | nil => exact hs
  | snoc _ ha ih => exact hstep _ _ _ ih ha

/-- What holds initially, and every step preserves, holds of the reachable states. -/
theorem Reachable.invariant {I : σ → Prop} (hinit : ∀ s, S.init s → I s)
    (hstep : ∀ s a s', I s → S.step s a s' → I s') {s : σ} (h : S.Reachable s) : I s := by
  obtain ⟨s₀, as, h₀, hrun⟩ := h
  exact hrun.invariant hstep (hinit s₀ h₀)

/-- A condition holds of every step of a list, each taken from the state the
    ones before it lead to. -/
def AllSteps (f : σ → α → σ) (P : σ → α → Prop) : σ → List α → Prop
  | _, [] => True
  | s, a :: as => P s a ∧ AllSteps f P (f s a) as

instance (f : σ → α → σ) (P : σ → α → Prop) [∀ s a, Decidable (P s a)] :
    ∀ s as, Decidable (AllSteps f P s as)
  | _, [] => inferInstanceAs (Decidable True)
  | s, a :: as =>
    have := instDecidableAllSteps f P (f s a) as
    inferInstanceAs (Decidable (_ ∧ _))

/-- Two conditions that are equivalent where an invariant holds, which the steps that meet the
    second one keep, are met by the same lists of steps. -/
theorem AllSteps.iff {f : σ → α → σ} {P Q : σ → α → Prop} {I : σ → Prop}
    (hiff : ∀ s a, I s → (P s a ↔ Q s a)) (hstep : ∀ s a, I s → Q s a → I (f s a)) {s : σ}
    (hs : I s) (as : List α) : AllSteps f P s as ↔ AllSteps f Q s as := by
  induction as generalizing s with
  | nil => rfl
  | cons a as ih =>
    rw [AllSteps, AllSteps, hiff s a hs]
    exact and_congr_right fun ha => ih (hstep s a hs ha)

/-- A step, and then a run. -/
theorem Run.cons {s s' s'' : σ} {a : α} {as : List α} (ha : S.step s a s')
    (h : S.Run s' as s'') : S.Run s (a :: as) s'' := by
  induction h with
  | nil => exact .snoc (.nil s) ha
  | snoc _ hb ih => exact .snoc ih hb

/-- The run of a function along a list of steps. -/
theorem Run.foldl {init : σ → Prop} {f : σ → α → σ} (s : σ) (as : List α) :
    (ofFun init f).Run s as (as.foldl f s) := by
  induction as generalizing s with
  | nil => exact .nil s
  | cons a as ih => exact .cons rfl (ih _)

/-- The run of a function along a list of steps that all meet a condition. -/
theorem Run.ofFun_foldl {init : σ → Prop} {f : σ → α → σ} {P : σ → α → Prop} {s : σ}
    {as : List α} (h : AllSteps f P s as) :
    ((ofFun init f).restrict P).Run s as (as.foldl f s) := by
  induction as generalizing s with
  | nil => exact .nil s
  | cons a as ih => exact .cons ⟨rfl, h.1⟩ (ih h.2)

/-- A partial function, taken where a condition is met. -/
def guarded (f : σ → α → Option σ) (P : σ → α → Prop) [∀ s a, Decidable (P s a)] (s : σ) (a : α) :
    Option σ :=
  if P s a then f s a else none

/-- The run of a partial function along a list of steps that all meet a condition. -/
theorem Run.ofPartial_foldlM {init : σ → Prop} {f : σ → α → Option σ} {P : σ → α → Prop}
    [∀ s a, Decidable (P s a)] {s s' : σ} {as : List α}
    (h : as.foldlM (guarded f P) s = some s') :
    ((ofPartial init f).restrict P).Run s as s' := by
  induction as generalizing s with
  | nil =>
    obtain rfl : s = s' := Option.some.inj h
    exact .nil s
  | cons a as ih =>
    rw [List.foldlM_cons, Option.bind_eq_bind, Option.bind_eq_some_iff] at h
    obtain ⟨s₁, ha, has⟩ := h
    rw [guarded] at ha
    split_ifs at ha with hP
    exact .cons ⟨ha, hP⟩ (ih has)

/-- Steps that all meet a condition all meet a weaker one, and lead to the same state. -/
theorem foldlM_guarded_mono {f : σ → α → Option σ} {P Q : σ → α → Prop}
    [∀ s a, Decidable (P s a)] [∀ s a, Decidable (Q s a)] (hPQ : ∀ s a, Q s a → P s a)
    {s s' : σ} {as : List α} (h : as.foldlM (guarded f Q) s = some s') :
    as.foldlM (guarded f P) s = some s' := by
  induction as generalizing s with
  | nil => exact h
  | cons a as ih =>
    rw [List.foldlM_cons, Option.bind_eq_bind, Option.bind_eq_some_iff] at h ⊢
    obtain ⟨s₁, ha, has⟩ := h
    rw [guarded] at ha
    split_ifs at ha with hQ
    exact ⟨s₁, by rw [guarded, if_pos (hPQ s a hQ), ha], ih has⟩

/-- A run whose steps are all steps of another system is a run of it. -/
theorem Run.mono {T : System σ α} (hST : ∀ s a s', S.step s a s' → T.step s a s')
    {s s' : σ} {as : List α} (h : S.Run s as s') : T.Run s as s' := by
  induction h with
  | nil => exact .nil _
  | snoc _ ha ih => exact .snoc ih (hST _ _ _ ha)

/-- A run of steps that all meet a condition is a run. -/
theorem Run.of_restrict {P : σ → α → Prop} {s s' : σ} {as : List α}
    (h : (S.restrict P).Run s as s') : S.Run s as s' :=
  h.mono fun _ _ _ ha => And.left ha

theorem Reachable.of_restrict {P : σ → α → Prop} {s : σ} (h : (S.restrict P).Reachable s) :
    S.Reachable s := by
  obtain ⟨s₀, as, h₀, hrun⟩ := h
  exact ⟨s₀, as, h₀, hrun.of_restrict⟩

/-- The run of a partial function along a list of steps. -/
theorem Run.of_foldlM {init : σ → Prop} {f : σ → α → Option σ} {s s' : σ} {as : List α}
    (h : as.foldlM f s = some s') : (ofPartial init f).Run s as s' := by
  have hguarded : guarded f (fun _ _ => True) = f := by
    funext s a
    rw [guarded, if_pos trivial]
  exact Run.of_restrict (Run.ofPartial_foldlM (P := fun _ _ => True) (hguarded ▸ h))

/-! ## Runs that come to an end -/

/-- No step can be taken. -/
def Final (S : System σ α) (s : σ) : Prop := ∀ a s', ¬ S.step s a s'

/-- The runs from `s` all come to an end, and it is `t`. -/
structure CompletesAt (S : System σ α) (s t : σ) : Prop where
  /-- No run goes on for ever. -/
  length_le : ∃ n, ∀ as s', S.Run s as s' → as.length ≤ n
  /-- A run that cannot go on has come to `t`. -/
  eq_of_final : ∀ as s', S.Run s as s' → S.Final s' → s' = t

/-- A label is of one step at most, and steps of different labels do not get in
    each other's way. -/
structure Commutes (S : System σ α) : Prop where
  unique : ∀ s a s₁ s₂, S.step s a s₁ → S.step s a s₂ → s₁ = s₂
  comm : ∀ s a b s₁ s₂, a ≠ b → S.step s a s₁ → S.step s b s₂ →
    ∃ t, S.step s₁ b t ∧ S.step s₂ a t

/-- A run without steps is at its end. -/
theorem Run.eq_of_nil {s t : σ} (h : S.Run s [] t) : s = t := by
  generalize hl : ([] : List α) = l at h
  cases h with
  | nil => rfl
  | snoc => simp at hl

/-- The first step of a run. -/
theorem Run.uncons {s t : σ} {a : α} {as : List α} (h : S.Run s (a :: as) t) :
    ∃ s', S.step s a s' ∧ S.Run s' as t := by
  generalize hl : a :: as = l at h
  induction h generalizing as with
  | nil => cases hl
  | @snoc t t' l b hrun hb ih =>
    rcases l with _ | ⟨a', l⟩
    -- The run has one step, or its first step is that of the run before its last one.
    · obtain ⟨rfl, rfl⟩ : a = b ∧ as = [] := by simpa using hl
      rw [hrun.eq_of_nil]
      exact ⟨_, hb, .nil _⟩
    · obtain ⟨rfl, rfl⟩ : a = a' ∧ as = l ++ [b] := by simpa using hl
      obtain ⟨s', ha, hrun'⟩ := ih rfl
      exact ⟨s', ha, .snoc hrun' hb⟩

/-- A run, and then another. -/
theorem Run.append {s t u : σ} {as bs : List α} (h : S.Run s as t) (h' : S.Run t bs u) :
    S.Run s (as ++ bs) u := by
  induction h' with
  | nil => rwa [List.append_nil]
  | snoc _ hb ih =>
    rw [← List.append_assoc]
    exact .snoc ih hb

variable (hS : S.Commutes)
include hS

/-- A step taken first leaves one step less to the end of a run. -/
theorem Commutes.run_step {s s₁ t : σ} {as : List α} {a : α} (h : S.Run s as t) (ht : S.Final t)
    (ha : S.step s a s₁) : ∃ bs, S.Run s₁ bs t ∧ bs.length + 1 = as.length := by
  induction as generalizing s s₁ with
  | nil =>
    obtain rfl := h.eq_of_nil
    exact absurd ha (ht a s₁)
  | cons b as ih =>
    obtain ⟨s₂, hb, hrun⟩ := h.uncons
    -- The step is the first one of the run, or it can be taken after it.
    by_cases hab : a = b
    · subst hab
      rw [hS.unique _ _ _ _ ha hb]
      exact ⟨as, hrun, rfl⟩
    · obtain ⟨u, hb', ha'⟩ := hS.comm _ _ _ _ _ hab ha hb
      obtain ⟨bs, hbs, hlen⟩ := ih hrun ha'
      exact ⟨b :: bs, .cons hb' hbs, by rw [List.length_cons, List.length_cons, hlen]⟩

/-- What has been run of any other run leaves the rest to the end. -/
theorem Commutes.run_rest {s s' t : σ} {as bs : List α} (h : S.Run s as t) (ht : S.Final t)
    (h' : S.Run s bs s') : ∃ cs, S.Run s' cs t ∧ bs.length + cs.length = as.length := by
  induction h' with
  | nil => exact ⟨as, h, by rw [List.length_nil, Nat.zero_add]⟩
  | snoc _ ha ih =>
    obtain ⟨cs, hcs, hlen⟩ := ih
    obtain ⟨ds, hds, hlen'⟩ := hS.run_step hcs ht ha
    refine ⟨ds, hds, ?_⟩
    rw [List.length_append, List.length_singleton]
    omega

/-- When the steps commute, and one run comes to an end, all of them do, and at
    the same state. -/
theorem Run.completesAt {s t : σ} {as : List α} (h : S.Run s as t) (ht : S.Final t) :
    S.CompletesAt s t where
  length_le := by
    refine ⟨as.length, fun bs s' hrun => ?_⟩
    obtain ⟨cs, -, hlen⟩ := hS.run_rest h ht hrun
    omega
  eq_of_final bs s' hrun hs' := by
    obtain ⟨cs, hcs, -⟩ := hS.run_rest h ht hrun
    rcases cs with _ | ⟨a, cs⟩
    · exact hcs.eq_of_nil
    · obtain ⟨u, ha, -⟩ := hcs.uncons
      exact absurd ha (hs' a u)

end System

end SecNet
