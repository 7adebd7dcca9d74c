import Mathlib.Tactic

/-!
# Plans

What a handler does once it has accepted a request: steps that change the state, one after
the other, each of which may raise instead of returning. What the steps before it have done
stays done.

* `run_snd_eq_ok`: a plan returns when all its steps do;
* `harmless_iff`: a plan whose first step leaves a trace raises without a trace just when
  no step after the first one raises;
* `run_fst_eq_iff`: steps that only add to the state leave it as it was just when none of
  those that are carried out changes it;
* `serve_harmless_iff`: rendering what a handler answers is one more step of its plan.
-/

namespace SecNet

variable {ε σ τ α β γ : Type}

/-- A step: what it returns or raises, and what it does to the state when it returns. -/
structure PlanStep (ε σ : Type) where
  outcome : Except ε Unit
  effect : σ → σ

/-- Steps, one after the other. -/
abbrev Plan (ε σ : Type) := List (PlanStep ε σ)

namespace Plan

/-- The state that the steps leave, up to the first one that raises. -/
def run (s : σ) : Plan ε σ → σ × Except ε Unit
  | [] => (s, .ok ())
  | x :: p =>
    match x.outcome with
    | .ok () => run (x.effect s) p
    | .error e => (s, .error e)

/-- A handler: it checks its request, carries out a plan, and answers. -/
def handle (checked : Except ε α) (plan : α → Plan ε σ) (answer : α → β) (s : σ) :
    σ × Except ε β :=
  match checked with
  | .error e => (s, .error e)
  | .ok a => ((plan a).run s).map id fun outcome => outcome.map fun () => answer a

/-- A handler whose answer is then rendered, which may raise too. -/
def serve (checked : Except ε α) (plan : α → Plan ε σ) (answer : α → β) (render : β → Except ε γ)
    (s : σ) : σ × Except ε γ :=
  (handle checked plan answer s).map id fun result => result >>= render

/-- Rendering, as a step. -/
def renderStep (render : β → Except ε γ) (b : β) : PlanStep ε σ :=
  ⟨(render b).map fun _ => (), id⟩

/-- All steps return. -/
def Returns (p : Plan ε σ) : Prop := ∀ x ∈ p, x.outcome = .ok ()

/-- Once the first step has returned, the others return too. -/
def AllOrNothing : Plan ε σ → Prop
  | [] => True
  | x :: p => x.outcome = .ok () → Returns p

variable {s : σ} {x : PlanStep ε σ} {p : Plan ε σ}

theorem run_cons_of_ok (h : x.outcome = .ok ()) : run s (x :: p) = run (x.effect s) p := by
  rw [run, h]

theorem run_cons_of_error {e : ε} (h : x.outcome = .error e) :
    run s (x :: p) = (s, .error e) := by
  rw [run, h]

/-- A plan returns when all its steps do. -/
theorem run_snd_eq_ok : (run s p).2 = .ok () ↔ p.Returns := by
  induction p generalizing s with
  | nil => exact iff_of_true rfl nofun
  | cons x p ih =>
    rw [Returns, List.forall_mem_cons]
    rcases hx : x.outcome with e | ⟨⟩
    · rw [run_cons_of_error hx]
      exact iff_of_false nofun fun h => nomatch h.1
    · rw [run_cons_of_ok hx, ih]
      exact (and_iff_right rfl).symm

/-- What every step keeps, a plan keeps, wherever it ends. -/
theorem run_invariant {I : σ → Prop} (hstep : ∀ x ∈ p, ∀ s, I s → I (x.effect s)) (hs : I s) :
    I (run s p).1 := by
  induction p generalizing s with
  | nil => exact hs
  | cons x p ih =>
    rw [List.forall_mem_cons] at hstep
    rcases hx : x.outcome with e | ⟨⟩
    · rw [run_cons_of_error hx]
      exact hs
    · rw [run_cons_of_ok hx]
      exact ih hstep.2 (hstep.1 s hs)

/-- What a plan leaves when all its steps return. -/
theorem run_of_returns (h : p.Returns) :
    run s p = (p.foldl (fun s x => x.effect s) s, .ok ()) := by
  induction p generalizing s with
  | nil => rfl
  | cons x p ih =>
    rw [Returns, List.forall_mem_cons] at h
    rw [run_cons_of_ok h.1, ih h.2, List.foldl_cons]

/-- The steps that are carried out: those before the first one that raises. -/
def done (p : Plan ε σ) : Plan ε σ := p.takeWhile fun x => x.outcome.toBool

/-- A plan whose steps make the state larger, if they change it, leaves it as it was just when no
    step that is carried out changes it. -/
theorem run_fst_eq_iff (size : σ → ℕ)
    (hgrow : ∀ x ∈ p, ∀ s, x.effect s = s ∨ size s < size (x.effect s)) :
    (run s p).1 = s ↔ ∀ x ∈ p.done, x.effect s = s := by
  induction p with
  | nil => exact iff_of_true rfl nofun
  | cons x p ih =>
    rw [List.forall_mem_cons] at hgrow
    rcases hx : x.outcome with e | ⟨⟩
    · rw [run_cons_of_error hx, done, List.takeWhile_cons, hx]
      exact iff_of_true rfl nofun
    · rw [run_cons_of_ok hx, done, List.takeWhile_cons, hx, ← done]
      simp only [Except.toBool, if_true, List.forall_mem_cons]
      rcases hgrow.1 s with heq | hlt
      · rw [heq, ih hgrow.2]
        exact (and_iff_right rfl).symm
      · refine iff_of_false (fun h => ?_) fun h => hlt.ne (congrArg size h.1.symm)
        have hle : size (x.effect s) ≤ size (run (x.effect s) p).1 :=
          run_invariant (I := fun t => size (x.effect s) ≤ size t)
            (fun y hy t ht => by
              rcases hgrow.2 y hy t with heq | hlt
              · rwa [heq]
              · exact ht.trans hlt.le) le_rfl
        rw [h] at hle
        omega

/-- A plan whose first step makes what is observed of the state larger, and whose other
    steps make it no smaller, raises without a trace just when only its first step can. -/
theorem harmless_iff (obs : σ → τ) (size : τ → ℕ)
    (hfirst : ∀ x ∈ p.head?, ∀ s, size (obs s) < size (obs (x.effect s)))
    (hrest : ∀ x ∈ p.tail, ∀ s, size (obs s) ≤ size (obs (x.effect s))) :
    (∀ e, (run s p).2 = .error e → obs (run s p).1 = obs s) ↔ p.AllOrNothing := by
  rcases p with _ | ⟨x, p⟩
  · exact iff_of_true nofun trivial
  rcases hx : x.outcome with e | ⟨⟩
  · rw [run_cons_of_error hx, AllOrNothing, hx]
    exact iff_of_true (fun _ _ => rfl) nofun
  rw [run_cons_of_ok hx, AllOrNothing, hx]
  constructor
  · intro h _
    rw [← run_snd_eq_ok (s := x.effect s)]
    rcases hrun : (run (x.effect s) p).2 with e | ⟨⟩
    · -- What the first step has left is still there.
      have hlt := hfirst x rfl s
      have hle : size (obs (x.effect s)) ≤ size (obs (run (x.effect s) p).1) :=
        run_invariant (I := fun t => size (obs (x.effect s)) ≤ size (obs t))
          (fun y hy t ht => ht.trans (hrest y hy t)) le_rfl
      rw [h e hrun] at hle
      omega
    · rfl
  · intro h e he
    rw [run_snd_eq_ok.2 (h rfl)] at he
    cases he

/-- What a handler answers, and what it leaves. -/
theorem handle_of_ok {checked : Except ε α} {plan : α → Plan ε σ} {answer : α → β} {a : α}
    (h : checked = .ok a) : handle checked plan answer s =
      (((plan a).run s).1, ((plan a).run s).2.map fun () => answer a) := by
  rw [h]
  rfl

theorem handle_of_error {checked : Except ε α} {plan : α → Plan ε σ} {answer : α → β} {e : ε}
    (h : checked = .error e) : handle checked plan answer s = (s, .error e) := by
  rw [h]
  rfl

/-- What a handler that answers has checked and done. -/
theorem handle_eq_ok {checked : Except ε α} {plan : α → Plan ε σ} {answer : α → β} {b : β} :
    (handle checked plan answer s).2 = .ok b ↔
      ∃ a, checked = .ok a ∧ (plan a).Returns ∧ answer a = b := by
  rcases checked with e | a
  · exact iff_of_false nofun fun ⟨_, h, _⟩ => nomatch h
  · rw [handle_of_ok rfl]
    have hreturns := run_snd_eq_ok (s := s) (p := plan a)
    rcases hrun : ((plan a).run s).2 with e | ⟨⟩
    · rw [hrun] at hreturns
      refine iff_of_false nofun ?_
      rintro ⟨_, ⟨rfl⟩, h, -⟩
      cases hreturns.2 h
    · constructor
      · intro h
        exact ⟨a, rfl, hreturns.1 hrun, Except.ok.inj h⟩
      · rintro ⟨_, ⟨rfl⟩, -, rfl⟩
        rfl

/-- A handler that answers with an error has left no trace, just when the plans it carries
    out raise at their first step or not at all. -/
theorem handle_harmless_iff {checked : Except ε α} {plan : α → Plan ε σ} {answer : α → β}
    (obs : σ → τ) (size : τ → ℕ)
    (hfirst : ∀ a, ∀ x ∈ (plan a).head?, ∀ s, size (obs s) < size (obs (x.effect s)))
    (hrest : ∀ a, ∀ x ∈ (plan a).tail, ∀ s, size (obs s) ≤ size (obs (x.effect s))) :
    (∀ e, (handle checked plan answer s).2 = .error e →
      obs (handle checked plan answer s).1 = obs s) ↔
      ∀ a, checked = .ok a → (plan a).AllOrNothing := by
  rcases hchecked : checked with e | a
  · rw [handle_of_error rfl]
    exact iff_of_true (fun _ _ => rfl) nofun
  · rw [handle_of_ok rfl]
    have hplan := harmless_iff (s := s) obs size (hfirst a) (hrest a)
    constructor
    · rintro h _ ⟨rfl⟩
      refine hplan.1 fun e he => h e ?_
      rw [he]
      rfl
    · intro h e he
      refine hplan.2 (h a rfl) e ?_
      rcases hrun : ((plan a).run s).2 with e' | ⟨⟩
      · rw [hrun] at he
        exact congrArg _ (Except.error.inj he)
      · rw [hrun] at he
        cases he

/-! ## Rendering -/

theorem renderStep_outcome {render : β → Except ε γ} {b : β} :
    (renderStep (σ := σ) render b).outcome = .ok () ↔ ∃ c, render b = .ok c := by
  rw [renderStep]
  rcases render b with e | c
  · exact iff_of_false nofun fun ⟨_, h⟩ => nomatch h
  · exact iff_of_true rfl ⟨c, rfl⟩

/-- A last step that leaves the state. -/
theorem run_concat (h : x.effect = id) :
    run s (p ++ [x]) = ((run s p).1, (run s p).2 >>= fun _ => x.outcome) := by
  induction p generalizing s with
  | nil =>
    rcases hx : x.outcome with e | ⟨⟩
    · rw [List.nil_append, run_cons_of_error hx]
      rfl
    · rw [List.nil_append, run_cons_of_ok hx, h]
      rfl
  | cons y p ih =>
    rw [List.cons_append]
    rcases hy : y.outcome with e | ⟨⟩
    · rw [run_cons_of_error hy, run_cons_of_error hy]
      rfl
    · rw [run_cons_of_ok hy, run_cons_of_ok hy, ih]

/-- A handler whose answer is rendered does what one with the step of rendering does, and raises
    when that one does. -/
theorem serve_eq (checked : Except ε α) (plan : α → Plan ε σ) (answer : α → β)
    (render : β → Except ε γ) (s : σ) :
    (serve checked plan answer render s).1 =
      (handle checked (fun a => plan a ++ [renderStep render (answer a)]) answer s).1 ∧
    ∀ e, (serve checked plan answer render s).2 = .error e ↔
      (handle checked (fun a => plan a ++ [renderStep render (answer a)]) answer s).2 =
        .error e := by
  -- The answers differ, the errors are the same.
  have hsame (e e' : ε) :
      (.error e : Except ε γ) = .error e' ↔ (.error e : Except ε β) = .error e' := by
    rw [Except.error.injEq, Except.error.injEq]
  rcases checked with e | a
  · exact ⟨rfl, hsame e⟩
  · rw [serve, handle_of_ok rfl, handle_of_ok rfl, run_concat rfl]
    refine ⟨rfl, fun e => ?_⟩
    rcases (run s (plan a)).2 with e' | ⟨⟩
    · exact hsame e' e
    · rw [renderStep]
      have hresult (r : Except ε γ) : r = .error e ↔
          (r.map fun _ => ()).map (fun () => answer a) = .error e := by
        rcases r with e' | c
        · exact hsame e' e
        · exact iff_of_false nofun nofun
      exact hresult _

/-- A handler that answers with an error has left no trace, just when its plan, with the rendering
    of its answer, raises at its first step or not at all. -/
theorem serve_harmless_iff {checked : Except ε α} {plan : α → Plan ε σ} {answer : α → β}
    {render : β → Except ε γ} (obs : σ → τ) (size : τ → ℕ) (hne : ∀ a, plan a ≠ [])
    (hfirst : ∀ a, ∀ x ∈ (plan a).head?, ∀ s, size (obs s) < size (obs (x.effect s)))
    (hrest : ∀ a, ∀ x ∈ (plan a).tail, ∀ s, size (obs s) ≤ size (obs (x.effect s))) :
    (∀ e, (serve checked plan answer render s).2 = .error e →
      obs (serve checked plan answer render s).1 = obs s) ↔
      ∀ a, checked = .ok a → (plan a ++ [renderStep render (answer a)]).AllOrNothing := by
  obtain ⟨hstate, hraises⟩ := serve_eq checked plan answer render s
  simp only [hraises, hstate]
  refine handle_harmless_iff obs size (fun a x hx => ?_) fun a x hx s => ?_
  · rw [List.head?_append_of_ne_nil _ (hne a)] at hx
    exact hfirst a x hx
  · rw [List.tail_append_of_ne_nil (hne a), List.mem_append, List.mem_singleton] at hx
    rcases hx with hx | rfl
    · exact hrest a x hx s
    · exact le_rfl

end Plan

end SecNet
