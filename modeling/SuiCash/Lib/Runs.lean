import Mathlib.Tactic.Common

/-!
# Runs of a partial step function

A step function says what an event does to a state, and `none` where the event
cannot happen.  A run is a list of events, each possible after the one before.

`Along C` says that a condition on the state and the next event holds at every step
of a run, and `invariant` is the rule for it: what the steps under the condition
preserve holds at the end, so after every prefix.  Two conditions that agree wherever an
invariant holds agree along every run (`along_congr`).
-/

namespace Runs

variable {σ ε : Type} (step : σ → ε → Option σ)

/-- The state after a list of events. -/
def run (s : σ) (es : List ε) : Option σ := es.foldlM step s

@[simp] theorem run_nil (s : σ) : run step s [] = some s := rfl

@[simp] theorem run_cons (s : σ) (e : ε) (es : List ε) :
    run step s (e :: es) = (step s e).bind fun s' => run step s' es := rfl

theorem run_append (s : σ) (es es' : List ε) :
    run step s (es ++ es') = (run step s es).bind fun s' => run step s' es' :=
  List.foldlM_append

def Along (C : σ → ε → Prop) : σ → List ε → Prop
  | _, [] => True
  | s, e :: es => C s e ∧ ∀ s', step s e = some s' → Along C s' es

theorem along_append {C : σ → ε → Prop} {s : σ} {es es' : List ε} :
    Along step C s (es ++ es')
      ↔ Along step C s es ∧ ∀ s', run step s es = some s' → Along step C s' es' := by
  induction es generalizing s with
  | nil => simp [Along]
  | cons e es ih =>
    simp only [List.cons_append, Along, ih, run_cons, Option.bind_eq_some_iff, and_assoc]
    refine and_congr_right fun _ => ⟨fun h => ⟨fun s' hs => (h s' hs).1, ?_⟩, fun h s1 h1 => ?_⟩
    · rintro s' ⟨s1, h1, hrun⟩
      exact (h s1 h1).2 s' hrun
    · exact ⟨h.1 s1 h1, fun s' hrun => h.2 s' ⟨s1, h1, hrun⟩⟩

theorem run_of_total {f : σ → ε → σ} (h : ∀ s e, step s e = some (f s e)) (s : σ) (es : List ε) :
    run step s es = some (es.foldl f s) := by
  induction es generalizing s with
  | nil => rfl
  | cons e es ih => rw [run_cons, h, Option.bind_some, ih, List.foldl_cons]

theorem along_true (s : σ) (es : List ε) : Along step (fun _ _ => True) s es := by
  induction es generalizing s with
  | nil => trivial
  | cons e es ih => exact ⟨trivial, fun s' _ => ih s'⟩

instance decidableAlong (C : σ → ε → Prop) [∀ s e, Decidable (C s e)] :
    ∀ s es, Decidable (Along step C s es)
  | _, [] => .isTrue trivial
  | s, e :: es =>
    match h : step s e with
    | none => decidable_of_iff (C s e) (by simp [Along, h])
    | some s' =>
      have := decidableAlong C s' es
      decidable_of_iff (C s e ∧ Along step C s' es) (by simp [Along, h])

variable {step}

/-- **Invariant rule under a condition** on the steps of the run. -/
theorem invariant {C : σ → ε → Prop} {I : σ → Prop}
    (hstep : ∀ {s e s'}, step s e = some s' → C s e → I s → I s') {s s' : σ} {es : List ε}
    (hC : Along step C s es) (h : I s) (hrun : run step s es = some s') : I s' := by
  induction es generalizing s with
  | nil =>
    cases hrun
    exact h
  | cons e es ih =>
    rw [run_cons, Option.bind_eq_some_iff] at hrun
    obtain ⟨s1, h1, hrun⟩ := hrun
    exact ih (hC.2 s1 h1) (hstep h1 hC.1 h) hrun

/-- Conditions that an invariant makes equivalent hold along the same runs; the invariant may
rest on the first. -/
theorem along_congr {C C' : σ → ε → Prop} {I : σ → Prop}
    (hstep : ∀ {s e s'}, step s e = some s' → C s e → I s → I s')
    (hC : ∀ {s}, I s → ∀ e, C s e ↔ C' s e) {s : σ} (h : I s) (es : List ε) :
    Along step C s es ↔ Along step C' s es := by
  induction es generalizing s with
  | nil => exact Iff.rfl
  | cons e es ih =>
    rw [Along, Along, ← hC h e]
    exact and_congr_right fun hCe => forall_congr' fun s' => forall_congr' fun hs =>
      ih (hstep hs hCe h)

/-- **Invariant rule.** -/
theorem invariant_run {I : σ → Prop} (hstep : ∀ {s e s'}, step s e = some s' → I s → I s')
    {s s' : σ} {es : List ε} (h : I s) (hrun : run step s es = some s') : I s' :=
  invariant (fun hs _ => hstep hs) (along_true step s es) h hrun

end Runs
