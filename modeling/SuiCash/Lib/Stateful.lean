import Mathlib.Tactic.Common

/-!
# Computations with a state that can stop

A computation that changes a state and may stop with an error.  The state it has reached by
then stays, as after a call that returns early.

Two notions with a rule for each way of putting computations together: `Keeps` says that a
computation keeps an invariant, whatever comes of it, and `Respects` that related states
give the same outcome, and related states again where a value is returned.
-/

/-- A computation with a state of type `σ`, errors in `ε` and values in `α`. -/
def Stateful (σ ε α : Type) : Type := σ → Except ε α × σ

namespace Stateful

variable {σ ε α β : Type}

instance : Monad (Stateful σ ε) where
  pure a s := (.ok a, s)
  bind m f s :=
    match m s with
    | (.ok a, s') => f a s'
    | (.error e, s') => (.error e, s')

def get : Stateful σ ε σ := fun s => (.ok s, s)

def modify (f : σ → σ) : Stateful σ ε Unit := fun s => (.ok (), f s)

def throw (e : ε) : Stateful σ ε α := fun s => (.error e, s)

def lift (x : Except ε α) : Stateful σ ε α := fun s => (x, s)

def orElse (x : Option α) (e : ε) : Stateful σ ε α := lift (x.elim (.error e) .ok)

@[simp] theorem pure_apply (a : α) (s : σ) : (pure a : Stateful σ ε α) s = (.ok a, s) := rfl

@[simp] theorem throw_apply (e : ε) (s : σ) : (throw e : Stateful σ ε α) s = (.error e, s) := rfl

@[simp] theorem lift_apply (x : Except ε α) (s : σ) : (lift x : Stateful σ ε α) s = (x, s) := rfl

theorem bind_of_ok {m : Stateful σ ε α} {f : α → Stateful σ ε β} {s s' : σ} {a : α}
    (h : m s = (.ok a, s')) : (m >>= f) s = f a s' := by
  show (match m s with
    | (.ok a, s') => f a s'
    | (.error e, s') => (.error e, s')) = _
  rw [h]

theorem bind_of_error {m : Stateful σ ε α} {f : α → Stateful σ ε β} {s s' : σ} {e : ε}
    (h : m s = (.error e, s')) : (m >>= f) s = (.error e, s') := by
  show (match m s with
    | (.ok a, s') => f a s'
    | (.error e, s') => (.error e, s')) = _
  rw [h]

theorem bind_eq_ok {m : Stateful σ ε α} {f : α → Stateful σ ε β} {s s' : σ} {b : β} :
    (m >>= f) s = (.ok b, s') ↔ ∃ a s1, m s = (.ok a, s1) ∧ f a s1 = (.ok b, s') := by
  rcases hm : m s with ⟨e | a, s1⟩
  · rw [bind_of_error hm]
    constructor
    · intro h
      cases h
    · rintro ⟨a, s2, h, -⟩
      cases h
  · rw [bind_of_ok hm]
    constructor
    · intro h
      exact ⟨a, s1, rfl, h⟩
    · rintro ⟨a', s2, h, hf⟩
      cases h
      exact hf

/-! ### Invariants -/

/-- The computation keeps the invariant, whatever comes of it. -/
def Keeps (I : σ → Prop) (m : Stateful σ ε α) : Prop := ∀ ⦃s⦄, I s → I (m s).2

section Keeps

variable {I : σ → Prop} {m : Stateful σ ε α} {f : α → Stateful σ ε β}

theorem keeps_pure (a : α) : Keeps I (pure a : Stateful σ ε α) := fun _ h => h

theorem keeps_get : Keeps I (get : Stateful σ ε σ) := fun _ h => h

theorem keeps_throw (e : ε) : Keeps I (throw e : Stateful σ ε α) := fun _ h => h

theorem keeps_lift (x : Except ε α) : Keeps I (lift x : Stateful σ ε α) := fun _ h => h

theorem keeps_modify {g : σ → σ} (h : ∀ s, I s → I (g s)) :
    Keeps I (modify g : Stateful σ ε Unit) := fun s hs => h s hs

/-- What comes next may rest on how its start was reached. -/
theorem Keeps.bind_of (hm : Keeps I m) (hf : ∀ s a s', I s → m s = (.ok a, s') → I s' →
    I (f a s').2) : Keeps I (m >>= f) := by
  intro s hs
  have hnext := hm hs
  rcases hms : m s with ⟨e | a, s'⟩
  · rw [bind_of_error hms]
    rwa [hms] at hnext
  · rw [bind_of_ok hms]
    rw [hms] at hnext
    exact hf s a s' hs hms hnext

theorem Keeps.bind (hm : Keeps I m) (hf : ∀ a, Keeps I (f a)) : Keeps I (m >>= f) :=
  hm.bind_of fun _ a _ _ _ hs' => hf a hs'

end Keeps

/-! ### Related states -/

/-- Related states give the same outcome, and related states where it is a value. -/
def Respects (R : σ → σ → Prop) (m : Stateful σ ε α) : Prop :=
  ∀ ⦃s t⦄, R s t → (m s).1 = (m t).1 ∧ ∀ a, (m s).1 = .ok a → R (m s).2 (m t).2

section Respects

variable {R : σ → σ → Prop} {m : Stateful σ ε α} {f : α → Stateful σ ε β}

theorem respects_pure (a : α) : Respects R (pure a : Stateful σ ε α) :=
  fun _ _ h => ⟨rfl, fun _ _ => h⟩

theorem respects_lift (x : Except ε α) : Respects R (lift x : Stateful σ ε α) :=
  fun _ _ h => ⟨rfl, fun _ _ => h⟩

theorem respects_throw (e : ε) : Respects R (throw e : Stateful σ ε α) :=
  fun _ _ h => ⟨rfl, fun _ _ => h⟩

theorem Respects.bind (hm : Respects R m) (hf : ∀ a, Respects R (f a)) :
    Respects R (m >>= f) := by
  intro s t hst
  obtain ⟨hout, hnext⟩ := hm hst
  rcases hs : m s with ⟨e | a, s'⟩ <;> rcases ht : m t with ⟨e' | a', t'⟩ <;>
    rw [hs, ht] at hout <;> cases hout
  · rw [bind_of_error hs, bind_of_error ht]
    exact ⟨rfl, fun b hb => by cases hb⟩
  · rw [bind_of_ok hs, bind_of_ok ht]
    have hst' := hnext a (by rw [hs])
    rw [hs, ht] at hst'
    exact hf a hst'

end Respects

end Stateful
