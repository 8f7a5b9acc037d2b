import Mathlib.Tactic.Common

/-!
# Interleaved threads

Threads that share one world.  A thread is a role and a list of work: atomic
actions still to be done, first one first.  An action changes the world, may put
more work in front of its thread's and may start threads.  An idle thread takes on
the work of a call that its role can make.  What the world outside answers is an
input of the step, so a schedule is a list of labels and a run is a fold over it;
a label that nothing can do leaves the state as it is.

* `Program.step_cases`: what one step can have done, in terms of the world and of
  the pending work.
* `Program.Invariant`: a property of the world and of the pending work, in whatever
  order, which calls and actions preserve.  An action may be granted a condition.
* `Program.Invariant.run`, `Program.Invariant.along`: an invariant of steps is one of
  runs, over all schedules or over those whose actions all meet their condition.
-/

namespace Threads

variable {σ ρ κ ι α : Type}

/-- What an action does: the world it leaves, the work it puts in front of its
thread's, and the threads it starts. -/
structure Outcome (σ ρ α : Type) where
  world : σ
  next : List α
  spawned : List (ρ × List α)

def Outcome.work (o : Outcome σ ρ α) : List α := o.next ++ o.spawned.flatMap Prod.snd

/-- Actions, and the calls that put them into threads. -/
structure Program (σ ρ κ ι α : Type) where
  /-- The work of a call; `none` where the role cannot make it. -/
  call : ρ → κ → σ → Option (List α)
  exec : α → ι → σ → Outcome σ ρ α

structure State (σ ρ α : Type) where
  world : σ
  threads : List (ρ × List α)

/-- One choice of the scheduler: a call into a thread, or a thread's next action with
what it is answered. -/
inductive Label (κ ι : Type) where
  | call (thread : ℕ) (k : κ)
  | run (thread : ℕ) (x : ι)

namespace State

variable (s : State σ ρ α)

def pending : List α := s.threads.flatMap Prod.snd

/-- The action a label runs, what it is answered, and all the work that is left
besides. -/
def next? (l : Label κ ι) : Option (α × ι × List α) :=
  match l with
  | .call _ _ => none
  | .run i x =>
    match s.threads[i]? with
    | some (r, a :: rest) => some (a, x, (s.threads.set i (r, rest)).flatMap Prod.snd)
    | _ => none

end State

namespace Program

variable (P : Program σ ρ κ ι α)

def step (s : State σ ρ α) : Label κ ι → State σ ρ α
  | .call i k =>
    match s.threads[i]? with
    | some (r, []) =>
      match P.call r k s.world with
      | some work => { s with threads := s.threads.set i (r, work) }
      | none => s
    | _ => s
  | .run i x =>
    match s.threads[i]? with
    | some (r, a :: rest) =>
      let o := P.exec a x s.world
      ⟨o.world, s.threads.set i (r, o.next ++ rest) ++ o.spawned⟩
    | _ => s

def run (s : State σ ρ α) (ls : List (Label κ ι)) : State σ ρ α := ls.foldl P.step s

end Program

/-! ### What one step does -/

theorem exists_split {τ : Type} {l : List τ} {i : ℕ} {t : τ} (h : l[i]? = some t) :
    ∃ before after, l = before ++ t :: after ∧ before.length = i := by
  obtain ⟨hi, rfl⟩ := List.getElem?_eq_some_iff.mp h
  refine ⟨l.take i, l.drop (i + 1), ?_, List.length_take_of_le (Nat.le_of_lt hi)⟩
  rw [List.getElem_cons_drop, List.take_append_drop]

theorem set_split {τ : Type} (before after : List τ) (t t' : τ) :
    (before ++ t :: after).set before.length t' = before ++ t' :: after := by
  rw [List.set_append_right _ _ (Nat.le_refl _), Nat.sub_self, List.set_cons_zero]

namespace Program

variable {P : Program σ ρ κ ι α}

/-- **One step**: nothing, work taken on by an idle thread, or the next action of a
thread. -/
theorem step_cases (P : Program σ ρ κ ι α) (s : State σ ρ α) (l : Label κ ι) :
    P.step s l = s
    ∨ (∃ r k work, P.call r k s.world = some work
      ∧ (P.step s l).world = s.world ∧ (P.step s l).pending.Perm (work ++ s.pending))
    ∨ ∃ a x others, s.next? l = some (a, x, others) ∧ s.pending.Perm (a :: others)
      ∧ (P.step s l).world = (P.exec a x s.world).world
      ∧ (P.step s l).pending.Perm ((P.exec a x s.world).work ++ others) := by
  obtain ⟨w, threads⟩ := s
  cases l with
  | call i k =>
    rcases hget : threads[i]? with _ | ⟨r, _ | ⟨a, rest⟩⟩
    · exact .inl (by simp only [step, hget])
    · cases hcall : P.call r k w with
      | none => exact .inl (by simp only [step, hget, hcall])
      | some work =>
        refine .inr (.inl ⟨r, k, work, hcall, ?_, ?_⟩)
        · simp only [step, hget, hcall]
        · simp only [step, hget, hcall]
          obtain ⟨before, after, rfl, rfl⟩ := exists_split hget
          simp only [State.pending, set_split, List.flatMap_append, List.flatMap_cons, List.nil_append]
          exact List.perm_append_comm_assoc _ _ _
    · exact .inl (by simp only [step, hget])
  | run i x =>
    rcases hget : threads[i]? with _ | ⟨r, _ | ⟨a, rest⟩⟩
    · exact .inl (by simp only [step, hget])
    · exact .inl (by simp only [step, hget])
    · refine .inr (.inr ⟨a, x, _, by simp only [State.next?, hget]; rfl, ?_, ?_, ?_⟩)
      · obtain ⟨before, after, rfl, rfl⟩ := exists_split hget
        simp only [State.pending, set_split, List.flatMap_append, List.flatMap_cons,
          List.cons_append]
        exact List.perm_middle
      · simp only [step, hget]
      · simp only [step, hget]
        obtain ⟨before, after, rfl, rfl⟩ := exists_split hget
        simp only [State.pending, Outcome.work, set_split, List.flatMap_append, List.flatMap_cons,
          List.append_assoc]
        refine (List.perm_append_comm_assoc _ _ _).trans (List.Perm.append_left _ ?_)
        rw [← List.append_assoc rest, ← List.append_assoc (before.flatMap Prod.snd)]
        exact List.perm_append_comm

theorem step_world (P : Program σ ρ κ ι α) (s : State σ ρ α) (l : Label κ ι) :
    (P.step s l).world
      = match s.next? l with
        | some (a, x, _) => (P.exec a x s.world).world
        | none => s.world := by
  cases l with
  | call i k =>
    simp only [step, State.next?]
    split
    · split <;> rfl
    · rfl
  | run i x =>
    rcases hget : s.threads[i]? with _ | ⟨r, _ | ⟨a, rest⟩⟩ <;> simp only [step, State.next?, hget]

/-! ### Runs -/

@[simp] theorem run_nil (s : State σ ρ α) : P.run s [] = s := rfl

@[simp] theorem run_cons (s : State σ ρ α) (l : Label κ ι) (ls : List (Label κ ι)) :
    P.run s (l :: ls) = P.run (P.step s l) ls := rfl

theorem run_append (s : State σ ρ α) (ls ls' : List (Label κ ι)) :
    P.run s (ls ++ ls') = P.run (P.run s ls) ls' := List.foldl_append

/-- The action a label runs meets the condition, in the world it is done in and with the
work that is left besides. -/
def Meets (C : σ → α → List α → Prop) (s : State σ ρ α) (l : Label κ ι) : Prop :=
  ∀ next ∈ s.next? l, C s.world next.1 next.2.2

instance (C : σ → α → List α → Prop) [∀ w a others, Decidable (C w a others)]
    (s : State σ ρ α) (l : Label κ ι) : Decidable (Meets C s l) :=
  inferInstanceAs (Decidable (∀ next ∈ s.next? l, _))

/-- Every action of a run meets the condition. -/
def Along (P : Program σ ρ κ ι α) (C : σ → α → List α → Prop) :
    State σ ρ α → List (Label κ ι) → Prop
  | _, [] => True
  | s, l :: ls => Meets C s l ∧ Along P C (P.step s l) ls

instance decidableAlong (C : σ → α → List α → Prop) [∀ w a others, Decidable (C w a others)] :
    ∀ s ls, Decidable (Along P C s ls)
  | _, [] => .isTrue trivial
  | s, l :: ls =>
    have := decidableAlong C (P.step s l) ls
    inferInstanceAs (Decidable (_ ∧ _))

theorem along_true (s : State σ ρ α) (ls : List (Label κ ι)) :
    P.Along (fun _ _ _ => True) s ls := by
  induction ls generalizing s with
  | nil => trivial
  | cons l ls ih => exact ⟨fun _ _ => trivial, ih _⟩

theorem along_cons {C : σ → α → List α → Prop} {s : State σ ρ α} {l : Label κ ι}
    {ls : List (Label κ ι)} :
    P.Along C s (l :: ls) ↔ Meets C s l ∧ P.Along C (P.step s l) ls := Iff.rfl

theorem along_append {C : σ → α → List α → Prop} {s : State σ ρ α} {ls ls' : List (Label κ ι)} :
    P.Along C s (ls ++ ls') ↔ P.Along C s ls ∧ P.Along C (P.run s ls) ls' := by
  induction ls generalizing s with
  | nil => exact (and_iff_right trivial).symm
  | cons l ls ih => exact (and_congr_right fun _ => ih).trans and_assoc.symm

/-- What calls and actions preserve, actions under a condition.  The order of the
pending work does not matter. -/
structure Invariant (P : Program σ ρ κ ι α) (C : σ → α → List α → Prop)
    (I : σ → List α → Prop) : Prop where
  perm : ∀ {w p q}, p.Perm q → I w p → I w q
  call : ∀ {r k w work p}, P.call r k w = some work → I w p → I w (work ++ p)
  exec : ∀ {a x w p}, C w a p → I w (a :: p) → I (P.exec a x w).world ((P.exec a x w).work ++ p)

variable {C : σ → α → List α → Prop} {I : σ → List α → Prop}

theorem Invariant.step (hI : P.Invariant C I) {s : State σ ρ α} {l : Label κ ι}
    (hC : Meets C s l) (h : I s.world s.pending) :
    I (P.step s l).world (P.step s l).pending := by
  rcases P.step_cases s l with hstep | ⟨r, k, work, hwork, hworld, hpending⟩
    | ⟨a, x, others, hnext, hbefore, hworld, hafter⟩
  · rw [hstep]
    exact h
  · rw [hworld]
    exact hI.perm hpending.symm (hI.call hwork h)
  · rw [hworld]
    exact hI.perm hafter.symm (hI.exec (hC _ hnext) (hI.perm hbefore h))

/-- **Invariant rule under a condition** on the actions of the run. -/
theorem Invariant.along (hI : P.Invariant C I) {s : State σ ρ α} {ls : List (Label κ ι)}
    (hC : P.Along C s ls) (h : I s.world s.pending) :
    I (P.run s ls).world (P.run s ls).pending := by
  induction ls generalizing s with
  | nil => exact h
  | cons l ls ih => exact ih hC.2 (hI.step hC.1 h)

/-- **Invariant rule.** -/
theorem Invariant.run (hI : P.Invariant (fun _ _ _ => True) I) {s : State σ ρ α}
    (h : I s.world s.pending) (ls : List (Label κ ι)) : I (P.run s ls).world (P.run s ls).pending :=
  hI.along (along_true s ls) h

end Program

end Threads
