import SuiCash.Lib.R1cs
import SuiCash.Lib.Wiring

/-!
# The shape of a constraint system

A shape is the constraints, and how many variables there are of each kind.  The values
that the author gave the variables have no part in it.  Keys are made for a shape, so two
runs of a program can share a key exactly when they write one shape.

`Alike R m m'` compares two programs: from systems of one shape they come to systems of one
shape and to results related by `R`, or they fail alike.  It has a rule for each way of
putting programs together.
-/

namespace R1cs

open Wiring

variable {F : Type}

namespace ConstraintSystem

/-- The same constraints over as many variables. -/
structure SameShape (cs cs' : ConstraintSystem F) : Prop where
  inst : cs.instanceAssignment.length = cs'.instanceAssignment.length
  wit : cs.witnessAssignment.length = cs'.witnessAssignment.length
  constraints : cs.constraints = cs'.constraints

theorem SameShape.refl (cs : ConstraintSystem F) : cs.SameShape cs := ⟨rfl, rfl, rfl⟩

theorem SameShape.symm {cs cs' : ConstraintSystem F} (h : cs.SameShape cs') : cs'.SameShape cs :=
  ⟨h.inst.symm, h.wit.symm, h.constraints.symm⟩

theorem SameShape.satisfiedBy_iff [Field F] {cs cs' : ConstraintSystem F} (h : cs.SameShape cs')
    (w : Assignment F) : cs.SatisfiedBy w ↔ cs'.SatisfiedBy w := by
  rw [SatisfiedBy, SatisfiedBy, h.constraints]

end ConstraintSystem

open ConstraintSystem Synth

variable {ε α α' β β' : Type}

def SameOutcome (R : α → α' → Prop) :
    Except ε (α × ConstraintSystem F) → Except ε (α' × ConstraintSystem F) → Prop
  | .ok p, .ok p' => R p.1 p'.1 ∧ p.2.SameShape p'.2
  | .error e, .error e' => e = e'
  | _, _ => False

/-- The programs write one shape. -/
def Alike (R : α → α' → Prop) (m : Synth ε F α) (m' : Synth ε F α') : Prop :=
  ∀ ⦃cs cs' : ConstraintSystem F⦄, cs.SameShape cs' → SameOutcome R (m.run cs) (m'.run cs')

namespace Alike

variable {R : α → α' → Prop} {S : β → β' → Prop}

theorem pure {a : α} {a' : α'} (h : R a a') :
    Alike R (pure a : Synth ε F α) (pure a' : Synth ε F α') := fun _ _ hcs => ⟨h, hcs⟩

theorem fail (e : ε) : Alike R (fail e : Synth ε F α) (fail e : Synth ε F α') := fun _ _ _ => rfl

theorem bind {m : Synth ε F α} {m' : Synth ε F α'} {f : α → Synth ε F β} {f' : α' → Synth ε F β'}
    (hm : Alike R m m') (hf : ∀ a a', R a a' → Alike S (f a) (f' a')) :
    Alike S (m >>= f) (m' >>= f') := by
  intro cs cs' hcs
  have hrun := hm hcs
  show SameOutcome S (m.run cs >>= fun p => (f p.1).run p.2) (m'.run cs' >>= fun p => (f' p.1).run p.2)
  cases hout : m.run cs with
  | error e =>
    cases hout' : m'.run cs' with
    | error e' =>
      rw [hout, hout'] at hrun
      exact hrun
    | ok p' =>
      rw [hout, hout'] at hrun
      exact hrun.elim
  | ok p =>
    cases hout' : m'.run cs' with
    | error e' =>
      rw [hout, hout'] at hrun
      exact hrun.elim
    | ok p' =>
      rw [hout, hout'] at hrun
      exact hf p.1 p'.1 hrun.1 hrun.2

theorem mono {R' : α → α' → Prop} {m : Synth ε F α} {m' : Synth ε F α'} (hm : Alike R m m')
    (h : ∀ a a', R a a' → R' a a') : Alike R' m m' := by
  intro cs cs' hcs
  have hrun := hm hcs
  match hout : m.run cs, hout' : m'.run cs' with
  | .ok p, .ok p' =>
    rw [hout, hout'] at hrun
    exact ⟨h _ _ hrun.1, hrun.2⟩
  | .error e, .error e' =>
    rw [hout, hout'] at hrun
    exact hrun
  | .ok p, .error e' =>
    rw [hout, hout'] at hrun
    exact hrun.elim
  | .error e, .ok p' =>
    rw [hout, hout'] at hrun
    exact hrun.elim

/-- A new witness is the same variable whatever its value. -/
theorem allocWitness (v v' : F) :
    Alike (· = ·) (allocWitness v : Synth ε F Var) (allocWitness v') := by
  intro cs cs' hcs
  refine ⟨congrArg Var.wit hcs.wit, hcs.inst, ?_, hcs.constraints⟩
  show (cs.witnessAssignment ++ [v]).length = (cs'.witnessAssignment ++ [v']).length
  rw [List.length_append, List.length_append, hcs.wit]
  rfl

theorem allocInstance (v v' : F) :
    Alike (· = ·) (allocInstance v : Synth ε F Var) (allocInstance v') := by
  intro cs cs' hcs
  refine ⟨congrArg Var.inst hcs.inst, ?_, hcs.wit, hcs.constraints⟩
  show (cs.instanceAssignment ++ [v]).length = (cs'.instanceAssignment ++ [v']).length
  rw [List.length_append, List.length_append, hcs.inst]
  rfl

theorem enforce (k : Constraint F) :
    Alike (fun _ _ => True) (enforce k : Synth ε F Unit) (enforce k) :=
  fun _ _ hcs => ⟨trivial, hcs.inst, hcs.wit, congrArg (· ++ [k]) hcs.constraints⟩

theorem ofFnM {n : ℕ} {f : Fin n → Synth ε F α} {f' : Fin n → Synth ε F α'}
    (hf : ∀ i, Alike R (f i) (f' i)) : Alike (Along R) (ofFnM f) (ofFnM f') := by
  induction n with
  | zero => exact pure fun i h => absurd h (Nat.not_lt_zero i)
  | succ n ih =>
    refine bind (ih fun i => hf i.castSucc) fun xs xs' hxs => ?_
    refine bind (hf (Fin.last n)) fun x x' hx => pure fun i hi => ?_
    rw [Vector.getElem_push, Vector.getElem_push]
    split
    · exact hxs i ‹_›
    · exact hx

theorem foldlM {σ σ' κ κ' : Type} {I : σ → σ' → Prop} {K : κ → κ' → Prop}
    {f : σ → κ → Synth ε F σ} {f' : σ' → κ' → Synth ε F σ'}
    (hf : ∀ s s' k k', I s s' → K k k' → Alike I (f s k) (f' s' k')) {ks : List κ} {ks' : List κ'}
    (hks : List.Forall₂ K ks ks') {s : σ} {s' : σ'} (hs : I s s') :
    Alike I (foldlM f s ks) (foldlM f' s' ks') := by
  induction hks generalizing s s' with
  | nil => exact pure hs
  | cons hk _ ih => exact bind (hf _ _ _ _ hs hk) fun _ _ hs => ih hs

theorem forEach {κ : Type} {f f' : κ → Synth ε F Unit} {ks : List κ}
    (hf : ∀ k ∈ ks, Alike (fun _ _ => True) (f k) (f' k)) :
    Alike (fun _ _ => True) (forEach f ks) (forEach f' ks) := by
  induction ks with
  | nil => exact pure trivial
  | cons k ks ih =>
    exact bind (hf k List.mem_cons_self) fun _ _ _ => ih fun j hj => hf j (List.mem_cons_of_mem k hj)

theorem of_run {m : Synth ε F α} {m' : Synth ε F α'} (h : Alike R m m') {cs cs' cs1 : ConstraintSystem F}
    (hcs : cs.SameShape cs') {a : α} (hrun : m.run cs = .ok (a, cs1)) :
    ∃ a' cs1', m'.run cs' = .ok (a', cs1') ∧ R a a' ∧ cs1.SameShape cs1' := by
  have hboth := h hcs
  rw [hrun] at hboth
  cases hout : m'.run cs' with
  | error e =>
    rw [hout] at hboth
    exact hboth.elim
  | ok p' =>
    rw [hout] at hboth
    exact ⟨p'.1, p'.2, rfl, hboth⟩

end Alike

end R1cs
