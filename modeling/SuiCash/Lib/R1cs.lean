import Mathlib.Algebra.BigOperators.Group.List.Basic
import Mathlib.Algebra.Field.Defs
import SuiCash.Lib.Fallible

/-!
# Rank-1 constraint systems and the programs that write them

A constraint says that the product of two linear forms is a third.  A
constraint system carries the constraints and the values its author gave the
variables while writing them; an `Assignment` is any other choice of values.

A synthesis program (`Synth`) runs on a constraint system and can only add to
it, which is a field of the type (`Synth.grows`).  What such a program proves
about an assignment comes in two readings, and `Ensures` is both of them:

* `Mode.sound`: whoever chose the assignment, it satisfies everything written
  so far.  The program's postcondition is what a verifier may conclude.
* `Mode.complete`: the assignment is the author's own, and it satisfied
  everything before the program ran.  It still does afterwards.

A gadget that computes a function is the same argument in both readings, so one
proof over an arbitrary mode covers both; only where a value is chosen or an
equation is imposed do the modes differ.

`Returns` is the third judgement: the program does not fail.  The rules for
`pure`, `bind` and the two loops (`Ensures.ofFnM`, `Ensures.foldlM`) are what
longer programs are checked with.
-/

namespace R1cs

open Fallible

/-! ### Systems and assignments -/

/-- The constant one, a public input, or a private witness. -/
inductive Var where
  | one
  | inst (i : ℕ)
  | wit (i : ℕ)
  deriving DecidableEq

/-- A value for every variable. -/
structure Assignment (F : Type) where
  inst : ℕ → F
  wit : ℕ → F

abbrev LinComb (F : Type) := List (F × Var)

structure Constraint (F : Type) where
  a : LinComb F
  b : LinComb F
  c : LinComb F

/-- The constraints written, and the values the author gave the variables. -/
structure ConstraintSystem (F : Type) where
  instanceAssignment : List F
  witnessAssignment : List F
  constraints : List (Constraint F)

variable {F : Type}

namespace ConstraintSystem

def new : ConstraintSystem F := ⟨[], [], []⟩

/-- `w` gives the variables the values their author gave them. -/
structure AgreesWith (cs : ConstraintSystem F) (w : Assignment F) : Prop where
  inst : ∀ (i : ℕ) (h : i < cs.instanceAssignment.length), w.inst i = cs.instanceAssignment[i]
  wit : ∀ (i : ℕ) (h : i < cs.witnessAssignment.length), w.wit i = cs.witnessAssignment[i]

/-- `cs'` is `cs` with more written after it. -/
structure Extends (cs cs' : ConstraintSystem F) : Prop where
  inst : cs.instanceAssignment <+: cs'.instanceAssignment
  wit : cs.witnessAssignment <+: cs'.witnessAssignment
  constraints : cs.constraints <+: cs'.constraints

theorem Extends.refl (cs : ConstraintSystem F) : cs.Extends cs :=
  ⟨List.prefix_rfl, List.prefix_rfl, List.prefix_rfl⟩

theorem Extends.trans {cs cs' cs'' : ConstraintSystem F} (h : cs.Extends cs')
    (h' : cs'.Extends cs'') : cs.Extends cs'' :=
  ⟨h.inst.trans h'.inst, h.wit.trans h'.wit, h.constraints.trans h'.constraints⟩

theorem AgreesWith.of_extends {cs cs' : ConstraintSystem F} {w : Assignment F}
    (h : cs'.AgreesWith w) (hle : cs.Extends cs') : cs.AgreesWith w := by
  refine ⟨fun i hi => ?_, fun i hi => ?_⟩
  · rw [h.inst i (Nat.lt_of_lt_of_le hi hle.inst.length_le), hle.inst.getElem]
  · rw [h.wit i (Nat.lt_of_lt_of_le hi hle.wit.length_le), hle.wit.getElem]

end ConstraintSystem

/-! ### Satisfaction -/

section Satisfaction

variable [Field F]

def Assignment.value (w : Assignment F) : Var → F
  | .one => 1
  | .inst i => w.inst i
  | .wit i => w.wit i

def LinComb.eval (l : LinComb F) (w : Assignment F) : F := (l.map fun t => t.1 * w.value t.2).sum

namespace LinComb

variable (w : Assignment F)

@[simp] theorem eval_nil : eval [] w = 0 := rfl

@[simp] theorem eval_cons (t : F × Var) (l : LinComb F) :
    eval (t :: l) w = t.1 * w.value t.2 + eval l w := by simp [eval]

@[simp] theorem eval_append (l l' : LinComb F) : eval (l ++ l') w = eval l w + eval l' w := by
  simp [eval]

def scale (c : F) (l : LinComb F) : LinComb F := l.map fun t => (c * t.1, t.2)

@[simp] theorem eval_scale (c : F) (l : LinComb F) : (scale c l).eval w = c * l.eval w := by
  induction l with
  | nil => simp [scale]
  | cons t l ih =>
    rw [eval_cons, mul_add, ← ih]
    simp [scale, mul_assoc]

end LinComb

def Constraint.Holds (k : Constraint F) (w : Assignment F) : Prop :=
  k.a.eval w * k.b.eval w = k.c.eval w

instance [DecidableEq F] (k : Constraint F) (w : Assignment F) : Decidable (k.Holds w) :=
  inferInstanceAs (Decidable (_ = _))

namespace ConstraintSystem

def assignment (cs : ConstraintSystem F) : Assignment F where
  inst i := cs.instanceAssignment.getD i 0
  wit i := cs.witnessAssignment.getD i 0

def isSatisfied [DecidableEq F] (cs : ConstraintSystem F) : Bool :=
  cs.constraints.all fun k => decide (k.Holds cs.assignment)

def SatisfiedBy (cs : ConstraintSystem F) (w : Assignment F) : Prop :=
  ∀ k ∈ cs.constraints, k.Holds w

theorem isSatisfied_iff [DecidableEq F] (cs : ConstraintSystem F) :
    cs.isSatisfied = true ↔ cs.SatisfiedBy cs.assignment := by
  simp [isSatisfied, SatisfiedBy]

theorem agreesWith_assignment (cs : ConstraintSystem F) : cs.AgreesWith cs.assignment := by
  refine ⟨fun i h => ?_, fun i h => ?_⟩ <;> simp [assignment, h]

theorem SatisfiedBy.of_extends {cs cs' : ConstraintSystem F} {w : Assignment F}
    (h : cs'.SatisfiedBy w) (hle : cs.Extends cs') : cs.SatisfiedBy w :=
  fun k hk => h k (hle.constraints.subset hk)

theorem satisfiedBy_append {cs : ConstraintSystem F} {k : Constraint F} {inst wit : List F}
    {w : Assignment F} :
    (⟨inst, wit, cs.constraints ++ [k]⟩ : ConstraintSystem F).SatisfiedBy w
      ↔ cs.SatisfiedBy w ∧ k.Holds w := by
  simp only [SatisfiedBy, List.forall_mem_append, List.forall_mem_singleton]

theorem satisfiedBy_new (w : Assignment F) : (new : ConstraintSystem F).SatisfiedBy w :=
  fun _ hk => absurd hk List.not_mem_nil

end ConstraintSystem

end Satisfaction

/-! ### Programs -/

/-- A program that adds to a constraint system, or fails. -/
structure Synth (ε F α : Type) where
  run : ConstraintSystem F → Except ε (α × ConstraintSystem F)
  grows : ∀ {cs cs' a}, run cs = .ok (a, cs') → cs.Extends cs'

namespace Synth

variable {ε α β : Type}

protected def pure (a : α) : Synth ε F α where
  run cs := .ok (a, cs)
  grows h := by cases h; exact ConstraintSystem.Extends.refl _

protected def bind (m : Synth ε F α) (f : α → Synth ε F β) : Synth ε F β where
  run cs := do
    let (a, cs) ← m.run cs
    (f a).run cs
  grows h := by
    obtain ⟨p, hm, hf⟩ := bind_eq_ok.mp h
    exact (m.grows hm).trans ((f p.1).grows hf)

instance : Monad (Synth ε F) where
  pure := Synth.pure
  bind := Synth.bind

def fail (e : ε) : Synth ε F α where
  run _ := .error e
  grows h := by cases h

theorem run_bind_eq_ok {m : Synth ε F α} {f : α → Synth ε F β} {cs cs'' : ConstraintSystem F}
    {b : β} : (m >>= f).run cs = .ok (b, cs'') ↔
      ∃ a cs', m.run cs = .ok (a, cs') ∧ (f a).run cs' = .ok (b, cs'') := by
  show (m.run cs >>= fun p => (f p.1).run p.2) = _ ↔ _
  rw [bind_eq_ok, Prod.exists]

theorem ext_run {m m' : Synth ε F α} (h : ∀ cs, m.run cs = m'.run cs) : m = m' := by
  cases m
  cases m'
  congr
  exact funext h

theorem bind_assoc {γ : Type} (m : Synth ε F α) (f : α → Synth ε F β) (g : β → Synth ε F γ) :
    m >>= f >>= g = m >>= fun a => f a >>= g := by
  apply ext_run
  intro cs
  show ((m.run cs >>= fun p => (f p.1).run p.2) >>= fun p => (g p.1).run p.2)
    = m.run cs >>= fun p => (f p.1).run p.2 >>= fun p => (g p.1).run p.2
  cases m.run cs <;> rfl

theorem pure_bind (a : α) (f : α → Synth ε F β) : (pure a >>= f : Synth ε F β) = f a := rfl

def allocWitness (v : F) : Synth ε F Var where
  run cs := .ok (.wit cs.witnessAssignment.length,
    { cs with witnessAssignment := cs.witnessAssignment ++ [v] })
  grows h := by cases h; exact ⟨List.prefix_rfl, List.prefix_append _ _, List.prefix_rfl⟩

def allocInstance (v : F) : Synth ε F Var where
  run cs := .ok (.inst cs.instanceAssignment.length,
    { cs with instanceAssignment := cs.instanceAssignment ++ [v] })
  grows h := by cases h; exact ⟨List.prefix_append _ _, List.prefix_rfl, List.prefix_rfl⟩

def enforce (k : Constraint F) : Synth ε F Unit where
  run cs := .ok ((), { cs with constraints := cs.constraints ++ [k] })
  grows h := by cases h; exact ⟨List.prefix_rfl, List.prefix_rfl, List.prefix_append _ _⟩

/-- One program for each index, in order. -/
def ofFnM : {n : ℕ} → (Fin n → Synth ε F α) → Synth ε F (Vector α n)
  | 0, _ => pure #v[]
  | _ + 1, f => do
    let xs ← ofFnM fun i => f i.castSucc
    let x ← f (Fin.last _)
    pure (xs.push x)

def foldlM {σ κ : Type} (f : σ → κ → Synth ε F σ) : σ → List κ → Synth ε F σ
  | s, [] => pure s
  | s, k :: ks => do
    let s ← f s k
    foldlM f s ks

/-- One program for each entry. -/
def forEach {κ : Type} (f : κ → Synth ε F Unit) : List κ → Synth ε F Unit
  | [] => pure ()
  | k :: ks => do
    f k
    forEach f ks

/-! ### Programs that do not fail -/

/-- The program returns, and what it returns satisfies `Q`. -/
def Returns (m : Synth ε F α) (Q : α → Prop) : Prop :=
  ∀ cs, ∃ a cs', m.run cs = .ok (a, cs') ∧ Q a

namespace Returns

theorem pure {a : α} {Q : α → Prop} (h : Q a) : Returns (pure a : Synth ε F α) Q :=
  fun cs => ⟨a, cs, rfl, h⟩

theorem bind {m : Synth ε F α} {f : α → Synth ε F β} {P : α → Prop} {Q : β → Prop}
    (hm : Returns m P) (hf : ∀ a, P a → Returns (f a) Q) : Returns (m >>= f) Q := by
  intro cs
  obtain ⟨a, cs', hrun, ha⟩ := hm cs
  obtain ⟨b, cs'', hrun', hb⟩ := hf a ha cs'
  exact ⟨b, cs'', run_bind_eq_ok.mpr ⟨a, cs', hrun, hrun'⟩, hb⟩

theorem allocWitness (v : F) : Returns (allocWitness v : Synth ε F Var) fun _ => True :=
  fun _ => ⟨_, _, rfl, trivial⟩

theorem enforce (k : Constraint F) : Returns (enforce k : Synth ε F Unit) fun _ => True :=
  fun _ => ⟨_, _, rfl, trivial⟩

theorem mono {m : Synth ε F α} {P Q : α → Prop} (hm : Returns m P) (h : ∀ a, P a → Q a) :
    Returns m Q := by
  intro cs
  obtain ⟨a, cs', hrun, ha⟩ := hm cs
  exact ⟨a, cs', hrun, h a ha⟩

theorem ofFnM {n : ℕ} {f : Fin n → Synth ε F α} {Q : (i : Fin n) → α → Prop}
    (hf : ∀ i, Returns (f i) (Q i)) :
    Returns (ofFnM f) fun xs => ∀ (i : ℕ) (h : i < n), Q ⟨i, h⟩ xs[i] := by
  induction n with
  | zero => exact pure fun i h => absurd h (Nat.not_lt_zero i)
  | succ n ih =>
    refine bind (ih fun i => hf i.castSucc) fun xs hxs => ?_
    refine bind (hf (Fin.last n)) fun x hx => pure ?_
    intro i hi
    rw [Vector.getElem_push]
    split
    · exact hxs i ‹_›
    · have : (⟨i, hi⟩ : Fin (n + 1)) = Fin.last n := Fin.ext (by simp; omega)
      rw [this]
      exact hx

theorem foldlM {σ κ : Type} {f : σ → κ → Synth ε F σ} {I : σ → Prop}
    (hf : ∀ s k, I s → Returns (f s k) I) {s : σ} {ks : List κ} (h : I s) :
    Returns (foldlM f s ks) I := by
  induction ks generalizing s with
  | nil => exact pure h
  | cons k ks ih => exact bind (hf s k h) fun s' hs' => ih hs'

theorem forEach {κ : Type} {f : κ → Synth ε F Unit} {ks : List κ}
    (hf : ∀ k ∈ ks, Returns (f k) fun _ => True) : Returns (forEach f ks) fun _ => True := by
  induction ks with
  | nil => exact pure trivial
  | cons k ks ih =>
    exact bind (hf k List.mem_cons_self) fun _ _ => ih fun j hj => hf j (List.mem_cons_of_mem k hj)

end Returns

end Synth

/-! ### What a program says about an assignment -/

/-- Who chose the assignment: anyone, or the author of the constraints. -/
inductive Mode where
  | sound
  | complete
  deriving DecidableEq

variable [Field F]

/-- What is known of the assignment around a run from `cs` to `cs'`. -/
def Mode.Admits (mode : Mode) (cs cs' : ConstraintSystem F) (w : Assignment F) : Prop :=
  match mode with
  | .sound => cs'.SatisfiedBy w
  | .complete => cs'.AgreesWith w ∧ cs.SatisfiedBy w

/-- What the program returns satisfies `Q`, and the assignment satisfies what
the program wrote. -/
def Ensures {ε α : Type} (mode : Mode) (w : Assignment F) (m : Synth ε F α) (Q : α → Prop) : Prop :=
  ∀ cs cs' a, m.run cs = .ok (a, cs') → mode.Admits cs cs' w → Q a ∧ cs'.SatisfiedBy w

namespace Ensures

open Synth

variable {ε α β : Type} {mode : Mode} {w : Assignment F}

theorem pure {a : α} {Q : α → Prop} (h : Q a) : Ensures mode w (pure a : Synth ε F α) Q := by
  intro cs cs' b hrun hw
  cases hrun
  refine ⟨h, ?_⟩
  cases mode with
  | sound => exact hw
  | complete => exact hw.2

theorem bind {m : Synth ε F α} {f : α → Synth ε F β} {P : α → Prop} {Q : β → Prop}
    (hm : Ensures mode w m P) (hf : ∀ a, P a → Ensures mode w (f a) Q) :
    Ensures mode w (m >>= f) Q := by
  intro cs cs'' b hrun hw
  obtain ⟨a, cs', hrun1, hrun2⟩ := run_bind_eq_ok.mp hrun
  have hle := (f a).grows hrun2
  cases mode with
  | sound =>
    obtain ⟨ha, -⟩ := hm _ _ _ hrun1 (ConstraintSystem.SatisfiedBy.of_extends hw hle)
    exact hf a ha _ _ _ hrun2 hw
  | complete =>
    obtain ⟨ha, hsat⟩ := hm _ _ _ hrun1 ⟨hw.1.of_extends hle, hw.2⟩
    exact hf a ha _ _ _ hrun2 ⟨hw.1, hsat⟩

theorem mono {m : Synth ε F α} {P Q : α → Prop} (hm : Ensures mode w m P)
    (h : ∀ a, P a → Q a) : Ensures mode w m Q := by
  intro cs cs' a hrun hw
  obtain ⟨ha, hsat⟩ := hm _ _ _ hrun hw
  exact ⟨h a ha, hsat⟩

theorem fail {e : ε} {Q : α → Prop} : Ensures mode w (fail e : Synth ε F α) Q := by
  intro cs cs' a hrun _
  cases hrun

theorem allocWitness (v : F) : Ensures mode w (allocWitness v : Synth ε F Var)
    fun x => mode = .complete → w.value x = v := by
  intro cs cs' x hrun hw
  cases hrun
  cases mode with
  | sound => exact ⟨fun hm => by (cases hm), hw⟩
  | complete =>
    refine ⟨fun _ => ?_, hw.2⟩
    have := hw.1.wit cs.witnessAssignment.length (by simp)
    simpa [Assignment.value] using this

theorem enforce {k : Constraint F} (h : mode = .complete → k.Holds w) :
    Ensures mode w (enforce k : Synth ε F Unit) fun _ => k.Holds w := by
  intro cs cs' _ hrun hw
  cases hrun
  cases mode with
  | sound => exact ⟨hw k (by simp), hw⟩
  | complete =>
    refine ⟨h rfl, fun k' hk' => ?_⟩
    rcases List.mem_append.mp hk' with hk' | hk'
    · exact hw.2 k' hk'
    · rw [List.mem_singleton.mp hk']
      exact h rfl

theorem ofFnM {n : ℕ} {f : Fin n → Synth ε F α} {Q : (i : Fin n) → α → Prop}
    (hf : ∀ i, Ensures mode w (f i) (Q i)) :
    Ensures mode w (ofFnM f) fun xs => ∀ (i : ℕ) (h : i < n), Q ⟨i, h⟩ xs[i] := by
  induction n with
  | zero => exact pure fun i h => absurd h (Nat.not_lt_zero i)
  | succ n ih =>
    refine bind (ih fun i => hf i.castSucc) fun xs hxs => ?_
    refine bind (hf (Fin.last n)) fun x hx => pure ?_
    intro i hi
    rw [Vector.getElem_push]
    split
    · exact hxs i ‹_›
    · have : (⟨i, hi⟩ : Fin (n + 1)) = Fin.last n := Fin.ext (by simp; omega)
      rw [this]
      exact hx

theorem foldlM {σ τ κ κ' : Type} {f : σ → κ → Synth ε F σ} {g : τ → κ' → τ}
    {I : σ → τ → Prop} {R : κ → κ' → Prop}
    (hf : ∀ s t k k', I s t → R k k' → Ensures mode w (f s k) (I · (g t k')))
    {s : σ} {t : τ} {ks : List κ} {ks' : List κ'} (hks : List.Forall₂ R ks ks') (h : I s t) :
    Ensures mode w (foldlM f s ks) (I · (ks'.foldl g t)) := by
  induction hks generalizing s t with
  | nil => exact pure h
  | cons hk _ ih => exact bind (hf s t _ _ h hk) fun s' hs' => ih hs'

theorem forEach {κ : Type} {f : κ → Synth ε F Unit} {P : κ → Prop} {ks : List κ}
    (hf : ∀ k ∈ ks, Ensures mode w (f k) fun _ => P k) :
    Ensures mode w (forEach f ks) fun _ => ∀ k ∈ ks, P k := by
  induction ks with
  | nil => exact pure fun k hk => absurd hk List.not_mem_nil
  | cons k ks ih =>
    refine bind (hf k List.mem_cons_self) fun _ hk => ?_
    refine (ih fun j hj => hf j (List.mem_cons_of_mem k hj)).mono fun _ hks j hj => ?_
    rcases List.mem_cons.mp hj with rfl | hj
    · exact hk
    · exact hks j hj

end Ensures

end R1cs
