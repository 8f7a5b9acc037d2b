import Mathlib.Data.List.Forall2
import Mathlib.Tactic.Common

/-!
# Computations that can fail

What it says that a computation in `Except` returned: each step of it did.
`Stop` is how a call ends that can also panic, and `copyFromSlice` the copy of a
slice into an array, which panics on a length mismatch.

`Decides r p q` says all there is to say of a checker `r`: it does not panic, it returns
exactly when `p` holds, and what it returns is right by `q`.  Its rules follow the
checker's steps.
-/

namespace Fallible

/-- How a call ends without a value. -/
inductive Stop (ε : Type) where
  | error (e : ε)
  | panic
  deriving DecidableEq

variable {ε α β : Type}

/-- An error read as another one; a panic stays a panic. -/
def Stop.map {ε' : Type} (f : ε → ε') : Stop ε → Stop ε'
  | .error e => .error (f e)
  | .panic => .panic

/-- `copy_from_slice` into an array of `n`; `none` where a length mismatch panics. -/
def copyFromSlice (n : ℕ) (as : List α) : Option (Vector α n) :=
  if h : as.length = n then some ⟨as.toArray, by simpa using h⟩ else none

@[simp] theorem copyFromSlice_toList {n : ℕ} (v : Vector α n) :
    copyFromSlice n v.toList = some v := by
  rw [copyFromSlice, dif_pos (by simp)]
  rfl

/-- A sequence returns exactly when its steps do. -/
theorem bind_eq_ok {x : Except ε α} {f : α → Except ε β} {b : β} :
    (x >>= f) = .ok b ↔ ∃ a, x = .ok a ∧ f a = .ok b := by
  cases x with
  | error e =>
    constructor
    · intro h; cases h
    · rintro ⟨_, h, _⟩; cases h
  | ok a =>
    constructor
    · intro h; exact ⟨a, rfl, h⟩
    · rintro ⟨_, h, hf⟩; cases h; exact hf

theorem ok_bind (a : α) (f : α → Except ε β) : (Except.ok a >>= f) = f a := rfl

theorem guard_eq_ok {p : Prop} [Decidable p] {e : ε} {x : Except ε α} {a : α} :
    (if p then .error e else x) = .ok a ↔ ¬ p ∧ x = .ok a := by
  by_cases h : p <;> simp [h]

theorem mapError_eq_ok {ε' : Type} {x : Except ε α} {f : ε → ε'} {a : α} :
    x.mapError f = .ok a ↔ x = .ok a := by
  cases x <;> simp [Except.mapError]

theorem mapError_ok_bind {ε' : Type} (f : ε → ε') (a : α) (g : α → Except ε' β) :
    ((Except.ok a).mapError f >>= g) = g a := rfl

theorem mapError_error_bind {ε' : Type} (f : ε → ε') (e : ε) (g : α → Except ε' β) :
    ((Except.error e).mapError f >>= g) = .error (f e) := rfl

theorem mapM_eq_ok_iff {f : α → Except ε β} {as : List α} {bs : List β} :
    as.mapM f = .ok bs ↔ List.Forall₂ (fun a b => f a = .ok b) as bs := by
  induction as generalizing bs with
  | nil =>
    rw [List.mapM_nil, List.forall₂_nil_left_iff]
    exact ⟨fun h => (Except.ok.inj h).symm, fun h => h ▸ rfl⟩
  | cons a as ih =>
    rw [List.mapM_cons, List.forall₂_cons_left_iff]
    constructor
    · intro h
      obtain ⟨b, hb, h⟩ := bind_eq_ok.mp h
      obtain ⟨cs, hcs, h⟩ := bind_eq_ok.mp h
      exact ⟨b, cs, hb, ih.mp hcs, (Except.ok.inj h).symm⟩
    · rintro ⟨b, cs, hb, hcs, rfl⟩
      exact bind_eq_ok.mpr ⟨b, hb, bind_eq_ok.mpr ⟨cs, ih.mpr hcs, rfl⟩⟩

theorem mapM_eq_error {f : α → Except ε β} {as : List α} {e : ε} (h : as.mapM f = .error e) :
    ∃ a ∈ as, f a = .error e := by
  induction as with
  | nil =>
    rw [List.mapM_nil] at h
    cases h
  | cons a as ih =>
    rw [List.mapM_cons] at h
    cases ha : f a with
    | error e' =>
      rw [ha] at h
      exact ⟨a, List.mem_cons_self, ha.trans (congrArg Except.error (Except.error.inj h))⟩
    | ok b =>
      rw [ha] at h
      cases has : as.mapM f with
      | error e' =>
        rw [has] at h
        obtain ⟨a', ha', he⟩ := ih (has.trans (congrArg Except.error (Except.error.inj h)))
        exact ⟨a', List.mem_cons_of_mem a ha', he⟩
      | ok bs =>
        rw [has] at h
        cases h

theorem exists_of_mem_mapM {f : α → Except ε β} {as : List α} {bs : List β} (h : as.mapM f = .ok bs)
    {b : β} (hb : b ∈ bs) : ∃ a ∈ as, f a = .ok b := by
  have hall := mapM_eq_ok_iff.mp h
  clear h
  induction hall with
  | nil => cases hb
  | cons hab _ ih =>
    rcases List.mem_cons.mp hb with rfl | hb
    · exact ⟨_, List.mem_cons_self, hab⟩
    · obtain ⟨a', ha', hf⟩ := ih hb
      exact ⟨a', List.mem_cons_of_mem _ ha', hf⟩

/-- **Invariant rule of a loop that can stop.** -/
theorem foldlM_invariant {f : α → β → Except ε α} {I : α → Prop} {bs : List β}
    (hstep : ∀ {a b a'}, b ∈ bs → f a b = .ok a' → I a → I a') {a a' : α} (ha : I a)
    (h : bs.foldlM f a = .ok a') : I a' := by
  induction bs generalizing a with
  | nil =>
    obtain rfl := Except.ok.inj h
    exact ha
  | cons b bs ih =>
    rw [List.foldlM_cons] at h
    obtain ⟨a1, h1, h⟩ := bind_eq_ok.mp h
    exact ih (fun hb hf hI => hstep (List.mem_cons_of_mem b hb) hf hI)
      (hstep List.mem_cons_self h1 ha) h

/-- A result that is right where `p` holds, and an error where it does not. -/
def Decides (r : Except (Stop ε) α) (p : Prop) (q : α → Prop) : Prop :=
  (∃ a, r = .ok a ∧ p ∧ q a) ∨ ∃ e, r = .error (.error e) ∧ ¬ p

section Decides

variable {r : Except (Stop ε) α} {p : Prop} {q : α → Prop}

theorem decides_ok {a : α} (hp : p) (hq : q a) : Decides (.ok a : Except (Stop ε) α) p q :=
  .inl ⟨a, rfl, hp, hq⟩

theorem decides_error {e : ε} (hp : ¬ p) : Decides (.error (.error e)) p q :=
  .inr ⟨e, rfl, hp⟩

theorem decides_guard {c : Prop} [Decidable c] {e : ε} (hc : c → ¬ p)
    (h : ¬ c → Decides r p q) : Decides (if c then .error (.error e) else r) p q := by
  by_cases hif : c
  · rw [if_pos hif]
    exact decides_error (hc hif)
  · rw [if_neg hif]
    exact h hif

theorem decides_unless {c : Prop} [Decidable (¬ c)] {e : ε} (hc : p → c)
    (h : c → Decides r p q) : Decides (if ¬ c then .error (.error e) else r) p q :=
  decides_guard (fun hnot hp => hnot (hc hp)) fun hnot => h (not_not.mp hnot)

theorem decides_step {x : Except (Stop ε) β} {f : β → Except (Stop ε) α} {b : β} (hx : x = .ok b)
    (h : Decides (f b) p q) : Decides (x >>= f) p q := by
  rw [hx]
  exact h

/-- A check that is part of the whole. -/
theorem Decides.bind {x : Except (Stop ε) β} {f : β → Except (Stop ε) α} {p' : Prop}
    {q' : β → Prop} (hx : Decides x p' q') (hp : p → p')
    (h : ∀ b, p' → q' b → Decides (f b) p q) : Decides (x >>= f) p q := by
  rcases hx with ⟨b, rfl, hp', hq'⟩ | ⟨e, rfl, hp'⟩
  · exact h b hp' hq'
  · exact decides_error fun hp'' => hp' (hp hp'')

theorem Decides.ne_panic (h : Decides r p q) : r ≠ .error .panic := by
  rintro rfl
  rcases h with ⟨a, ha, -⟩ | ⟨e, he, -⟩
  · cases ha
  · cases he

theorem Decides.ok_iff (h : Decides r p q) : (∃ a, r = .ok a) ↔ p := by
  rcases h with ⟨a, rfl, hp, -⟩ | ⟨e, rfl, hp⟩
  · exact ⟨fun _ => hp, fun _ => ⟨a, rfl⟩⟩
  · refine iff_of_false ?_ hp
    rintro ⟨a, ha⟩
    cases ha

theorem Decides.of_ok (h : Decides r p q) {a : α} (ha : r = .ok a) : p ∧ q a := by
  rcases h with ⟨b, rfl, hp, hq⟩ | ⟨e, rfl, -⟩
  · cases ha
    exact ⟨hp, hq⟩
  · cases ha

theorem Decides.map {f : α → β} {q' : β → Prop} (h : Decides r p q) (hq : ∀ a, q a → q' (f a)) :
    Decides (r >>= fun a => .ok (f a)) p q' :=
  h.bind id fun a hp ha => decides_ok hp (hq a ha)

end Decides

end Fallible
