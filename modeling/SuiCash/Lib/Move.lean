import Mathlib.Algebra.Group.Nat.Defs
import Mathlib.Data.List.Nodup
import Mathlib.Tactic.Common

/-!
# Computations that abort

The part of the Move language that a verifier of byte strings needs.  `Exec` is a
computation that returns or aborts; either way it leaves the trace of the native
calls it made.  What an abort undoes is not written here: a caller keeps its old
state when the result is an error.

* Arithmetic is checked: a result that does not fit aborts.
* `foldWhile` and `searchWhile` are the two shapes of a counted `while` loop, one
  that accumulates and one that returns early.  `foldWhile_invariant` and
  `searchWhile_cases` are their rules.
* `Vec` is a vector, whose length fits a `u64`, and `Table` a finite map; both
  carry what they promise as a field.
-/

namespace Move

/-! ### Aborting computations -/

/-- Why a computation aborts: a module's own code, a failed arithmetic or vector
operation, a key added twice, or a native function. -/
inductive Fault (μ : Type) where
  | code (m : μ) (n : ℕ)
  | arithmetic
  | bounds
  | keyExists
  | native (n : ℕ)
  deriving DecidableEq

/-- The abort was asked for: by a module, or by a native function.  The others are
arithmetic that does not fit, a read past the end, or a key added twice. -/
def Fault.Named {μ : Type} : Fault μ → Prop
  | .code _ _ | .native _ => True
  | .arithmetic | .bounds | .keyExists => False

/-- A computation: the native calls it makes, and how it ends. -/
@[ext] structure Exec (μ τ α : Type) where
  trace : List τ
  result : Except (Fault μ) α

namespace Exec

variable {μ τ α β : Type}

instance : Monad (Exec μ τ) where
  pure a := ⟨[], .ok a⟩
  bind m f :=
    match m.result with
    | .error e => ⟨m.trace, .error e⟩
    | .ok a => ⟨m.trace ++ (f a).trace, (f a).result⟩

theorem bind_of_ok {m : Exec μ τ α} {a : α} (h : m.result = .ok a) (f : α → Exec μ τ β) :
    m >>= f = ⟨m.trace ++ (f a).trace, (f a).result⟩ := by
  show (match m.result with | .error e => _ | .ok a => _) = _
  rw [h]

theorem bind_of_error {m : Exec μ τ α} {e : Fault μ} (h : m.result = .error e)
    (f : α → Exec μ τ β) : m >>= f = ⟨m.trace, .error e⟩ := by
  show (match m.result with | .error e => _ | .ok a => _) = _
  rw [h]

@[simp] theorem pure_bind (a : α) (f : α → Exec μ τ β) : (pure a : Exec μ τ α) >>= f = f a :=
  bind_of_ok rfl f

theorem result_bind_eq_ok {m : Exec μ τ α} {f : α → Exec μ τ β} {b : β} :
    (m >>= f).result = .ok b ↔ ∃ a, m.result = .ok a ∧ (f a).result = .ok b := by
  cases h : m.result with
  | error e => rw [bind_of_error h]; simp
  | ok a => rw [bind_of_ok h]; simp

/-- What a sequence leaves in the trace, its first step left or its second. -/
theorem mem_trace_bind {m : Exec μ τ α} {f : α → Exec μ τ β} {t : τ} :
    t ∈ (m >>= f).trace ↔ t ∈ m.trace ∨ ∃ a, m.result = .ok a ∧ t ∈ (f a).trace := by
  cases h : m.result with
  | error e => rw [bind_of_error h]; simp
  | ok a => rw [bind_of_ok h]; simp

def abort (m : μ) (n : ℕ) : Exec μ τ α := ⟨[], .error (.code m n)⟩

def assert (p : Prop) [Decidable p] (m : μ) (n : ℕ) : Exec μ τ Unit :=
  if p then pure () else abort m n

/-- A native function that returns or aborts. -/
def native (r : Except ℕ α) : Exec μ τ α := ⟨[], r.mapError .native⟩

def mark (t : τ) : Exec μ τ Unit := ⟨[t], .ok ()⟩

theorem assert_of {p : Prop} [Decidable p] (h : p) (m : μ) (n : ℕ) :
    (assert p m n : Exec μ τ Unit) = pure () := if_pos h

theorem assert_of_not {p : Prop} [Decidable p] (h : ¬ p) (m : μ) (n : ℕ) :
    (assert p m n : Exec μ τ Unit) = abort m n := if_neg h

theorem native_result_eq_ok {r : Except ℕ α} {a : α} :
    (native r : Exec μ τ α).result = .ok a ↔ r = .ok a := by
  cases r <;> simp [native, Except.mapError]

@[simp] theorem assert_trace (p : Prop) [Decidable p] (m : μ) (n : ℕ) :
    (assert p m n : Exec μ τ Unit).trace = [] := by
  by_cases h : p
  · rw [assert_of h]; rfl
  · rw [assert_of_not h]; rfl

theorem assert_result_eq_ok {p : Prop} [Decidable p] {m : μ} {n : ℕ} {u : Unit} :
    (assert p m n : Exec μ τ Unit).result = .ok u ↔ p := by
  by_cases h : p
  · rw [assert_of h]; simp [h]; rfl
  · rw [assert_of_not h]; simp [h, abort]

@[simp] theorem abort_bind (m : μ) (n : ℕ) (f : α → Exec μ τ β) :
    (abort m n : Exec μ τ α) >>= f = abort m n := bind_of_error rfl f

/-- **A checked condition is a branch.** -/
theorem assert_bind (p : Prop) [Decidable p] (m : μ) (n : ℕ) (f : Unit → Exec μ τ β) :
    assert p m n >>= f = if p then f () else abort m n := by
  by_cases h : p
  · rw [assert_of h, pure_bind, if_pos h]
  · rw [assert_of_not h, abort_bind, if_neg h]

/-- Behind a branch that aborts, a computation returns when it is reached. -/
theorem result_guard_eq_ok {p : Prop} [Decidable p] {m : μ} {n : ℕ} {x : Exec μ τ α} {a : α} :
    (if p then abort m n else x).result = .ok a ↔ ¬ p ∧ x.result = .ok a := by
  by_cases h : p <;> simp [h, abort]

/-- Behind a branch that aborts, a trace is left when it is reached. -/
theorem mem_trace_guard {p : Prop} [Decidable p] {m : μ} {n : ℕ} {x : Exec μ τ α} {t : τ} :
    t ∈ (if p then abort m n else x).trace ↔ ¬ p ∧ t ∈ x.trace := by
  by_cases h : p <;> simp [h, abort]

def NamedFaults (m : Exec μ τ α) : Prop := ∀ e, m.result = .error e → e.Named

namespace NamedFaults

theorem pure (a : α) : NamedFaults (pure a : Exec μ τ α) := fun _ h => by cases h

theorem abort (m : μ) (n : ℕ) : NamedFaults (abort m n : Exec μ τ α) := by
  intro e h
  cases h
  exact trivial

theorem native (r : Except ℕ α) : NamedFaults (native r : Exec μ τ α) := by
  intro e h
  cases r with
  | ok a => cases h
  | error n => cases h; exact trivial

theorem mark (t : τ) : NamedFaults (mark t : Exec μ τ Unit) := fun _ h => by cases h

theorem ite {p : Prop} [Decidable p] {m m' : Exec μ τ α} (h : NamedFaults m)
    (h' : NamedFaults m') : NamedFaults (if p then m else m') := by
  split
  · exact h
  · exact h'

theorem bind {m : Exec μ τ α} {f : α → Exec μ τ β} (hm : NamedFaults m)
    (hf : ∀ a, NamedFaults (f a)) : NamedFaults (m >>= f) := by
  intro e h
  cases hr : m.result with
  | error e' =>
    rw [bind_of_error hr] at h
    cases h
    exact hm e hr
  | ok a =>
    rw [bind_of_ok hr] at h
    exact hf a e h

end NamedFaults

/-! ### Checked arithmetic -/

def add (a b : ℕ) : Exec μ τ ℕ := if a + b < 2 ^ 64 then pure (a + b) else ⟨[], .error .arithmetic⟩

def mul (a b : ℕ) : Exec μ τ ℕ := if a * b < 2 ^ 64 then pure (a * b) else ⟨[], .error .arithmetic⟩

def sub (a b : UInt64) : Exec μ τ UInt64 :=
  if b ≤ a then pure (a - b) else ⟨[], .error .arithmetic⟩

def addU8 (a b : UInt8) : Exec μ τ UInt8 :=
  if a.toNat + b.toNat < 2 ^ 8 then pure (a + b) else ⟨[], .error .arithmetic⟩

def shl (a : UInt64) (s : UInt8) : Exec μ τ UInt64 :=
  if s.toNat < 64 then pure (a <<< s.toUInt64) else ⟨[], .error .arithmetic⟩

theorem add_of_lt {a b : ℕ} (h : a + b < 2 ^ 64) : (add a b : Exec μ τ ℕ) = pure (a + b) := if_pos h

theorem mul_of_lt {a b : ℕ} (h : a * b < 2 ^ 64) : (mul a b : Exec μ τ ℕ) = pure (a * b) := if_pos h

theorem sub_of_le {a b : UInt64} (h : b ≤ a) : (sub a b : Exec μ τ UInt64) = pure (a - b) := if_pos h

theorem addU8_of_lt {a b : UInt8} (h : a.toNat + b.toNat < 2 ^ 8) :
    (addU8 a b : Exec μ τ UInt8) = pure (a + b) := if_pos h

theorem shl_of_lt {a : UInt64} {s : UInt8} (h : s.toNat < 64) :
    (shl a s : Exec μ τ UInt64) = pure (a <<< s.toUInt64) := if_pos h

/-! ### Reading a vector -/

/-- The entry at `i`; past the end aborts. -/
def borrow (v : List α) (i : ℕ) : Exec μ τ α :=
  match v[i]? with
  | some a => pure a
  | none => ⟨[], .error .bounds⟩

theorem borrow_of_lt {v : List α} {i : ℕ} (h : i < v.length) :
    (borrow v i : Exec μ τ α) = pure v[i] := by
  rw [borrow, List.getElem?_eq_getElem h]

/-! ### Counted loops -/

/-- `while (i < n) { a = body(i, a); i = i + 1 }`, with `fuel` turns left. -/
def foldWhileFrom (n : ℕ) (body : ℕ → α → Exec μ τ α) : ℕ → ℕ → α → Exec μ τ α
  | 0, _, a => pure a
  | fuel + 1, i, a =>
    if i < n then do
      let a ← body i a
      let i ← add i 1
      foldWhileFrom n body fuel i a
    else pure a

/-- `while (i < n) { a = body(i, a); i = i + 1 }` from `i` on. -/
def foldWhile (i n : ℕ) (body : ℕ → α → Exec μ τ α) (a : α) : Exec μ τ α :=
  foldWhileFrom n body (n - i) i a

/-- `while (i < n) { if (body(i) returns b) return b; i = i + 1 }`, with `fuel`
turns left. -/
def searchWhileFrom (n : ℕ) (body : ℕ → Exec μ τ (Option β)) : ℕ → ℕ → Exec μ τ (Option β)
  | 0, _ => pure none
  | fuel + 1, i =>
    if i < n then do
      match ← body i with
      | some b => pure (some b)
      | none => do
        let i ← add i 1
        searchWhileFrom n body fuel i
    else pure none

/-- `while (i < n) { if (body(i) returns b) return b; i = i + 1 }` from `i` on;
`none` when the loop runs out. -/
def searchWhile (i n : ℕ) (body : ℕ → Exec μ τ (Option β)) : Exec μ τ (Option β) :=
  searchWhileFrom n body (n - i) i

/-- **Loop invariant**: a body that returns and keeps the invariant makes a loop
that returns with the invariant at its end.  The counter does not overflow. -/
theorem foldWhile_invariant {n : ℕ} {f : ℕ → α → Exec μ τ α} {I : ℕ → α → Prop}
    (hn : n < 2 ^ 64) {i : ℕ} (hi : i ≤ n)
    (hf : ∀ j a, i ≤ j → j < n → I j a → ∃ a', f j a = pure a' ∧ I (j + 1) a')
    {a : α} (ha : I i a) : ∃ a', foldWhile i n f a = pure a' ∧ I n a' := by
  have from_ : ∀ fuel j a, i ≤ j → j + fuel = n → I j a →
      ∃ a', foldWhileFrom n f fuel j a = pure a' ∧ I n a' := by
    intro fuel
    induction fuel with
    | zero =>
      intro j a _ hj ha
      obtain rfl : j = n := by omega
      exact ⟨a, rfl, ha⟩
    | succ fuel ih =>
      intro j a hij hj ha
      obtain ⟨a', hrun, ha'⟩ := hf j a hij (by omega) ha
      obtain ⟨a'', hrest, ha''⟩ := ih (j + 1) a' (by omega) (by omega) ha'
      refine ⟨a'', ?_, ha''⟩
      rw [foldWhileFrom, if_pos (by omega), hrun, pure_bind, add_of_lt (by omega), pure_bind, hrest]
  exact from_ (n - i) i a (Nat.le_refl i) (by omega) ha

theorem foldWhile_copy {v : List α} {n : ℕ} {f : ℕ → List α → Exec μ τ (List α)}
    (hn : n < 2 ^ 64) (hlen : n ≤ v.length)
    (hf : ∀ i out (h : i < n), f i out = pure (out ++ [v[i]])) :
    foldWhile 0 n f [] = pure (v.take n) := by
  obtain ⟨out, hrun, hout⟩ := foldWhile_invariant (a := []) (I := fun i out => out = v.take i) hn
    (Nat.zero_le n)
    (fun i out _ hi hout => ⟨_, hf i out hi, by rw [hout, List.take_append_getElem]⟩) rfl
  rw [hrun, hout]

/-- **Search**: a loop that only tests either returns at the first hit or runs out
without one.  The counter does not overflow. -/
theorem searchWhile_cases {n : ℕ} {f : ℕ → Exec μ τ (Option β)} {p : ℕ → Prop}
    [DecidablePred p] {b : ℕ → β} (hn : n < 2 ^ 64) {i : ℕ}
    (hf : ∀ j, i ≤ j → j < n → f j = pure (if p j then some (b j) else none)) :
    (∃ j, i ≤ j ∧ j < n ∧ p j ∧ (∀ k, i ≤ k → k < j → ¬ p k)
      ∧ searchWhile i n f = pure (some (b j)))
    ∨ ((∀ j, i ≤ j → j < n → ¬ p j) ∧ searchWhile i n f = pure none) := by
  have from_ : ∀ fuel j, i ≤ j → j + fuel = n → (∀ k, i ≤ k → k < j → ¬ p k) →
      (∃ k, i ≤ k ∧ k < n ∧ p k ∧ (∀ l, i ≤ l → l < k → ¬ p l)
        ∧ searchWhileFrom n f fuel j = pure (some (b k)))
      ∨ ((∀ k, i ≤ k → k < n → ¬ p k) ∧ searchWhileFrom n f fuel j = pure none) := by
    intro fuel
    induction fuel with
    | zero =>
      intro j _ hj hmiss
      obtain rfl : j = n := by omega
      exact .inr ⟨hmiss, rfl⟩
    | succ fuel ih =>
      intro j hij hj hmiss
      rw [searchWhileFrom, if_pos (by omega), hf j hij (by omega), pure_bind]
      by_cases hp : p j
      · rw [if_pos hp]
        exact .inl ⟨j, hij, by omega, hp, hmiss, rfl⟩
      · rw [if_neg hp]
        show (∃ k, _ ∧ _ ∧ _ ∧ _ ∧ add j 1 >>= _ = _) ∨ (_ ∧ add j 1 >>= _ = _)
        rw [add_of_lt (by omega), pure_bind]
        refine ih (j + 1) (by omega) (by omega) fun k hik hk => ?_
        by_cases hkj : k = j
        · rw [hkj]; exact hp
        · exact hmiss k hik (by omega)
  by_cases h : i ≤ n
  · exact from_ (n - i) i (Nat.le_refl i) (by omega) fun k hik hk => absurd hk (by omega)
  · have hz : n - i = 0 := by omega
    refine .inr ⟨fun j hij hj => absurd hj (by omega), ?_⟩
    rw [searchWhile, hz]
    rfl

end Exec

/-! ### Vectors -/

/-- A vector: a list whose length fits a `u64`. -/
structure Vec (α : Type) where
  toList : List α
  fits : toList.length < 2 ^ 64
  deriving DecidableEq

namespace Vec

variable {μ τ α : Type}

@[ext] theorem ext {v w : Vec α} (h : v.toList = w.toList) : v = w := by
  cases v
  cases w
  cases h
  rfl

def isEmpty (v : Vec α) : Bool := v.toList.isEmpty

/-- `push_back`; a vector that would outgrow its length aborts. -/
def pushBack (v : Vec α) (a : α) : Exec μ τ (Vec α) :=
  if h : (v.toList ++ [a]).length < 2 ^ 64 then pure ⟨v.toList ++ [a], h⟩ else ⟨[], .error .bounds⟩

/-- The vector without its entry at `i`. -/
def eraseIdx (v : Vec α) (i : ℕ) : Vec α :=
  ⟨v.toList.eraseIdx i, Nat.lt_of_le_of_lt (List.length_eraseIdx_le v.toList i) v.fits⟩

/-- `remove`; past the end aborts. -/
def remove (v : Vec α) (i : ℕ) : Exec μ τ (Vec α) :=
  if i < v.toList.length then pure (v.eraseIdx i) else ⟨[], .error .bounds⟩

theorem remove_of_lt {v : Vec α} {i : ℕ} (h : i < v.toList.length) :
    (v.remove i : Exec μ τ _) = pure (v.eraseIdx i) := if_pos h

theorem pushBack_eq_ok {v w : Vec α} {a : α} (h : (v.pushBack a : Exec μ τ _).result = .ok w) :
    w.toList = v.toList ++ [a] := by
  unfold pushBack at h
  split at h
  · cases h; rfl
  · cases h

end Vec

/-! ### Tables -/

/-- A finite map, as its entries. -/
structure Table (κ ν : Type) where
  entries : List (κ × ν)
  nodup : (entries.map Prod.fst).Nodup

namespace Table

variable {μ τ κ ν : Type}

def empty : Table κ ν := ⟨[], List.nodup_nil⟩

def keys (t : Table κ ν) : List κ := t.entries.map Prod.fst

variable [DecidableEq κ]

def contains (t : Table κ ν) (k : κ) : Bool := decide (k ∈ t.keys)

def add (t : Table κ ν) (k : κ) (v : ν) : Exec μ τ (Table κ ν) :=
  if h : k ∈ t.keys then ⟨[], .error .keyExists⟩
  else pure ⟨t.entries ++ [(k, v)], by
    rw [List.map_append, List.nodup_append]
    refine ⟨t.nodup, List.nodup_singleton _, fun a ha b hb => ?_⟩
    obtain rfl : b = k := by simpa using hb
    exact fun hab => h (hab ▸ ha)⟩

@[simp] theorem contains_iff {t : Table κ ν} {k : κ} : t.contains k = true ↔ k ∈ t.keys :=
  decide_eq_true_iff

theorem add_of_not_mem {t : Table κ ν} {k : κ} (h : k ∉ t.keys) (v : ν) :
    ∃ t', (t.add k v : Exec μ τ _) = pure t' ∧ t'.keys = t.keys ++ [k] := by
  rw [add, dif_neg h]
  exact ⟨_, rfl, by rw [keys, List.map_append]; rfl⟩

end Table

end Move
