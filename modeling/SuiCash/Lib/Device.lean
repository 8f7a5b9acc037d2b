import SuiCash.Lib.Fallible
import SuiCash.Lib.Stateful

/-!
# Programs that talk to a device

A program asks a device and goes on with the answer, or it is done.  A device is any
function from questions to answers; what a program has asked it (`asked`) and what comes
of it (`outcome`) are functions of the device, so that a statement about every device is
one about every behaviour of the other side.  A device that remembers answers out of a
state of its own (`perform`).
-/

namespace Device

open Fallible

/-- A program that asks `Q`, is answered in `A`, and ends with a value, an error or a panic. -/
inductive Program (Q A ε α : Type) where
  | done (result : Except (Stop ε) α)
  | ask (question : Q) (next : A → Program Q A ε α)

namespace Program

variable {Q A ε α β : Type}

protected def bind : Program Q A ε α → (α → Program Q A ε β) → Program Q A ε β
  | .done (.ok a), f => f a
  | .done (.error e), _ => .done (.error e)
  | .ask q next, f => .ask q fun a => (next a).bind f

instance : Monad (Program Q A ε) where
  pure a := .done (.ok a)
  bind := Program.bind

def asked (device : Q → A) : Program Q A ε α → List Q
  | .done _ => []
  | .ask q next => q :: (next (device q)).asked device

def outcome (device : Q → A) : Program Q A ε α → Except (Stop ε) α
  | .done result => result
  | .ask q next => (next (device q)).outcome device

variable (device : Q → A)

@[simp] theorem asked_done (result : Except (Stop ε) α) :
    (done result : Program Q A ε α).asked device = [] := rfl

@[simp] theorem outcome_done (result : Except (Stop ε) α) :
    (done result : Program Q A ε α).outcome device = result := rfl

@[simp] theorem asked_ask (q : Q) (next : A → Program Q A ε α) :
    (ask q next).asked device = q :: (next (device q)).asked device := rfl

@[simp] theorem outcome_ask (q : Q) (next : A → Program Q A ε α) :
    (ask q next).outcome device = (next (device q)).outcome device := rfl

theorem outcome_bind (p : Program Q A ε α) (f : α → Program Q A ε β) :
    (p >>= f).outcome device = p.outcome device >>= fun a => (f a).outcome device := by
  induction p with
  | done result => cases result <;> rfl
  | ask q next ih => exact ih (device q)

/-- After what the first program asks comes what the second does, if it is reached. -/
theorem asked_bind (p : Program Q A ε α) (f : α → Program Q A ε β) :
    (p >>= f).asked device = p.asked device ++
      match p.outcome device with
      | .ok a => (f a).asked device
      | .error _ => [] := by
  induction p with
  | done result => cases result <;> rfl
  | ask q next ih => exact congrArg (q :: ·) (ih (device q))

/-- A program with a device that remembers. -/
def perform {σ : Type} (device : Q → σ → A × σ) : Program Q A ε α → Stateful σ (Stop ε) α
  | .done result => .lift result
  | .ask q next => fun s => (next (device q s).1).perform device (device q s).2

theorem perform_ask {σ : Type} {device : Q → σ → A × σ} {q : Q} {a : A} {s s' : σ}
    (h : device q s = (a, s')) (next : A → Program Q A ε α) :
    (ask q next).perform device s = (next a).perform device s' := by
  show (next (device q s).1).perform device (device q s).2 = _
  rw [h]

theorem perform_bind {σ : Type} (device : Q → σ → A × σ) (p : Program Q A ε α)
    (f : α → Program Q A ε β) :
    (p >>= f).perform device = p.perform device >>= fun a => (f a).perform device := by
  funext s
  induction p generalizing s with
  | done result => cases result <;> rfl
  | ask q next ih => exact ih (device q s).1 (device q s).2

end Program

end Device
