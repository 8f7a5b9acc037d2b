import Mathlib.Data.Finset.Card

/-!
# A fair semaphore

A semaphore with `n` permits, waited for in order of arrival: who asks takes a
permit if one is free and waits at the end of the queue if not, and a permit given
back goes to the head of the queue.  A waiter may give up.

What makes it a semaphore is carried by the structure: no permit is made or lost
(`count`), nobody waits with a permit in hand (`apart`), and nobody waits while a
permit is free (`eager`).
-/

/-- Who waits for a permit and who has one. -/
structure Semaphore (α : Type) [DecidableEq α] (n : ℕ) where
  permits : ℕ
  waiters : List α
  holders : Finset α
  count : permits + holders.card = n
  nodup : waiters.Nodup
  apart : ∀ a ∈ waiters, a ∉ holders
  eager : waiters ≠ [] → permits = 0

namespace Semaphore

variable {α : Type} [DecidableEq α] {n : ℕ}

def new (n : ℕ) : Semaphore α n where
  permits := n
  waiters := []
  holders := ∅
  count := rfl
  nodup := List.nodup_nil
  apart := fun _ h => by cases h
  eager := fun h => absurd rfl h

variable (s : Semaphore α n)

def Present (a : α) : Prop := a ∈ s.waiters ∨ a ∈ s.holders

instance (a : α) : Decidable (s.Present a) := inferInstanceAs (Decidable (_ ∨ _))

theorem card_holders_le : s.holders.card ≤ n := by
  have := s.count
  omega

/-- All permits are out while somebody waits. -/
theorem card_holders_of_waiting (h : s.waiters ≠ []) : s.holders.card = n := by
  have := s.count
  rw [s.eager h, Nat.zero_add] at this
  exact this

def acquire (a : α) (h : ¬ s.Present a) : Semaphore α n :=
  if hp : s.permits = 0 then
    { s with
      waiters := s.waiters ++ [a]
      nodup := by
        rw [List.nodup_append]
        refine ⟨s.nodup, List.nodup_singleton a, fun b hb c hc => ?_⟩
        rintro rfl
        rw [List.mem_singleton] at hc
        exact h (.inl (hc ▸ hb))
      apart := by
        intro b hb
        rcases List.mem_append.mp hb with hb | hb
        · exact s.apart b hb
        · rw [List.mem_singleton.mp hb]
          exact fun hmem => h (.inr hmem)
      eager := fun _ => hp }
  else
    { s with
      permits := s.permits - 1
      holders := insert a s.holders
      count := by
        rw [Finset.card_insert_of_notMem fun hmem => h (.inr hmem)]
        have := s.count
        omega
      apart := by
        intro b hb hmem
        rcases Finset.mem_insert.mp hmem with rfl | hmem
        · exact h (.inl hb)
        · exact s.apart b hb hmem
      eager := fun hw => absurd (s.eager hw) hp }

/-- Give a permit back: to the head of the queue, if there is one. -/
def release (a : α) (h : a ∈ s.holders) : Semaphore α n :=
  match hw : s.waiters with
  | [] =>
    { permits := s.permits + 1
      waiters := []
      holders := s.holders.erase a
      count := by
        have := Finset.card_erase_add_one h
        have := s.count
        omega
      nodup := List.nodup_nil
      apart := fun _ hb => by cases hb
      eager := fun hne => absurd rfl hne }
  | w :: ws =>
    have hnodup : (w :: ws).Nodup := hw ▸ s.nodup
    have hapart : ∀ b ∈ w :: ws, b ∉ s.holders := hw ▸ s.apart
    { permits := s.permits
      waiters := ws
      holders := insert w (s.holders.erase a)
      count := by
        have hnot : w ∉ s.holders.erase a := fun hmem =>
          hapart w List.mem_cons_self (Finset.mem_of_mem_erase hmem)
        rw [Finset.card_insert_of_notMem hnot, Finset.card_erase_add_one h]
        exact s.count
      nodup := (List.nodup_cons.mp hnodup).2
      apart := by
        intro b hb hmem
        rcases Finset.mem_insert.mp hmem with rfl | hmem
        · exact (List.nodup_cons.mp hnodup).1 hb
        · exact hapart b (List.mem_cons_of_mem w hb) (Finset.mem_of_mem_erase hmem)
      eager := fun _ => s.eager (hw ▸ List.cons_ne_nil w ws) }

def leave (a : α) : Semaphore α n :=
  { s with
    waiters := s.waiters.erase a
    nodup := s.nodup.erase a
    apart := fun b hb => s.apart b (List.mem_of_mem_erase hb)
    eager := fun hne => s.eager fun hnil => hne (by rw [hnil]; rfl) }

/-! ### Who has a permit afterwards, and who is left -/

variable {s}

theorem holders_acquire {a : α} (h : ¬ s.Present a) :
    (s.acquire a h).holders = if s.permits = 0 then s.holders else insert a s.holders := by
  unfold acquire
  split <;> rfl

theorem mem_holders_acquire {a : α} (h : ¬ s.Present a) :
    a ∈ (s.acquire a h).holders ↔ s.permits ≠ 0 := by
  rw [holders_acquire]
  split
  · rename_i hp
    exact ⟨fun hmem => absurd (.inr hmem) h, fun hne => absurd hp hne⟩
  · rename_i hp
    exact ⟨fun _ => hp, fun _ => Finset.mem_insert_self a _⟩

theorem subset_holders_acquire {a : α} (h : ¬ s.Present a) :
    s.holders ⊆ (s.acquire a h).holders := by
  rw [holders_acquire]
  split
  · exact Finset.Subset.refl _
  · exact Finset.subset_insert a _

theorem erase_subset_holders_release {a : α} (h : a ∈ s.holders) :
    s.holders.erase a ⊆ (s.release a h).holders := by
  unfold release
  split
  · exact Finset.Subset.refl _
  · exact Finset.subset_insert _ _

theorem present_acquire {a b : α} (h : ¬ s.Present a) (hb : (s.acquire a h).Present b) :
    b = a ∨ s.Present b := by
  unfold acquire at hb
  split at hb
  · rcases hb with hb | hb
    · rcases List.mem_append.mp hb with hb | hb
      · exact .inr (.inl hb)
      · exact .inl (List.mem_singleton.mp hb)
    · exact .inr (.inr hb)
  · rcases hb with hb | hb
    · exact .inr (.inl hb)
    · exact (Finset.mem_insert.mp hb).imp id .inr

theorem present_release {a b : α} (h : a ∈ s.holders) (hb : (s.release a h).Present b) :
    b ≠ a ∧ s.Present b := by
  have hholder : b ∈ s.holders.erase a → b ≠ a ∧ s.Present b := fun hmem =>
    ⟨(Finset.mem_erase.mp hmem).1, .inr (Finset.mem_erase.mp hmem).2⟩
  have hwaiter : b ∈ s.waiters → b ≠ a ∧ s.Present b := fun hmem =>
    ⟨fun heq => s.apart b hmem (heq ▸ h), .inl hmem⟩
  unfold release at hb
  split at hb
  · rcases hb with hb | hb
    · cases hb
    · exact hholder hb
  · rename_i w ws hw
    rcases hb with hb | hb
    · exact hwaiter (hw ▸ List.mem_cons_of_mem w hb)
    · rcases Finset.mem_insert.mp hb with rfl | hb
      · exact hwaiter (hw ▸ List.mem_cons_self)
      · exact hholder hb

theorem present_leave {a b : α} (hb : (s.leave a).Present b) : s.Present b :=
  hb.imp List.mem_of_mem_erase id

end Semaphore
