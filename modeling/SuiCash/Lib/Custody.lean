import Mathlib.Data.List.Nodup
import Mathlib.Data.List.Perm.Basic
import SuiCash.Lib.Threads

/-!
# Custody of single-use tokens

Tokens are obtained one by one, each is for one key, and each may be used once.
They are kept in a store, which has room for one key and one token for it, and in
the hands of threads.  `Move` lists what may happen to them: a token is obtained,
filed, taken out, used or lost, never copied and never put with another key.

`Sound` is what custody is worth: the token in the store is for the key in the
store, a token in hand or used goes with its own key, and no token is in two
places.  `Sound.move` is its step lemma.  A program whose actions are moves is a
`Custodian`, and `Custodian.run_sound` says its store stays sound under every
schedule of its threads.
-/

namespace Custody

variable {κ τ : Type}

/-- Where tokens are kept, and what has become of them. -/
structure Store (κ τ : Type) where
  /-- How many tokens have been obtained; the next one gets this serial. -/
  obtained : ℕ
  key : Option κ
  token : Option τ
  used : List (κ × τ)

/-- The key a token is for, and its serial. -/
structure Kind (κ τ : Type) where
  keyOf : τ → κ
  serial : τ → ℕ

variable (K : Kind κ τ)

/-- What may happen to a store and to the tokens in one hand, each with the key it is
held for. -/
inductive Move : Store κ τ → List (κ × τ) → Store κ τ → List (κ × τ) → Prop where
  | keep (s : Store κ τ) (hand : List (κ × τ)) : Move s hand s hand
  | lose (s : Store κ τ) (hand : List (κ × τ)) : Move s hand s []
  | obtain (s : Store κ τ) (t : τ) (h : K.serial t = s.obtained) :
    Move s [] { s with obtained := s.obtained + 1 } [(K.keyOf t, t)]
  /-- Obtained and let go of at once. -/
  | skip (s : Store κ τ) : Move s [] { s with obtained := s.obtained + 1 } []
  | file (s : Store κ τ) (k : κ) (t : τ) :
    Move s [(k, t)] { s with key := some k, token := some t } []
  | fileKey (s : Store κ τ) (k : κ) : Move s [] { s with key := some k, token := none } []
  | clear (s : Store κ τ) : Move s [] { s with key := none, token := none } []
  | take (s : Store κ τ) (k : κ) (h : s.key = some k) :
    Move s [] { s with token := none } (s.token.toList.map fun t => (k, t))
  | use (s : Store κ τ) (k : κ) (t : τ) : Move s [(k, t)] { s with used := s.used ++ [(k, t)] } []

/-- The tokens there are. -/
def Store.tokens (s : Store κ τ) (hands : List (κ × τ)) : List τ :=
  s.token.toList ++ (hands ++ s.used).map Prod.snd

/-- What custody keeps of a store and of the tokens in all hands. -/
structure Sound (s : Store κ τ) (hands : List (κ × τ)) : Prop where
  filed : ∀ t, s.token = some t → s.key = some (K.keyOf t)
  paired : ∀ p ∈ hands ++ s.used, p.1 = K.keyOf p.2
  fresh : ∀ t ∈ s.tokens hands, K.serial t < s.obtained
  nodup : ((s.tokens hands).map K.serial).Nodup

variable {K}

theorem sound_empty : Sound K (⟨0, none, none, []⟩ : Store κ τ) [] := by
  refine ⟨?_, ?_, ?_, ?_⟩ <;> simp [Store.tokens]

theorem Sound.of_subperm {s s' : Store κ τ} {hands hands' : List (κ × τ)} (h : Sound K s hands)
    (hfiled : ∀ t, s'.token = some t → s'.key = some (K.keyOf t))
    (hpaired : ∀ p ∈ hands' ++ s'.used, p.1 = K.keyOf p.2) (hobtained : s.obtained ≤ s'.obtained)
    (htokens : (s'.tokens hands').Subperm (s.tokens hands)) : Sound K s' hands' := by
  refine ⟨hfiled, hpaired, fun t ht => ?_, ?_⟩
  · exact Nat.lt_of_lt_of_le (h.fresh t (htokens.subset ht)) hobtained
  · obtain ⟨l, hperm, hsub⟩ := htokens
    exact (hperm.map K.serial).nodup_iff.mp (h.nodup.sublist (hsub.map K.serial))

theorem Sound.perm {s : Store κ τ} {hands hands' : List (κ × τ)} (h : Sound K s hands)
    (hp : hands.Perm hands') : Sound K s hands' := by
  have hpairs := hp.append_right s.used
  exact h.of_subperm h.filed (fun p hmem => h.paired p (hpairs.mem_iff.mpr hmem)) (Nat.le_refl _)
    ((hpairs.map Prod.snd).append_left _).symm.subperm

/-- A token with a new serial may come into a hand. -/
theorem Sound.issue {s : Store κ τ} {others : List (κ × τ)} (h : Sound K s others) {t : τ}
    (ht : K.serial t = s.obtained) :
    Sound K { s with obtained := s.obtained + 1 } ((K.keyOf t, t) :: others) := by
  have hlt : ∀ u ∈ s.tokens others, K.serial u < K.serial t := fun u hu => by
    rw [ht]
    exact h.fresh u hu
  have hperm : ({ s with obtained := s.obtained + 1 }.tokens ((K.keyOf t, t) :: others)).Perm
      (t :: s.tokens others) := List.perm_middle
  refine ⟨h.filed, fun p hp => ?_, fun u hu => ?_, ?_⟩
  · rcases List.mem_cons.mp hp with rfl | hp
    · rfl
    · exact h.paired p hp
  · show K.serial u < s.obtained + 1
    rcases List.mem_cons.mp (hperm.mem_iff.mp hu) with rfl | hu
    · omega
    · have := hlt u hu
      omega
  · rw [(hperm.map K.serial).nodup_iff, List.map_cons, List.nodup_cons]
    refine ⟨fun hmem => ?_, h.nodup⟩
    obtain ⟨u, hu, heq⟩ := List.mem_map.mp hmem
    exact absurd heq (Nat.ne_of_lt (hlt u hu))

/-- **A move keeps custody**, whatever is in the other hands. -/
theorem Sound.move {s s' : Store κ τ} {hand hand' others : List (κ × τ)}
    (h : Sound K s (hand ++ others)) (hm : Move K s hand s' hand') : Sound K s' (hand' ++ others) := by
  have hothers : ∀ p ∈ others ++ s.used, p.1 = K.keyOf p.2 := fun p hp =>
    h.paired p (by rw [List.append_assoc]; exact List.mem_append_right _ hp)
  cases hm with
  | keep => exact h
  | lose =>
    exact h.of_subperm h.filed hothers (Nat.le_refl _)
      (((List.sublist_append_right _ _).append_right _).map _ |>.append_left _).subperm
  | obtain t ht => exact Sound.issue h ht
  | skip => exact h.of_subperm h.filed h.paired (Nat.le_succ _) (List.Subperm.refl _)
  | file k t =>
    refine h.of_subperm (fun u hu => ?_) hothers (Nat.le_refl _)
      (List.sublist_append_right _ _).subperm
    obtain rfl : t = u := Option.some.inj hu
    exact congrArg some (h.paired (k, t) List.mem_cons_self)
  | fileKey k =>
    exact h.of_subperm (fun u hu => by cases hu) hothers (Nat.le_refl _)
      (List.sublist_append_right _ _).subperm
  | clear =>
    exact h.of_subperm (fun u hu => by cases hu) hothers (Nat.le_refl _)
      (List.sublist_append_right _ _).subperm
  | take k hk =>
    refine h.of_subperm (fun u hu => by cases hu) (fun p hp => ?_) (Nat.le_refl _) ?_
    · rw [List.append_assoc] at hp
      rcases List.mem_append.mp hp with hp | hp
      · obtain ⟨u, hu, rfl⟩ := List.mem_map.mp hp
        have hkey := h.filed u (Option.mem_toList.mp hu)
        rw [hk] at hkey
        exact Option.some.inj hkey
      · exact hothers p hp
    · refine List.Perm.subperm (List.Perm.of_eq ?_)
      simp [Store.tokens, Function.comp_def]
  | use k t =>
    refine h.of_subperm h.filed (fun p hp => ?_) (Nat.le_refl _) ?_
    · rw [← List.append_assoc] at hp
      rcases List.mem_append.mp hp with hp | hp
      · exact hothers p hp
      · obtain rfl := List.mem_singleton.mp hp
        exact h.paired (k, t) List.mem_cons_self
    · refine (List.Perm.append_left _ (List.Perm.map _ ?_)).subperm
      rw [List.nil_append, ← List.append_assoc]
      exact List.perm_append_comm

/-! ### Programs that keep custody -/

open Threads

variable {σ ρ κ' ι α : Type}

/-- A program whose calls take no token in hand, and whose actions are moves. -/
structure Custodian (K : Kind κ τ) (P : Program σ ρ κ' ι α) where
  store : σ → Store κ τ
  /-- The tokens an action has in hand. -/
  hold : α → List (κ × τ)
  hold_call : ∀ r k w work, P.call r k w = some work → work.flatMap hold = []
  move_exec : ∀ a x w, Move K (store w) (hold a) (store (P.exec a x w).world)
    ((P.exec a x w).work.flatMap hold)

/-- **Custody under every schedule.** -/
theorem Custodian.run_sound {P : Program σ ρ κ' ι α} (C : Custodian K P) {s : State σ ρ α}
    (h : Sound K (C.store s.world) (s.pending.flatMap C.hold)) (ls : List (Label κ' ι)) :
    Sound K (C.store (P.run s ls).world) ((P.run s ls).pending.flatMap C.hold) := by
  have hinv : P.Invariant (fun _ _ _ => True)
      (fun w p => Sound K (C.store w) (p.flatMap C.hold)) := by
    refine ⟨fun hpq hw => hw.perm (hpq.flatMap_right C.hold), fun {r k w work p} hwork hw => ?_,
      fun {a x w p} _ hw => ?_⟩
    · rw [List.flatMap_append, C.hold_call r k w work hwork, List.nil_append]
      exact hw
    · rw [List.flatMap_append]
      exact Sound.move (by simpa only [List.flatMap_cons] using hw) (C.move_exec a x w)
  exact hinv.run h ls

end Custody
