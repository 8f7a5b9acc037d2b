import SuiCash.Facepay.Consent
import SuiCash.Lib.Runs

/-!
# Cards that replace each other

The card loop takes a card for removed when a poll fails slowly, and ends its session.  A
poll that finds another card ends nothing: the session of the card before lives on while
the new one is attested, and for as long as its attestations fail.

`Watch` follows the card loop from outside: whether a poll has found a card that is not
yet published, and what was published last.  A live session is that of the card published
last (`Watch.Follows`), so a payment launched in between is the replaced card's, and there
is one exactly if a report is handled in between with a payment armed and a session live
(`replacement_iff`).
-/

namespace SuiCash.Facepay

open Threads
open Prover (ArkGroth16)

/-! ### Watching the card loop -/

structure Watch where
  /-- A poll has found a card with another IDm, and it is not yet published. -/
  replacing : Bool
  /-- What `on_card` published last. -/
  published : Option (String × Attestation)
  deriving DecidableEq

namespace Watch

def initial : Watch := ⟨false, none⟩

/-- What a step lets one see of the card loop. -/
def next (g : Watch) (s : State World Role Act) (l : Label Call Reply) : Watch :=
  match l with
  | .call i (.poll (.present idm)) =>
    if s.threads[i]? = some (.card, []) ∧ s.world.lastIdm ≠ some idm then { g with replacing := true }
    else g
  | .call _ _ => g
  | .run _ _ =>
    match s.next? l with
    | some (.publishCard idi att _, _, _) => ⟨false, some (idi, att)⟩
    | _ => g

/-- The live session is that of the card published last. -/
def Follows (g : Watch) (w : World) : Prop :=
  ∀ idi ∈ w.shared.currentIdi, ∃ att, g.published = some (idi, att)
    ∧ ∀ att' ∈ w.shared.currentAtt, att' = att

end Watch

section Run

variable (ark : ArkGroth16) (merchant : String) (toLowercase : String → String)

def watched (sg : State World Role Act × Watch) (l : Label Call Reply) :
    Option (State World Role Act × Watch) :=
  some ((program ark merchant toLowercase).step sg.1 l, sg.2.next sg.1 l)

def launches (s : State World Role Act) (l : Label Call Reply) : List (Delivery × Job) :=
  ((program ark merchant toLowercase).step s l).world.launched.drop s.world.launched.length

/-- Until the card that a poll has found is published, no payment is launched with the IDi
or the attestation of the card before it. -/
def NoReplacedPayment (sg : State World Role Act × Watch) (l : Label Call Reply) : Prop :=
  sg.2.replacing = true → ∀ q ∈ launches ark merchant toLowercase sg.1 l, ∀ p ∈ sg.2.published,
    q.2.idi ≠ p.1 ∧ q.2.att ≠ some p.2

instance (sg : State World Role Act × Watch) (l : Label Call Reply) :
    Decidable (NoReplacedPayment ark merchant toLowercase sg l) := inferInstanceAs (Decidable (_ → _))

/-- No report is handled in between, unless no payment is armed or no session is live. -/
def Unreplaced (sg : State World Role Act × Watch) (l : Label Call Reply) : Prop :=
  sg.2.replacing = true → ∀ next ∈ sg.1.next? l, (handles? next.1).isSome = true →
    sg.1.world.shared.payMode = none ∨ sg.1.world.shared.currentIdi = none

/-! ### The session -/

theorem session_exec {a : Act} (ha : ∀ idi att e, a ≠ .publishCard idi att e) (x : Reply)
    (w : World) :
    let s := (exec ark merchant toLowercase a x w).world.shared
    s.currentIdi = none
      ∨ s.currentIdi = w.shared.currentIdi
        ∧ (s.currentAtt = w.shared.currentAtt ∨ s.currentAtt = none) := by
  cases a with
  | publishCard idi att e => exact absurd rfl (ha idi att e)
  | removeCard => exact .inl rfl
  | faceOk d =>
    right
    simp only [exec, faceOk]
    split
    · exact ⟨rfl, .inr rfl⟩
    · exact ⟨rfl, .inl rfl⟩
  | read id =>
    right
    simp only [exec, read]
    split <;> exact ⟨rfl, .inl rfl⟩
  | attest idm =>
    right
    simp only [exec]
    split <;> exact ⟨rfl, .inl rfl⟩
  | setMode mist | sendTerminal e | send id e | broadcastStatus | connect | deliver id | unregister id
  | runPayment job | pay idi amount att balance | storePayment e | lookupCard idi att
  | process id | faceResult id ok mode | leave id | report id r =>
    exact .inr ⟨rfl, .inl rfl⟩

namespace Watch

variable {ark merchant toLowercase}

theorem Follows.of_session {g : Watch} {w w' : World} (h : g.Follows w)
    (hw : w'.shared.currentIdi = none
      ∨ w'.shared.currentIdi = w.shared.currentIdi
        ∧ (w'.shared.currentAtt = w.shared.currentAtt ∨ w'.shared.currentAtt = none)) :
    g.Follows w' := by
  intro idi hidi
  rcases hw with hnone | ⟨hsame, hatt⟩
  · rw [hnone] at hidi
    cases hidi
  · obtain ⟨att, hpublished, hcurrent⟩ := h idi (hsame ▸ hidi)
    refine ⟨att, hpublished, fun att' hatt' => ?_⟩
    rcases hatt with hkept | htaken
    · exact hcurrent att' (hkept ▸ hatt')
    · rw [htaken] at hatt'
      cases hatt'

/-- **One step**: a session that is live follows what was published last. -/
theorem Follows.step {g : Watch} {s : State World Role Act} (h : g.Follows s.world)
    (l : Label Call Reply) :
    (g.next s l).Follows ((program ark merchant toLowercase).step s l).world := by
  rw [Program.step_world]
  cases l with
  | call i k =>
    have hpublished : (g.next s (.call i k)).published = g.published := by
      unfold next
      split
      · split <;> rfl
      · rfl
      · rename_i heq
        cases heq
    intro idi hidi
    rw [hpublished]
    exact h idi hidi
  | run i x =>
    cases hnext : s.next? (.run i x) with
    | none => simpa only [next, hnext] using h
    | some next =>
      obtain ⟨a, x', others⟩ := next
      by_cases ha : ∃ idi att e, a = .publishCard idi att e
      · obtain ⟨idi, att, e, rfl⟩ := ha
        simp only [Watch.next, hnext]
        intro idi' hidi'
        cases hidi'
        exact ⟨att, rfl, fun att' hatt' => (Option.some.inj hatt').symm⟩
      · have hsame : g.next s (.run i x) = g := by
          simp only [Watch.next, hnext]
          split
          · rename_i idi att e _ _ heq
            cases heq
            exact absurd ⟨_, _, _, rfl⟩ ha
          · rfl
        rw [hsame]
        exact h.of_session (session_exec ark merchant toLowercase
          (fun idi att e heq => ha ⟨idi, att, e, heq⟩) x' s.world)

/-- **Exactly a report handled in between** launches a payment of the replaced card. -/
theorem Follows.noReplacedPayment_iff {sg : State World Role Act × Watch}
    (h : sg.2.Follows sg.1.world) (l : Label Call Reply) :
    NoReplacedPayment ark merchant toLowercase sg l ↔ Unreplaced sg l := by
  obtain ⟨s, g⟩ := sg
  refine forall_congr' fun _ => ?_
  simp only [launches, Program.step_world]
  cases hnext : s.next? l with
  | none => simp
  | some next =>
    obtain ⟨a, x, others⟩ := next
    simp only [Option.mem_def, Option.some.injEq, forall_eq']
    cases ha : handles? a with
    | none =>
      have hlaunched : ((program ark merchant toLowercase).exec a x s.world).world.launched
          = s.world.launched := launched_exec ark merchant toLowercase ha x s.world
      simp [hlaunched]
    | some d =>
      obtain rfl : a = .faceOk d := by cases a <;> cases ha; rfl
      cases hmode : s.world.shared.payMode with
      | none => simp [program, exec, faceOk, hmode, leaves]
      | some amount =>
        cases hidi : s.world.shared.currentIdi with
        | none => simp [program, exec, faceOk, hmode, hidi, leaves]
        | some idi =>
          -- The job that is launched is of the live session.
          obtain ⟨att, hatt, -⟩ := h idi hidi
          have hpublished : g.published = some (idi, att) := hatt
          simp [program, exec, faceOk, hmode, hidi, hpublished]

end Watch

/-- **No payment from a replaced card** in a run, exactly if no report is handled in
between: with a payment armed and a session live, after a poll has found another card and
before that card is published. -/
theorem replacement_iff (ls : List (Label Call Reply)) :
    Runs.Along (watched ark merchant toLowercase) (NoReplacedPayment ark merchant toLowercase)
        (initial, .initial) ls
      ↔ Runs.Along (watched ark merchant toLowercase) Unreplaced (initial, .initial) ls := by
  refine Runs.along_congr (I := fun sg => sg.2.Follows sg.1.world) ?_
    (fun h l => Watch.Follows.noReplacedPayment_iff h l) ?_ ls
  · rintro sg l _ hs - h
    cases hs
    exact Watch.Follows.step h l
  · intro idi hidi
    cases hidi

end Run

/-! ### A payment from a replaced card -/

def otherIdm : Des.Block := #v[0xfe, 0xdc, 0xba, 0x98, 0x76, 0x54, 0x32, 0x10]

/-- The holder of the first card is asked for a face, and another card is laid on the
reader before the host has handled the result. -/
def swapped : List (Label Call Reply) :=
  showFace 5 7 ++ .call 2 (.poll (.present otherIdm)) :: handleReports

/-- **A payment from a replaced card.** -/
theorem replacement_fails :
    ¬ Runs.Along (watched Sui.Fixture.ark "m" id) (NoReplacedPayment Sui.Fixture.ark "m" id)
      (initial, .initial) (armed ++ .run 2 tapped :: swapped) := by
  let f := fun (sg : State World Role Act × Watch) (l : Label Call Reply) =>
    ((program Sui.Fixture.ark "m" id).step sg.1 l, sg.2.next sg.1 l)
  have hf : ∀ sg l, watched Sui.Fixture.ark "m" id sg l = some (f sg l) := fun _ _ => rfl
  have hstep := @step_attest Sui.Fixture.ark "m" id (armed.foldl f (initial, .initial)).1 cardIdm
    (by decide +kernel) tapped _ _ attestWithCard_tapped
  intro h
  have htapped := ((Runs.along_append _).mp h).2 _ (Runs.run_of_total _ hf _ _)
  have hswapped := htapped.2 _ (hf _ _)
  rw [show f _ _ = (_, _) from congrArg (Prod.mk · _) hstep] at hswapped
  exact absurd hswapped (by decide +kernel)

end SuiCash.Facepay
