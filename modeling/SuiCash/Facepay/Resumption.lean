import SuiCash.Facepay.Consent

/-!
# Terminals that connect anew

A terminal that connects is sent what there is to show: mode, status, the card on the
reader and the last payment result.  The card is forgotten when it is removed; a payment
result is kept for the admin GUI and never forgotten.  So a terminal that connects for a
new card is shown the result of an old payment after the card, and that is where it stays.

`Stored` says what the daemon keeps for clients to come.  With it, the terminal resumes
the card's session exactly if no payment result is kept (`resumes_iff`).
-/

namespace SuiCash.Facepay

open Threads
open Prover (ArkGroth16)

/-- The terminal when it has processed all that is on its way to it. -/
def Conn.settled (c : Conn) : App := (c.wire ++ c.out).foldl App.onEvent c.app

/-- The terminal of the client that connects next, when it has processed what
`ws_handle` replays. -/
def World.resumed (w : World) : App := ((connect w).world.conns w.shared.nextClientId).settled

theorem World.resumed_eq (w : World) :
    w.resumed = (greeting (connect w).world.shared).foldl App.onEvent App.initial := by
  simp [World.resumed, Conn.settled, connect]

/-! ### What is kept for clients -/

/-- The daemon keeps a card event for the card that has an attestation, and payment
results. -/
structure Stored (w : World) : Prop where
  card : ∀ e ∈ w.shared.lastCard, ∃ idi registered balance, e = .card idi registered balance
  payment : ∀ e ∈ w.shared.lastPayment, e.isPayment = true
  attested : w.shared.currentAtt.isSome = true → w.shared.lastCard.isSome = true

def Stores : Act → Prop
  | .publishCard _ _ e => ∃ idi registered balance, e = .card idi registered balance
  | .storePayment e => e.isPayment = true
  | _ => True

theorem stores_of_isPlain {a : Act} (h : a.isPlain = true) : Stores a := by
  cases a <;> trivial

theorem Stores.of_leads {w : World} {a b : Act} (h : Leads w a b) : Stores b := by
  cases h with
  | plain hb => exact stores_of_isPlain hb
  | result hb => exact hb
  | card => exact ⟨_, _, _, rfl⟩
  | report | job | pay | attested => trivial

theorem Stored.of_same {w w' : World} (h : Stored w) (hcard : w'.shared.lastCard = w.shared.lastCard)
    (hpayment : w'.shared.lastPayment = w.shared.lastPayment)
    (hatt : w'.shared.currentAtt.isSome = true → w.shared.currentAtt.isSome = true) : Stored w' := by
  refine ⟨fun e he => h.card e (hcard ▸ he), fun e he => h.payment e (hpayment ▸ he), fun h' => ?_⟩
  rw [hcard]
  exact h.attested (hatt h')

section Run

variable (ark : ArkGroth16) (merchant : String) (toLowercase : String → String)

theorem Stored.exec {w : World} (h : Stored w) {a : Act} (ha : Stores a) (x : Reply) :
    Stored (exec ark merchant toLowercase a x w).world := by
  cases a with
  | publishCard idi att e =>
    refine ⟨fun e' he' => ?_, h.payment, fun _ => rfl⟩
    cases he'
    exact ha
  | storePayment e =>
    refine ⟨h.card, fun e' he' => ?_, h.attested⟩
    cases he'
    exact ha
  | removeCard =>
    exact ⟨fun e he => absurd he (Option.not_mem_none e), h.payment,
      fun h' => absurd h' Bool.false_ne_true⟩
  | read id =>
    simp only [Facepay.exec, read]
    split <;> exact h.of_same rfl rfl fun h' => h'
  | faceOk d =>
    simp only [Facepay.exec, faceOk]
    split
    · exact h.of_same rfl rfl fun h' => absurd h' Bool.false_ne_true
    · exact h
  | attest idm =>
    simp only [Facepay.exec]
    split <;> exact h.of_same rfl rfl fun h' => h'
  | setMode mist | sendTerminal e | send id e | broadcastStatus | connect | deliver id | unregister id
  | runPayment job | pay idi amount att balance | lookupCard idi att | process id
  | faceResult id ok mode | leave id | report id r => exact h.of_same rfl rfl fun h' => h'

theorem storedInvariant : (program ark merchant toLowercase).Invariant (fun _ _ _ => True)
    fun w p => Stored w ∧ ∀ a ∈ p, Stores a where
  perm hpq := fun ⟨hstored, hstores⟩ => ⟨hstored, fun a ha => hstores a (hpq.mem_iff.mpr ha)⟩
  call hcall := fun ⟨hstored, hstores⟩ => ⟨hstored, List.forall_mem_append.mpr
    ⟨fun a ha => stores_of_isPlain (isPlain_of_call hcall a ha), hstores⟩⟩
  exec {a x w p} _ := fun ⟨hstored, hstores⟩ => by
    obtain ⟨ha, hp⟩ := List.forall_mem_cons.mp hstores
    refine ⟨hstored.exec ark merchant toLowercase ha x, List.forall_mem_append.mpr ⟨fun b hb => ?_, hp⟩⟩
    exact .of_leads (leads_exec ark merchant toLowercase a x w b hb)

theorem stored_run (ls : List (Label Call Reply)) :
    Stored ((program ark merchant toLowercase).run initial ls).world := by
  have hinitial : Stored World.initial :=
    ⟨(fun e he => nomatch he), (fun e he => nomatch he), fun h => by cases h⟩
  have hpending : ∀ a ∈ initial.pending, Stores a := fun a ha => by cases ha
  exact ((storedInvariant ark merchant toLowercase).run ⟨hinitial, hpending⟩ ls).1

end Run

/-! ### What a new terminal shows -/

theorem screen_card (app : App) (payMode : Option UInt64) (idi balance : String) (registered : Bool) :
    ({ app with payMode := payMode }.onEvent (.card idi registered balance)).screen
        = (app.onEvent (.card idi registered balance)).screen
      ∧ (app.onEvent (.card idi registered balance)).screen ≠ .lcd := by
  refine ⟨rfl, ?_⟩
  simp only [App.onEvent]
  split
  · exact Screen.noConfusion
  · split <;> exact Screen.noConfusion

theorem screen_payment {e : HostEvent} (h : e.isPayment = true) (app : App) :
    (app.onEvent e).screen = .lcd := by
  cases e <;> first | rfl | cases h

/-- **A terminal resumes the card's session**, on the screen that the card alone would
give, exactly if no payment result is kept. -/
theorem Stored.resumed_screen_iff {w : World} (h : Stored w) {e : HostEvent}
    (he : w.shared.lastCard = some e) :
    w.resumed.screen = (App.initial.onEvent e).screen ↔ w.shared.lastPayment = none := by
  obtain ⟨idi, registered, balance, rfl⟩ := h.card e he
  obtain ⟨hmode, hlcd⟩ := screen_card App.initial w.shared.payMode idi balance registered
  have hcard : ([HostEvent.mode w.shared.payMode, statusEvent (connect w).world.shared,
        .card idi registered balance].foldl App.onEvent App.initial)
      = { App.initial with payMode := w.shared.payMode }.onEvent (.card idi registered balance) := rfl
  have hgreeting : greeting (connect w).world.shared
      = [.mode w.shared.payMode, statusEvent (connect w).world.shared, .card idi registered balance]
        ++ w.shared.lastPayment.toList := by
    have hlast : (connect w).world.shared.lastCard = some (.card idi registered balance) := he
    rw [greeting, hlast]
    rfl
  rw [World.resumed_eq, hgreeting, List.foldl_append, hcard]
  cases hpayment : w.shared.lastPayment with
  | none => exact iff_of_true hmode rfl
  | some result =>
    have hresult : (({ App.initial with payMode := w.shared.payMode }.onEvent
        (.card idi registered balance)).onEvent result).screen = .lcd :=
      screen_payment (h.payment result hpayment) _
    refine iff_of_false (fun heq => hlcd ?_) (Option.some_ne_none result)
    exact heq.symm.trans hresult

/-- **A terminal that connects resumes the card's session**, after every history of the
daemon and while the card's attestation has not been used, exactly if no payment result is
kept. -/
theorem resumes_iff (ark : ArkGroth16) (merchant : String) (toLowercase : String → String)
    (ls : List (Label Call Reply)) :
    let w := ((program ark merchant toLowercase).run initial ls).world
    w.shared.currentAtt.isSome = true →
      ∃ e, w.shared.lastCard = some e
        ∧ (w.resumed.screen = (App.initial.onEvent e).screen ↔ w.shared.lastPayment = none) := by
  intro w hatt
  have hstored : Stored w := stored_run ark merchant toLowercase ls
  obtain ⟨e, he⟩ := Option.isSome_iff_exists.mp (hstored.attested hatt)
  exact ⟨e, he, hstored.resumed_screen_iff he⟩

def publishes : List (Label Call Reply) := .run 2 funded :: runs 2 3

theorem resumes_first :
    ((program Sui.Fixture.ark "m" id).run initial
      (armed ++ .run 2 tapped :: publishes)).world.resumed.screen = .enroll := by
  have hstep := @step_attest Sui.Fixture.ark "m" id
    ((program Sui.Fixture.ark "m" id).run initial armed) cardIdm (by decide +kernel) tapped _ _
    attestWithCard_tapped
  have hrun : (program Sui.Fixture.ark "m" id).run initial (armed ++ .run 2 tapped :: publishes)
      = (program Sui.Fixture.ark "m" id).run (afterAttest
        ((program Sui.Fixture.ark "m" id).run initial armed) cardIdm cardIdi cardJson) publishes := by
    rw [Program.run_append, Program.run_cons, hstep]
  obtain ⟨e, he, hresumes⟩ := resumes_iff Sui.Fixture.ark "m" id
    (armed ++ .run 2 tapped :: publishes) (by rw [hrun]; decide +kernel)
  rw [hrun] at he hresumes ⊢
  have hcard : ((program Sui.Fixture.ark "m" id).run (afterAttest
      ((program Sui.Fixture.ark "m" id).run initial armed) cardIdm cardIdi cardJson)
      publishes).world.shared.lastCard = some (.card cardIdi true "5") := by decide +kernel
  cases he.symm.trans hcard
  exact hresumes.mpr (by decide +kernel)

def paidFor : Reply := { silent with payOk := true }

/-- The card pays, is taken away, and laid on the reader again. -/
def paidOnce : List (Label Call Reply) :=
  showFace 5 7 ++ handleReports ++ [.run 5 funded, .run 5 paidFor, .run 5 silent]
    ++ .call 2 (.poll .slow) :: runs 2 3 ++ tap

/-- **A terminal that shows an old payment**: the card has a new attestation, and a terminal
that connects is left on the result of the payment before. -/
theorem resumption_fails :
    let w := ((program Sui.Fixture.ark "m" id).run initial
      (armed ++ .run 2 tapped :: (paidOnce ++ .run 2 tapped :: publishes))).world
    w.shared.currentAtt.isSome = true ∧ w.shared.lastCard = some (.card cardIdi true "5")
      ∧ w.resumed.screen = .lcd
      ∧ ¬ w.resumed.screen = (App.initial.onEvent (.card cardIdi true "5")).screen := by
  have hfirst := @step_attest Sui.Fixture.ark "m" id
    ((program Sui.Fixture.ark "m" id).run initial armed) cardIdm (by decide +kernel) tapped _ _
    attestWithCard_tapped
  have hagain := @step_attest Sui.Fixture.ark "m" id
    ((program Sui.Fixture.ark "m" id).run (afterAttest
      ((program Sui.Fixture.ark "m" id).run initial armed) cardIdm cardIdi cardJson) paidOnce)
    cardIdm (by decide +kernel) tapped _ _ attestWithCard_tapped
  rw [Program.run_append, Program.run_cons, hfirst, Program.run_append, Program.run_cons, hagain]
  decide +kernel

end SuiCash.Facepay
