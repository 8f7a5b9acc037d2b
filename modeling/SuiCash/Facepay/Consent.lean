import SuiCash.Facepay.Modes

/-!
# Consent to payments

A `faceOk` names a card and is sent by a terminal that shows a mode; `handle_report`
launches whatever payment the host is armed for, from whatever card it has, without
looking at the report.  Between the two the card may have changed, or the mode
(`payment_without_consent`).

`Aligned` is what a report not yet handled needs: if the host is armed and has a card,
they are those the report consents to.  It is needed exactly
(`launched_faceOk_iff`), and `Undisturbed` is what keeps it: no report is sent out of
line with the host, and no mode is written and no card published out of line with the
reports not yet handled.  Then all payments launched are consented to
(`payments_consented`).
-/

namespace SuiCash.Facepay

open Threads Fallible
open Prover (ArkGroth16)

/-! ### Reports not yet handled -/

/-- A job is the payment its report consents to: of the card that it names, and of the
amount that its terminal showed. -/
def Consented (q : Delivery × Job) : Prop :=
  q.1.report = .faceOk q.2.idi ∧ q.1.shown = some q.2.amount

/-- If there is a mode to pay in and a card to pay from, the report consents to that. -/
def Aligned (payMode : Option UInt64) (currentIdi : Option String) (d : Delivery) : Prop :=
  ∀ amount ∈ payMode, ∀ idi ∈ currentIdi, d.report = .faceOk idi ∧ d.shown = some amount

instance (q : Delivery × Job) : Decidable (Consented q) := inferInstanceAs (Decidable (_ ∧ _))

instance (payMode : Option UInt64) (currentIdi : Option String) (d : Delivery) :
    Decidable (Aligned payMode currentIdi d) :=
  match payMode, currentIdi with
  | some amount, some idi =>
    decidable_of_iff (d.report = .faceOk idi ∧ d.shown = some amount) (by simp [Aligned])
  | some _, none | none, _ => .isTrue (by simp [Aligned])

def Report.isFaceOk : Report → Bool
  | .faceOk _ => true
  | _ => false

def handles? : Act → Option Delivery
  | .faceOk d => some d
  | _ => none

/-- The `faceOk` reports that are on their way or about to be handled. -/
def unhandled (w : World) (p : List Act) : List Delivery :=
  w.reports.filter (·.report.isFaceOk) ++ p.filterMap handles?

theorem mem_unhandled {w : World} {p : List Act} {d : Delivery} :
    d ∈ unhandled w p ↔ (d ∈ w.reports ∧ d.report.isFaceOk = true) ∨ Act.faceOk d ∈ p := by
  have hhandles : ∀ a : Act, handles? a = some d ↔ a = .faceOk d := fun a => by
    cases a <;> simp [handles?]
  simp [unhandled, hhandles]

def sent (w : World) : Act → List Delivery
  | .faceResult id ok mode =>
    ((w.conns id).app.onFaceResult ok mode).2.map fun r => ⟨id, r, (w.conns id).app.payMode⟩
  | .report id r => [⟨id, r, (w.conns id).app.payMode⟩]
  | _ => []

/-- Mode and card as an action leaves them, if not without a card. -/
def settings (s : Shared) : Act → Option UInt64 × Option String
  | .setMode mist => (mist, s.currentIdi)
  | .publishCard idi _ _ => (s.payMode, some idi)
  | _ => (s.payMode, s.currentIdi)

/-- The reports that an action can put out of line. -/
def concerned (w : World) (a : Act) (others : List Act) : List Delivery :=
  match a with
  | .setMode _ | .publishCard _ _ _ => unhandled w others
  | a => (sent w a).filter (·.report.isFaceOk)

/-- A report is sent in line with mode and card, and these are set in line with the
reports not yet handled. -/
def Undisturbed (w : World) (a : Act) (others : List Act) : Prop :=
  ∀ d ∈ concerned w a others, Aligned (settings w.shared a).1 (settings w.shared a).2 d

instance (w : World) (a : Act) (others : List Act) : Decidable (Undisturbed w a others) :=
  inferInstanceAs (Decidable (∀ d ∈ concerned w a others, _))

/-! ### Handling a report -/

/-- **Exactly an aligned report** launches nothing but a payment it consents to. -/
theorem launched_faceOk_iff {w : World} (h : ∀ q ∈ w.launched, Consented q) (d : Delivery) :
    (∀ q ∈ (faceOk d w).world.launched, Consented q)
      ↔ Aligned w.shared.payMode w.shared.currentIdi d := by
  unfold faceOk
  split
  · rename_i amount idi hmode hidi
    rw [hmode, hidi]
    constructor
    · intro hlaunched amount' hamount idi' hidi'
      cases hamount
      cases hidi'
      exact hlaunched (d, ⟨amount, idi, w.shared.currentAtt⟩)
        (List.mem_append_right _ (List.mem_singleton_self _))
    · intro haligned q hq
      rcases List.mem_append.mp hq with hq | hq
      · exact h q hq
      · rw [List.mem_singleton.mp hq]
        exact haligned amount rfl idi rfl
  · rename_i hnone
    exact iff_of_true h fun amount hamount idi hidi => absurd hidi (hnone amount idi hamount)

theorem faceOk_shared (d : Delivery) (w : World) :
    (faceOk d w).world.shared.payMode = w.shared.payMode
      ∧ (faceOk d w).world.shared.currentIdi = w.shared.currentIdi
      ∧ (faceOk d w).world.reports = w.reports := by
  unfold faceOk
  split <;> exact ⟨rfl, rfl, rfl⟩

section Run

variable (ark : ArkGroth16) (merchant : String) (toLowercase : String → String)

theorem reports_exec (a : Act) (x : Reply) (w : World) :
    ∀ d ∈ (exec ark merchant toLowercase a x w).world.reports, d ∈ w.reports ∨ d ∈ sent w a := by
  intro d hd
  cases a with
  | read id =>
    left
    simp only [exec, read] at hd
    split at hd
    · exact hd
    · exact List.mem_of_mem_erase hd
  | faceOk d' =>
    rw [exec, (faceOk_shared d' w).2.2] at hd
    exact .inl hd
  | attest idm =>
    left
    simp only [exec] at hd
    split at hd <;> exact hd
  | faceResult id ok mode | report id r => exact List.mem_append.mp hd
  | setMode mist | sendTerminal e | send id e | broadcastStatus | connect | deliver id | unregister id
  | runPayment job | pay idi amount att balance | storePayment e | lookupCard idi att
  | publishCard idi att e | removeCard | process id | leave id => exact .inl hd

/-- What is unhandled after an action was so before, or has just been sent. -/
theorem unhandled_exec {a : Act} {x : Reply} {w : World} {p : List Act} {d : Delivery}
    (hd : d ∈ unhandled (exec ark merchant toLowercase a x w).world
      ((exec ark merchant toLowercase a x w).work ++ p)) :
    d ∈ unhandled w p ∨ d ∈ (sent w a).filter (·.report.isFaceOk) := by
  rw [mem_unhandled, List.mem_append] at hd
  rw [mem_unhandled, List.mem_filter]
  rcases hd with ⟨hreport, hface⟩ | hwork | hp
  · rcases reports_exec ark merchant toLowercase a x w d hreport with hold | hnew
    · exact .inl (.inl ⟨hold, hface⟩)
    · exact .inr ⟨hnew, hface⟩
  · -- Only reading a report leads to its being handled.
    cases leads_exec ark merchant toLowercase a x w _ hwork with
    | plain h => cases h
    | report hmem hface => exact .inl (.inl ⟨hmem, by rw [hface]; rfl⟩)
  · exact .inl (.inr hp)

theorem settings_exec (a : Act) (x : Reply) (w : World) :
    let s := (exec ark merchant toLowercase a x w).world.shared
    s.currentIdi = none
      ∨ s.payMode = (settings w.shared a).1 ∧ s.currentIdi = (settings w.shared a).2 := by
  cases a with
  | removeCard => exact .inl rfl
  | read id =>
    right
    simp only [exec, read]
    split <;> exact ⟨rfl, rfl⟩
  | faceOk d =>
    right
    exact ⟨(faceOk_shared d w).1, (faceOk_shared d w).2.1⟩
  | attest idm =>
    right
    simp only [exec]
    split <;> exact ⟨rfl, rfl⟩
  | setMode mist | sendTerminal e | send id e | broadcastStatus | connect | deliver id | unregister id
  | runPayment job | pay idi amount att balance | storePayment e | lookupCard idi att
  | publishCard idi att e | process id | faceResult id ok mode | leave id | report id r =>
    exact .inr ⟨rfl, rfl⟩

theorem launched_exec {a : Act} (ha : handles? a = none) (x : Reply) (w : World) :
    (exec ark merchant toLowercase a x w).world.launched = w.launched := by
  cases a with
  | faceOk d => cases ha
  | read id =>
    simp only [exec, read]
    split <;> rfl
  | attest idm =>
    simp only [exec]
    split <;> rfl
  | setMode mist | sendTerminal e | send id e | broadcastStatus | connect | deliver id | unregister id
  | runPayment job | pay idi amount att balance | storePayment e | lookupCard idi att
  | publishCard idi att e | removeCard | process id | faceResult id ok mode | leave id
  | report id r => rfl

/-! ### Runs -/

/-- All reports not yet handled are in line, and all payments launched are consented to. -/
def ConsentInvariant (w : World) (p : List Act) : Prop :=
  (∀ d ∈ unhandled w p, Aligned w.shared.payMode w.shared.currentIdi d)
    ∧ ∀ q ∈ w.launched, Consented q

theorem aligned_exec {a : Act} {x : Reply} {w : World} {p : List Act} (hC : Undisturbed w a p)
    (h : ∀ d ∈ unhandled w p, Aligned w.shared.payMode w.shared.currentIdi d) :
    let o := exec ark merchant toLowercase a x w
    ∀ d ∈ unhandled o.world (o.work ++ p),
      Aligned o.world.shared.payMode o.world.shared.currentIdi d := by
  intro o d hd
  rcases settings_exec ark merchant toLowercase a x w with hnone | ⟨hmode, hidi⟩
  · intro amount _ idi hidi
    rw [hnone] at hidi
    cases hidi
  · rw [hmode, hidi]
    have hd := unhandled_exec ark merchant toLowercase hd
    cases a with
    | setMode mist | publishCard idi att e =>
      exact hC d (hd.resolve_right fun hsent => by cases hsent)
    | _ => exact hd.elim (h d) (hC d)

theorem consentInvariant :
    (program ark merchant toLowercase).Invariant Undisturbed ConsentInvariant where
  perm {w p q} hpq := fun ⟨haligned, hlaunched⟩ =>
    ⟨fun d hd => haligned d (by rw [mem_unhandled] at hd ⊢; rwa [hpq.mem_iff]), hlaunched⟩
  call {r k w work p} hcall := fun ⟨haligned, hlaunched⟩ => by
    refine ⟨fun d hd => haligned d ?_, hlaunched⟩
    rw [mem_unhandled, List.mem_append] at hd
    rw [mem_unhandled]
    rcases hd with hreport | hwork | hp
    · exact .inl hreport
    · cases isPlain_of_call hcall _ hwork
    · exact .inr hp
  exec {a x w p} hC := fun ⟨haligned, hlaunched⟩ => by
    have hothers : ∀ d ∈ unhandled w p, Aligned w.shared.payMode w.shared.currentIdi d :=
      fun d hd => haligned d (by
        rw [mem_unhandled] at hd ⊢
        exact hd.imp_right (List.mem_cons_of_mem _))
    show ConsentInvariant (exec ark merchant toLowercase a x w).world
      ((exec ark merchant toLowercase a x w).work ++ p)
    refine ⟨aligned_exec ark merchant toLowercase hC hothers, ?_⟩
    cases ha : handles? a with
    | none =>
      rw [launched_exec ark merchant toLowercase ha]
      exact hlaunched
    | some d =>
      cases a <;> cases ha
      exact (launched_faceOk_iff hlaunched d).mpr
        (haligned d (mem_unhandled.mpr (.inr List.mem_cons_self)))

/-- **All payments are consented to** in a run where no report is disturbed. -/
theorem payments_consented (ls : List (Label Call Reply))
    (h : (program ark merchant toLowercase).Along Undisturbed initial ls) :
    ∀ q ∈ ((program ark merchant toLowercase).run initial ls).world.launched, Consented q := by
  have hinitial : ConsentInvariant World.initial initial.pending :=
    ⟨(fun d hd => nomatch hd), fun q hq => nomatch hq⟩
  exact ((consentInvariant ark merchant toLowercase).along h hinitial).2

end Run

/-! ### A payment without consent -/

def cardIdm : Des.Block := #v[0x01, 0x23, 0x45, 0x67, 0x89, 0xab, 0xcd, 0xef]

def cardIdi : String := "1020304050607080"

def cardR1 : Des.Block := #v[0x00, 0x11, 0x22, 0x33, 0x44, 0x55, 0x66, 0x77]

def cardJson : AttestationJson :=
  ⟨cardIdi, Sui.Fixture.attestedAt, Hex.encode cardR1.toList, Hex.encode Sui.Fixture.proof,
    Hex.encode Sui.Fixture.publicInputs⟩

def tapped : Reply :=
  { silent with exchange := some (⟨cardIdi, Sui.Fixture.attestedAt, Sui.Fixture.attestation.proof⟩, cardR1) }

theorem proofCompressedBytes_card : Prover.proofCompressedBytes Sui.Fixture.ark
    Sui.Fixture.attestation.proof = .ok Sui.Fixture.proof :=
  bind_eq_ok.mpr ⟨_, Sui.Fixture.attestation_points, by
    rw [Sui.Fixture.proofSerialize_proofPoints]⟩

theorem publicInputsBytes_card :
    Prover.publicInputsBytes Sui.Fixture.attestation.proof = .ok Sui.Fixture.publicInputs :=
  bind_eq_ok.mpr ⟨_, Sui.Fixture.attestation_inputs, by rw [Sui.Fixture.scalars_bytes]⟩

theorem attestationJson_card : attestationJson Sui.Fixture.ark id
    ⟨cardIdi, Sui.Fixture.attestedAt, Sui.Fixture.attestation.proof⟩ cardR1 = .ok cardJson :=
  bind_eq_ok.mpr ⟨_, proofCompressedBytes_card, bind_eq_ok.mpr ⟨_, publicInputsBytes_card, rfl⟩⟩

theorem attestWithCard_tapped :
    attestWithCard Sui.Fixture.ark id tapped.exchange = some (cardIdi, cardJson) :=
  attestWithCard_of_json attestationJson_card

def afterAttest (s : State World Role Act) (idm : Des.Block) (idi : String) (json : AttestationJson) :
    State World Role Act where
  world := { s.world with lastIdm := some idm, obtained := s.world.obtained + 1 }
  threads := s.threads.set 2 (.card, [.lookupCard idi ⟨json, s.world.obtained⟩])

theorem step_attest {ark : ArkGroth16} {merchant : String} {toLowercase : String → String}
    {s : State World Role Act} {idm : Des.Block} (h : s.threads[2]? = some (.card, [.attest idm]))
    {x : Reply} {idi : String} {json : AttestationJson}
    (hcard : attestWithCard ark toLowercase x.exchange = some (idi, json)) :
    (program ark merchant toLowercase).step s (.run 2 x) = afterAttest s idm idi json := by
  simp only [Program.step, h, program, exec, hcard]
  exact congrArg (State.mk _) (List.append_nil _)

def tap : List (Label Call Reply) := .call 2 (.poll (.present cardIdm)) :: runs 2 2

def funded : Reply := { silent with balance := some "5" }

def showFace (delivered processed : ℕ) : List (Label Call Reply) :=
  .run 2 funded :: runs 2 3 ++ calls 3 .deliver delivered ++ calls 4 .process processed
    ++ calls 4 (.faceResult true .enroll) 1

def handleReports : List (Label Call Reply) := calls 3 .read 2 ++ runs 3 1

/-- A payment is armed and announced before the card comes. -/
def armed : List (Label Call Reply) := firstClient ++ .call 1 (.pay 5) :: runs 1 6 ++ tap

def consentedRun : List (Label Call Reply) :=
  armed ++ .run 2 tapped :: (showFace 5 7 ++ handleReports)

theorem payments_consented_armed :
    let w := ((program Sui.Fixture.ark "m" id).run initial consentedRun).world
    w.launched ≠ [] ∧ ∀ q ∈ w.launched, Consented q := by
  have hstep := @step_attest Sui.Fixture.ark "m" id
    ((program Sui.Fixture.ark "m" id).run initial armed) cardIdm (by decide +kernel) tapped _ _
    attestWithCard_tapped
  have hlaunched : ((program Sui.Fixture.ark "m" id).run initial consentedRun).world.launched ≠ [] := by
    rw [consentedRun, Program.run_append, Program.run_cons, hstep]
    decide +kernel
  have halong : (program Sui.Fixture.ark "m" id).Along Undisturbed initial consentedRun := by
    rw [consentedRun, Program.along_append, Program.along_cons, hstep]
    exact ⟨by decide +kernel, by decide +kernel, by decide +kernel⟩
  exact ⟨hlaunched, payments_consented Sui.Fixture.ark "m" id consentedRun halong⟩

/-- The face is shown to a terminal in balance inquiry, and the payment is armed while
the report is on its way. -/
def disturbed : List (Label Call Reply) :=
  firstClient ++ tap ++ .run 2 tapped ::
    (showFace 3 5 ++ .call 1 (.pay 5) :: runs 1 1 ++ handleReports)

/-- **A payment without consent.** -/
theorem payment_without_consent :
    ¬ ∀ q ∈ ((program Sui.Fixture.ark "m" id).run initial disturbed).world.launched, Consented q := by
  have hstep := @step_attest Sui.Fixture.ark "m" id
    ((program Sui.Fixture.ark "m" id).run initial (firstClient ++ tap)) cardIdm (by decide +kernel)
    tapped _ _ attestWithCard_tapped
  rw [disturbed, Program.run_append, Program.run_cons, hstep]
  decide +kernel

end SuiCash.Facepay
