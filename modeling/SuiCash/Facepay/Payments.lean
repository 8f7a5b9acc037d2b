import SuiCash.Facepay.Daemon
import SuiCash.Lib.Custody

/-!
# Attestations of the daemon are used once

The daemon as a custodian of attestations: the card loop obtains them, `on_card` files
one with its IDi, `handle_report` takes it out, a payment thread uses it or loses it.
`custodian` says that every action is one of these moves, and `Custody` does the rest.
-/

namespace SuiCash.Facepay

open Threads Custody
open Prover (ArkGroth16)

def attestationKind : Kind String Attestation := ⟨fun att => att.json.idi, Attestation.serial⟩

/-- The attestations that went to the helper's `pay`, with the IDi of its argument. -/
def payments (paid : List PayCall) : List (String × Attestation) := paid.map fun p => (p.idi, p.att)

def store (w : World) : Store String Attestation :=
  ⟨w.obtained, w.shared.currentIdi, w.shared.currentAtt, payments w.paid⟩

theorem store_pay (w : World) (p : PayCall) :
    store { w with paid := w.paid ++ [p] }
      = { store w with used := (store w).used ++ [(p.idi, p.att)] } := by
  simp [store, payments]

def hold : Act → List (String × Attestation)
  | .lookupCard idi att => [(idi, att)]
  | .publishCard idi att _ => [(idi, att)]
  | .runPayment job => job.att.toList.map fun att => (job.idi, att)
  | .pay idi _ att _ => [(idi, att)]
  | _ => []

theorem flatMap_hold_eq_nil {work : List Act} (h : ∀ a ∈ work, hold a = []) :
    work.flatMap hold = [] := List.flatMap_eq_nil_iff.mpr h

theorem hold_of_isPlain {a : Act} (h : a.isPlain = true) : hold a = [] := by
  cases a <;> first | rfl | cases h

variable (ark : ArkGroth16) (merchant : String) (toLowercase : String → String)

theorem hold_sendTerminal (e : HostEvent) (w : World) :
    (leaves w (w.shared.clients.map fun id => Act.send id e)).work.flatMap hold = [] := by
  refine flatMap_hold_eq_nil fun a ha => ?_
  simp [leaves, Outcome.work] at ha
  obtain ⟨id, -, rfl⟩ := ha
  rfl

theorem hold_connect (w : World) : (connect w).work.flatMap hold = [] := by
  refine flatMap_hold_eq_nil fun a ha => ?_
  simp [connect, Outcome.work] at ha
  rcases ha with ⟨e, -, rfl⟩ | rfl <;> rfl

theorem move_of_hold_eq_nil {s s' : Store String Attestation} {hands : List (String × Attestation)}
    (hs : s' = s) (h : hands = []) : Move attestationKind s [] s' hands := by
  rw [hs, h]
  exact .keep s []

theorem hold_read (id : ℕ) (w : World) : (read id w).work.flatMap hold = [] := by
  refine flatMap_hold_eq_nil fun b hb => ?_
  cases leads_read b hb with
  | plain h => exact hold_of_isPlain h
  | report | result => rfl

theorem store_read (id : ℕ) (w : World) : store (read id w).world = store w := by
  unfold read
  split <;> rfl

/-- `run_payment` passes its attestation on to `pay`, or loses it. -/
theorem move_runPayment (job : Job) (x : Reply) (s : Store String Attestation) :
    Move attestationKind s (hold (.runPayment job)) s ((runPayment merchant job x).flatMap hold) := by
  unfold runPayment
  split
  · exact .lose s _
  · split
    · exact .lose s _
    · rename_i att hatt
      dsimp only
      split
      · exact .lose s _
      · have hhold : hold (.runPayment job) = [(job.idi, att)] := by rw [hold, hatt]; rfl
        rw [hhold]
        exact .keep s _

theorem move_faceOk (d : Delivery) (w : World) :
    Move attestationKind (store w) [] (store (faceOk d w).world) ((faceOk d w).work.flatMap hold) := by
  unfold faceOk
  split
  · rename_i amount idi hmode hidi
    have hwork : ([] ++ [(Role.payment, [Act.runPayment ⟨amount, idi, w.shared.currentAtt⟩])].flatMap
        Prod.snd).flatMap hold = w.shared.currentAtt.toList.map fun att => (idi, att) := by
      simp [hold]
    dsimp only [Outcome.work]
    rw [hwork]
    exact .take (store w) idi hidi
  · exact .keep _ _

theorem move_attest (idm : Des.Block) (x : Reply) (w : World) :
    Move attestationKind (store w) [] (store (exec ark merchant toLowercase (.attest idm) x w).world)
      ((exec ark merchant toLowercase (.attest idm) x w).work.flatMap hold) := by
  unfold exec
  dsimp only
  split
  · exact .keep _ _
  · rename_i idi json hcard
    obtain rfl : json.idi = idi := attestWithCard_idi hcard
    exact .obtain (store w) ⟨json, w.obtained⟩ rfl

/-- **The daemon keeps custody of its attestations.** -/
def custodian : Custodian attestationKind (program ark merchant toLowercase) where
  store := store
  hold := hold
  hold_call _ _ _ _ h := flatMap_hold_eq_nil fun a ha => hold_of_isPlain (isPlain_of_call h a ha)
  move_exec a x w := by
    cases a with
    | setMode mist => exact .keep _ _
    | sendTerminal e => exact move_of_hold_eq_nil rfl (hold_sendTerminal e w)
    | send id e => exact .keep _ _
    | broadcastStatus => exact .keep _ _
    | connect => exact move_of_hold_eq_nil rfl (hold_connect w)
    | deliver id => exact .keep _ _
    | read id => exact move_of_hold_eq_nil (store_read id w) (hold_read id w)
    | unregister id => exact .keep _ _
    | faceOk d => exact move_faceOk d w
    | runPayment job =>
      have hwork : (leaves w (runPayment merchant job x)).work = runPayment merchant job x :=
        List.append_nil _
      show Move attestationKind (store w) _ (store w)
        ((leaves w (runPayment merchant job x)).work.flatMap hold)
      rw [hwork]
      exact move_runPayment merchant job x (store w)
    | pay idi amount att balance =>
      show Move attestationKind (store w) [(idi, att)]
        (store { w with paid := w.paid ++ [⟨idi, amount, merchant, att⟩] }) []
      rw [store_pay]
      exact .use (store w) idi att
    | storePayment e => exact .keep _ _
    | attest idm => exact move_attest ark merchant toLowercase idm x w
    | lookupCard idi att => exact .keep _ _
    | publishCard idi att e => exact .file (store w) idi att
    | removeCard => exact .clear (store w)
    | process id => exact .keep _ _
    | faceResult id ok mode => exact .keep _ _
    | leave id => exact .keep _ _
    | report id r => exact .keep _ _

/-! ### What custody is worth -/

/-- A daemon's current card and its payments are as they should be: the current
attestation is of the current card, a payment is signed by the wallet of the IDi its
attestation is for, and no attestation pays twice. -/
structure SingleUse (currentIdi : Option String) (currentAtt : Option Attestation)
    (paid : List PayCall) : Prop where
  current : ∀ att, currentAtt = some att → currentIdi = some att.json.idi
  idi : ∀ p ∈ paid, p.att.json.idi = p.idi
  signer : ∀ p ∈ paid, ∀ (sdk : SuiSdk) (gate : Option GateConfig) (tx : PaymentTx sdk),
    SuiPay.pay sdk gate p.idi p.amount p.merchant (some p.att.json) = .ok tx →
      tx.signer = SuiPay.deriveKeypair sdk p.att.json.idi
        ∧ tx.verify.idi = SuiPay.hexToBytes p.idi
  once : (paid.map fun p => p.att.serial).Nodup

/-- **Sound custody is single use.** -/
theorem singleUse_of_sound {obtained : ℕ} {idi : Option String} {att : Option Attestation}
    {paid : List PayCall} {hands : List (String × Attestation)}
    (h : Sound attestationKind ⟨obtained, idi, att, payments paid⟩ hands) :
    SingleUse idi att paid := by
  have hidi : ∀ p ∈ paid, p.att.json.idi = p.idi := fun p hp =>
    (h.paired (p.idi, p.att) (List.mem_append_right _ (List.mem_map_of_mem hp))).symm
  refine ⟨h.filed, hidi, fun p hp sdk gate tx htx => ?_, ?_⟩
  · obtain ⟨hsigner, gate', hverify⟩ := SuiPay.pay_eq_ok htx
    rw [hsigner, hverify, ← hidi p hp]
    exact ⟨rfl, rfl⟩
  · have hsub : ((payments paid).map Prod.snd).Sublist
        ((⟨obtained, idi, att, payments paid⟩ : Store String Attestation).tokens hands) := by
      rw [Store.tokens, List.map_append]
      exact (List.sublist_append_right _ _).trans (List.sublist_append_right _ _)
    have hnodup := h.nodup.sublist (hsub.map attestationKind.serial)
    simpa [payments, attestationKind, Function.comp_def] using hnodup

end SuiCash.Facepay
