import SuiCash.Facepay.Payments

/-!
# The facepay-host daemon

`facepay-host/src/main.rs`, the other daemon, as threads over one locked state.  It
serves one terminal through `term_tx`, authenticates the card anew on every poll, and
has two more operator commands: `testcard` shows a card without an attestation, from
a thread of its own, and `remove` takes the current card away.

Messages, reports, jobs and the terminal are those of `SuiCash.Facepay`, and so is the
argument that an attestation is used once: `custodian`.
-/

namespace SuiCash.Facepay.Host

open Des Threads Custody
open Prover (ArkGroth16)

/-! ### The world -/

structure Shared where
  payMode : Option UInt64
  currentIdi : Option String
  currentAtt : Option Attestation
  /-- The connection `term_tx` sends to. -/
  termTx : Option ℕ
  deriving DecidableEq

structure World where
  shared : Shared
  /-- IDm of the card the read loop has accepted. -/
  lastIdm : Option Block
  conns : ℕ → Conn
  nextConn : ℕ
  /-- The connections whose handlers are running, oldest first. -/
  alive : List ℕ
  reports : List Delivery
  /-- How many attestations the oracle has issued. -/
  obtained : ℕ
  paid : List PayCall

namespace World

def initial : World where
  shared := ⟨none, none, none, none⟩
  lastIdm := none
  conns := fun _ => ⟨[], [], [], App.initial⟩
  nextConn := 0
  alive := []
  reports := []
  obtained := 0
  paid := []

variable (w : World)

def mapShared (f : Shared → Shared) : World := { w with shared := f w.shared }

def mapConn (id : ℕ) (f : Conn → Conn) : World :=
  { w with conns := Function.update w.conns id (f (w.conns id)) }

end World

/-- What `read_card_idi` finds: no card, a failed exchange, or a card with the oracle's
answer and the challenge it is for. -/
inductive CardRead where
  | noCard
  | failed
  | card (idm : Block) (att : AttestResult) (r1 : Block)

structure Reply where
  card : CardRead
  /-- `balance` field of the helper's `balance`. -/
  balance : Option String
  /-- `ok`, `balanceAfter`, `digest` and `error` fields of the helper's `pay`. -/
  payOk : Bool
  balanceAfter : Option String
  digest : Option String
  payError : Option String

/-! ### Actions -/

inductive Act where
  | setMode (mist : Option UInt64)
  | sendTerminal (e : HostEvent)
  | send (id : ℕ) (e : HostEvent)
  | connect
  | deliver (id : ℕ)
  | read (id : ℕ)
  | close (id : ℕ)
  | fail (id : ℕ)
  | faceOk (d : Delivery)
  | runPayment (job : Job)
  | pay (idi : String) (amount : UInt64) (att : Attestation) (balance : ℕ)
  | readCard
  | lookupCard (idi : String) (att : Option Attestation)
  | publishCard (idi : String) (att : Option Attestation)
  | testcard (idi : String)
  | removeCard
  | process (id : ℕ)
  | faceResult (id : ℕ) (ok : Bool) (mode : CaptureMode)
  | leave (id : ℕ)
  | report (id : ℕ) (r : Report)
  deriving DecidableEq

inductive Call where
  | accept
  | pay (mist : UInt64)
  | idle
  | testcard (idi : String)
  | remove
  | poll
  | deliver
  | read
  | close
  | fail
  | process
  | faceResult (ok : Bool) (mode : CaptureMode)
  | leave
  | report (r : Report)
  deriving DecidableEq

inductive Role where
  | listener
  | cli
  | card
  | handler (id : ℕ)
  | payment
  /-- `on_card` of a simulated card. -/
  | simulated
  /-- The terminal's side of a connection. -/
  | terminal (id : ℕ)
  deriving DecidableEq

/-! ### What actions do -/

def leaves (w : World) (next : List Act) : Outcome World Role Act := ⟨w, next, []⟩

def connect (w : World) : Outcome World Role Act :=
  let id := w.nextConn
  ⟨{ w with
      shared := { w.shared with termTx := some id }
      conns := Function.update w.conns id ⟨[.mode w.shared.payMode], [], [], App.initial⟩
      nextConn := id + 1
      alive := w.alive ++ [id] },
    [], [(.handler id, [.deliver id]), (.terminal id, [])]⟩

def handleReport (d : Delivery) : List Act :=
  match d.report with
  | .faceOk _ => [.faceOk d]
  | _ => []

def read (id : ℕ) (w : World) : Outcome World Role Act :=
  match w.reports.find? (·.client = id) with
  | none => leaves w []
  | some d => leaves { w with reports := w.reports.erase d } (handleReport d)

/-- The lock of `handle_report` on `faceOk`. -/
def faceOk (w : World) : Outcome World Role Act :=
  match w.shared.payMode, w.shared.currentIdi with
  | some amount, some idi =>
    ⟨w.mapShared fun s => { s with currentAtt := none }, [],
      [(.payment, [.runPayment ⟨amount, idi, w.shared.currentAtt⟩])]⟩
  | _, _ => leaves w []

section Exec

variable (ark : ArkGroth16) (merchant : String) (toLowercase : String → String)

def runPayment (job : Job) (x : Reply) : List Act :=
  if merchant = "" then [.sendTerminal (paymentFailed "0" "0" "merchant address not set")]
  else
    match job.att with
    | none =>
      [.sendTerminal (paymentFailed (toString job.amount.toNat) "0"
        "No attestation. Please tap your card again")]
    | some att =>
      let balance := (x.balance.bind parseU128).getD 0
      if balance < job.amount.toNat then
        [.sendTerminal (paymentFailed (toString job.amount.toNat) (toString balance)
          "Insufficient balance")]
      else [.pay job.idi job.amount att balance]

/-- The result of `pay` as it is shown: the helper's own message, but for shortfalls. -/
def paymentEvent (amount : UInt64) (balance : ℕ) (x : Reply) : HostEvent :=
  if x.payOk then
    .paymentResult true (toString amount.toNat) (x.balanceAfter.getD "0") (some (x.digest.getD "")) none
  else
    let raw := x.payError.getD ""
    let lower := toLowercase raw
    let shortfall := contains lower "insufficient" || contains lower "gas" || contains lower "balance"
    paymentFailed (toString amount.toNat) (toString balance)
      (if shortfall then "Insufficient balance" else if raw = "" then "Payment failed" else raw)

/-- One round of the read loop.  A card is authenticated before it is compared with the
last one, so a card that stays draws an attestation every time. -/
def readCard (x : Reply) (w : World) : Outcome World Role Act :=
  match x.card with
  | .failed => leaves w []
  | .noCard =>
    if w.lastIdm.isSome then
      leaves { w with lastIdm := none } [.removeCard, .sendTerminal .cardRemoved]
    else leaves w []
  | .card idm att r1 =>
    match attestWithCard ark toLowercase (some (att, r1)) with
    | none => leaves w []
    | some (idi, json) =>
      if w.lastIdm = some idm then leaves { w with obtained := w.obtained + 1 } []
      else
        leaves { w with lastIdm := some idm, obtained := w.obtained + 1 }
          [.lookupCard idi (some ⟨json, w.obtained⟩)]

def exec (a : Act) (x : Reply) (w : World) : Outcome World Role Act :=
  match a with
  | .setMode mist =>
    leaves (w.mapShared fun s => { s with payMode := mist }) [.sendTerminal (.mode mist)]
  | .sendTerminal e => leaves w (w.shared.termTx.toList.map fun id => .send id e)
  | .send id e => leaves (w.mapConn id fun c => c.push e) []
  | .connect => connect w
  | .deliver id => leaves (w.mapConn id Conn.deliver) []
  | .read id => read id w
  | .close id =>
    leaves { w with
      shared := { w.shared with termTx := none }
      alive := w.alive.filter (· ≠ id) } []
  | .fail id => leaves { w with alive := w.alive.filter (· ≠ id) } []
  | .faceOk _ => faceOk w
  | .runPayment job => leaves w (runPayment merchant job x)
  | .pay idi amount att balance =>
    leaves { w with paid := w.paid ++ [⟨idi, amount, merchant, att⟩] }
      [.sendTerminal (paymentEvent toLowercase amount balance x)]
  | .readCard => readCard ark toLowercase x w
  | .lookupCard idi att =>
    let balance := x.balance.getD "0"
    leaves w [.publishCard idi att,
      .sendTerminal (.card idi ((parseU128 balance).any (0 < ·)) balance)]
  | .publishCard idi att =>
    leaves (w.mapShared fun s => { s with currentIdi := some idi, currentAtt := att }) []
  | .testcard idi => ⟨w, [], [(.simulated, [.lookupCard idi none])]⟩
  | .removeCard =>
    leaves (w.mapShared fun s => { s with currentIdi := none, currentAtt := none }) []
  | .process id => leaves (w.mapConn id Conn.process) []
  | .faceResult id ok mode =>
    let result := (w.conns id).app.onFaceResult ok mode
    let shown := (w.conns id).app.payMode
    leaves { (w.mapConn id fun c => { c with app := result.1 }) with
      reports := w.reports ++ result.2.map fun r => ⟨id, r, shown⟩ } []
  | .leave id => leaves (w.mapConn id fun c => { c with app := c.app.goWaiting }) []
  | .report id r =>
    leaves { w with reports := w.reports ++ [⟨id, r, (w.conns id).app.payMode⟩] } []

/-- The work of a call.  A handler works until its connection closes or fails; only a
close takes the sender away. -/
def call (r : Role) (k : Call) (w : World) : Option (List Act) :=
  match r, k with
  | .listener, .accept => some [.connect]
  | .cli, .pay mist => some [.setMode (some mist)]
  | .cli, .idle => some [.setMode none]
  | .cli, .testcard idi => some [.testcard idi]
  | .cli, .remove => some [.removeCard, .sendTerminal .cardRemoved]
  | .card, .poll => some [.readCard]
  | .handler id, .deliver => if id ∈ w.alive then some [.deliver id] else none
  | .handler id, .read => if id ∈ w.alive then some [.read id] else none
  | .handler id, .close => if id ∈ w.alive then some [.close id] else none
  | .handler id, .fail => if id ∈ w.alive then some [.fail id] else none
  | .terminal id, .process => some [.process id]
  | .terminal id, .faceResult ok mode => some [.faceResult id ok mode]
  | .terminal id, .leave => some [.leave id]
  | .terminal id, .report r => some [.report id r]
  | _, _ => none

def program : Program World Role Call Reply Act where
  call := call
  exec := exec ark merchant toLowercase

end Exec

def initial : State World Role Act := ⟨World.initial, [(.listener, []), (.cli, []), (.card, [])]⟩

/-! ### Custody -/

def store (w : World) : Store String Attestation :=
  ⟨w.obtained, w.shared.currentIdi, w.shared.currentAtt, payments w.paid⟩

theorem store_pay (w : World) (p : PayCall) :
    store { w with paid := w.paid ++ [p] }
      = { store w with used := (store w).used ++ [(p.idi, p.att)] } := by
  simp [store, payments]

def hold : Act → List (String × Attestation)
  | .lookupCard idi att => att.toList.map fun att => (idi, att)
  | .publishCard idi att => att.toList.map fun att => (idi, att)
  | .runPayment job => job.att.toList.map fun att => (job.idi, att)
  | .pay idi _ att _ => [(idi, att)]
  | _ => []

variable (ark : ArkGroth16) (merchant : String) (toLowercase : String → String)

theorem hold_call {r : Role} {k : Call} {w : World} {work : List Act}
    (h : call r k w = some work) : work.flatMap hold = [] := by
  cases r <;> cases k
  case handler.deliver id | handler.read id | handler.close id | handler.fail id =>
    obtain ⟨-, h⟩ := Option.ite_none_right_eq_some.mp h
    cases h
    rfl
  all_goals cases h
  all_goals rfl

theorem move_read (id : ℕ) (w : World) :
    Move attestationKind (store w) [] (store (read id w).world) ((read id w).work.flatMap hold) := by
  unfold read
  split
  · exact .keep _ _
  · rename_i d hd
    unfold handleReport
    split <;> exact .keep _ _

theorem move_runPayment (job : Job) (x : Reply) (w : World) :
    Move attestationKind (store w) (hold (.runPayment job)) (store w)
      ((leaves w (runPayment merchant job x)).work.flatMap hold) := by
  unfold runPayment
  split
  · exact .lose _ _
  · split
    · exact .lose _ _
    · rename_i att hatt
      dsimp only
      split
      · exact .lose _ _
      · have hhold : hold (.runPayment job) = [(job.idi, att)] := by rw [hold, hatt]; rfl
        rw [hhold]
        exact .keep _ _

theorem move_faceOk (w : World) :
    Move attestationKind (store w) [] (store (faceOk w).world) ((faceOk w).work.flatMap hold) := by
  unfold faceOk
  split
  · rename_i amount idi hmode hidi
    have hwork : ([] ++ [(Role.payment, [Act.runPayment ⟨amount, idi, w.shared.currentAtt⟩])].flatMap
        Prod.snd).flatMap hold = w.shared.currentAtt.toList.map fun att => (idi, att) := by
      simp [hold]
    dsimp only [Outcome.work]
    rw [hwork]
    exact .take (store w) idi hidi
  · exact .keep _ _

/-- A round of the read loop obtains an attestation and passes it on, or lets go of it. -/
theorem move_readCard (x : Reply) (w : World) :
    Move attestationKind (store w) [] (store (readCard ark toLowercase x w).world)
      ((readCard ark toLowercase x w).work.flatMap hold) := by
  unfold readCard
  split
  · exact .keep _ _
  · split <;> exact .keep _ _
  · split
    · exact .keep _ _
    · rename_i idi json hcard
      obtain rfl : json.idi = idi := attestWithCard_idi hcard
      split
      · exact .skip (store w)
      · exact .obtain (store w) ⟨json, w.obtained⟩ rfl

/-- **The daemon keeps custody of its attestations.** -/
def custodian : Custodian attestationKind (program ark merchant toLowercase) where
  store := store
  hold := hold
  hold_call _ _ _ _ h := hold_call h
  move_exec a x w := by
    cases a with
    | setMode mist => exact .keep _ _
    | sendTerminal e =>
      refine move_of_hold_eq_nil rfl (List.flatMap_eq_nil_iff.mpr fun a ha => ?_)
      simp [program, exec, leaves, Outcome.work] at ha
      obtain ⟨id, -, rfl⟩ := ha
      rfl
    | send id e => exact .keep _ _
    | connect => exact .keep _ _
    | deliver id => exact .keep _ _
    | read id => exact move_read id w
    | close id => exact .keep _ _
    | fail id => exact .keep _ _
    | faceOk d => exact move_faceOk w
    | runPayment job => exact move_runPayment merchant job x w
    | pay idi amount att balance =>
      show Move attestationKind (store w) [(idi, att)]
        (store { w with paid := w.paid ++ [⟨idi, amount, merchant, att⟩] }) []
      rw [store_pay]
      exact .use (store w) idi att
    | readCard => exact move_readCard ark toLowercase x w
    | lookupCard idi att =>
      have hwork : ((program ark merchant toLowercase).exec (.lookupCard idi att) x w).work.flatMap hold
          = hold (.lookupCard idi att) := by
        simp [program, exec, leaves, Outcome.work, hold]
      rw [hwork]
      exact .keep _ _
    | publishCard idi att =>
      cases att with
      | none => exact .fileKey (store w) idi
      | some att => exact .file (store w) idi att
    | testcard idi => exact .keep _ _
    | removeCard => exact .clear (store w)
    | process id => exact .keep _ _
    | faceResult id ok mode => exact .keep _ _
    | leave id => exact .keep _ _
    | report id r => exact .keep _ _

/-- **Attestations and wallets stay paired, and are used once**, in either daemon and
under every schedule of its threads, its clients and its operator. -/
theorem attestations_single_use :
    (∀ ls, let w := ((Facepay.program ark merchant toLowercase).run Facepay.initial ls).world
      SingleUse w.shared.currentIdi w.shared.currentAtt w.paid)
    ∧ ∀ ls, let w := ((program ark merchant toLowercase).run initial ls).world
      SingleUse w.shared.currentIdi w.shared.currentAtt w.paid :=
  ⟨fun ls => singleUse_of_sound
      ((Facepay.custodian ark merchant toLowercase).run_sound sound_empty ls),
    fun ls => singleUse_of_sound ((custodian ark merchant toLowercase).run_sound sound_empty ls)⟩

end SuiCash.Facepay.Host
