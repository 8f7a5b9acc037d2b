import Mathlib.Logic.Function.Basic
import SuiCash.Facepay.Attestation
import SuiCash.Facepay.Terminal
import SuiCash.Lib.Threads

/-!
# The facepay daemon

`usb-poc/src/bin/facepay.rs` as threads over one locked state: the card loop, the
operator CLI, the WebSocket listener with one handler for each client, and one thread
for each payment.  Each action is one critical section or one message; what a function
does after its lock is work it leaves for its thread.

The clients are part of the world.  A `Conn` is what lies between the host and one
client: messages still to be sent to it, messages sent and not yet processed, and the
terminal itself.  Its reports wait in `World.reports` for the handler to read them; a
`Delivery` remembers the mode its sender showed.

What the card reader, the oracle and the payment helper answer is the `Reply` of the
step that asks them.
-/

namespace SuiCash.Facepay

open Des Threads
open Prover (ArkGroth16)

/-! ### The world -/

/-- An attestation, and which of the oracle's answers it was made of. -/
structure Attestation where
  json : AttestationJson
  serial : ℕ
  deriving DecidableEq

/-- What a payment thread is started with. -/
structure Job where
  amount : UInt64
  idi : String
  att : Option Attestation
  deriving DecidableEq

/-- One call of the helper's `pay`. -/
structure PayCall where
  idi : String
  amount : UInt64
  merchant : String
  att : Attestation
  deriving DecidableEq

structure Shared where
  /-- Pending payment amount.  `none` is balance inquiry mode. -/
  payMode : Option UInt64
  currentIdi : Option String
  currentAtt : Option Attestation
  clients : List ℕ
  nextClientId : ℕ
  lastCard : Option HostEvent
  lastPayment : Option HostEvent
  deriving DecidableEq

/-- The way to one client, and the terminal at its end. -/
structure Conn where
  /-- Still to be sent by the handler: the greeting, then the channel. -/
  out : List HostEvent
  /-- Sent, not processed. -/
  wire : List HostEvent
  /-- Processed. -/
  seen : List HostEvent
  app : App
  deriving DecidableEq

namespace Conn

variable (c : Conn)

/-- All that is announced to a client, in the order in which it gets it. -/
def announced : List HostEvent := c.seen ++ c.wire ++ c.out

def push (e : HostEvent) : Conn := { c with out := c.out ++ [e] }

def deliver : Conn :=
  match c.out with
  | [] => c
  | e :: out => { c with out := out, wire := c.wire ++ [e] }

def process : Conn :=
  match c.wire with
  | [] => c
  | e :: wire => { c with wire := wire, seen := c.seen ++ [e], app := c.app.onEvent e }

end Conn

/-- A report on its way, and the mode its sender showed. -/
structure Delivery where
  client : ℕ
  report : Report
  shown : Option UInt64
  deriving DecidableEq

structure World where
  shared : Shared
  /-- IDm of the card the card loop has accepted. -/
  lastIdm : Option Block
  conns : ℕ → Conn
  reports : List Delivery
  /-- How many attestations the oracle has issued. -/
  obtained : ℕ
  /-- Payment jobs, each with the report that launched it. -/
  launched : List (Delivery × Job)
  paid : List PayCall

namespace World

def initial : World where
  shared := ⟨none, none, none, [], 0, none, none⟩
  lastIdm := none
  conns := fun _ => ⟨[], [], [], App.initial⟩
  reports := []
  obtained := 0
  launched := []
  paid := []

variable (w : World)

def mapShared (f : Shared → Shared) : World := { w with shared := f w.shared }

def mapConn (id : ℕ) (f : Conn → Conn) : World :=
  { w with conns := Function.update w.conns id (f (w.conns id)) }

end World

/-- What a step is answered: the card and the oracle, and the payment helper. -/
structure Reply where
  exchange : Option (AttestResult × Block)
  /-- `balance` field of the helper's `balance`. -/
  balance : Option String
  /-- `ok`, `balanceAfter`, `digest` and `error` fields of the helper's `pay`. -/
  payOk : Bool
  balanceAfter : Option String
  digest : Option String
  payError : Option String

/-! ### Actions -/

inductive Act where
  | setMode (mist : Option UInt64)
  | sendTerminal (e : HostEvent)
  | send (id : ℕ) (e : HostEvent)
  | broadcastStatus
  | connect
  | deliver (id : ℕ)
  | read (id : ℕ)
  | unregister (id : ℕ)
  | faceOk (d : Delivery)
  | runPayment (job : Job)
  | pay (idi : String) (amount : UInt64) (att : Attestation) (balance : ℕ)
  | storePayment (e : HostEvent)
  | attest (idm : Block)
  | lookupCard (idi : String) (att : Attestation)
  | publishCard (idi : String) (att : Attestation) (e : HostEvent)
  | removeCard
  | process (id : ℕ)
  | faceResult (id : ℕ) (ok : Bool) (mode : CaptureMode)
  | leave (id : ℕ)
  | report (id : ℕ) (r : Report)
  deriving DecidableEq

inductive Role where
  | listener
  | cli
  | card
  | handler (id : ℕ)
  | payment
  /-- The client's side of a connection. -/
  | terminal (id : ℕ)
  deriving DecidableEq

/-- What `Card::poll` comes to: a card, a fast failure (flicker) or a slow one (no
card). -/
inductive Poll where
  | present (idm : Block)
  | fast
  | slow
  deriving DecidableEq

inductive Call where
  | accept
  | pay (mist : UInt64)
  | idle
  | poll (p : Poll)
  | deliver
  | read
  | close
  | process
  | faceResult (ok : Bool) (mode : CaptureMode)
  | leave
  | report (r : Report)
  deriving DecidableEq

def setPayMode (mist : Option UInt64) : List Act := [.setMode mist]

def emitPayment (e : HostEvent) : List Act := [.storePayment e, .sendTerminal e]

def handleReport (d : Delivery) : List Act :=
  match d.report with
  | .faceOk _ => [.faceOk d]
  | .op (.pay (some mist)) => setPayMode (some mist)
  | .op .idle => setPayMode none
  | .op .status => [.broadcastStatus]
  | _ => []

def statusEvent (s : Shared) : HostEvent := .status s.payMode s.currentIdi s.clients.length

def paymentFailed (amount balance error : String) : HostEvent :=
  .paymentResult false amount balance none (some error)

/-- The result of `pay` as it is shown: every shortfall reads "Insufficient balance". -/
def paymentEvent (toLowercase : String → String) (amount : UInt64) (balance : ℕ) (x : Reply) :
    HostEvent :=
  if x.payOk then
    .paymentResult true (toString amount.toNat) (x.balanceAfter.getD "0") (some (x.digest.getD "")) none
  else
    let raw := toLowercase (x.payError.getD "")
    let shortfall := contains raw "insufficient" || contains raw "gas" || contains raw "balance"
    paymentFailed (toString amount.toNat) (toString balance)
      (if shortfall then "Insufficient balance" else "Payment failed")

/-! ### What actions do -/

/-- An action that leaves work to its own thread only. -/
def leaves (w : World) (next : List Act) : Outcome World Role Act := ⟨w, next, []⟩

/-- The greeting of a client: mode and status, then what there is to show. -/
def greeting (s : Shared) : List HostEvent :=
  [.mode s.payMode, statusEvent s] ++ s.lastCard.toList ++ s.lastPayment.toList

/-- `ws_handle` as far as its lock.  The greeting is sent first and the status is
broadcast after it, by the handler that the listener starts. -/
def connect (w : World) : Outcome World Role Act :=
  let id := w.shared.nextClientId
  let shared := { w.shared with nextClientId := id + 1, clients := w.shared.clients ++ [id] }
  let greeting := greeting shared
  ⟨{ w with
      shared := shared
      conns := Function.update w.conns id ⟨greeting, [], [], App.initial⟩ },
    [],
    [(.handler id, greeting.map (fun _ => .deliver id) ++ [.broadcastStatus]), (.terminal id, [])]⟩

def read (id : ℕ) (w : World) : Outcome World Role Act :=
  match w.reports.find? (·.client = id) with
  | none => leaves w []
  | some d => leaves { w with reports := w.reports.erase d } (handleReport d)

/-- The lock of `handle_report` on `faceOk`.  The attestation is taken out; without a
pending amount or a card nothing happens. -/
def faceOk (d : Delivery) (w : World) : Outcome World Role Act :=
  match w.shared.payMode, w.shared.currentIdi with
  | some amount, some idi =>
    let job : Job := ⟨amount, idi, w.shared.currentAtt⟩
    ⟨{ w with
        shared := { w.shared with currentAtt := none }
        launched := w.launched ++ [(d, job)] },
      [], [(.payment, [.runPayment job])]⟩
  | _, _ => leaves w []

section Exec

variable (ark : ArkGroth16) (merchant : String) (toLowercase : String → String)

/-- `run_payment` as far as the call of `pay`. -/
def runPayment (job : Job) (x : Reply) : List Act :=
  if merchant = "" then emitPayment (paymentFailed "0" "0" "Merchant address not set")
  else
    match job.att with
    | none =>
      emitPayment (paymentFailed (toString job.amount.toNat) "0"
        "No attestation. Please tap your card again")
    | some att =>
      let balance := (x.balance.bind parseU128).getD 0
      if balance < job.amount.toNat then
        emitPayment (paymentFailed (toString job.amount.toNat) (toString balance)
          "Insufficient balance")
      else [.pay job.idi job.amount att balance]

/-- The card event of `on_card`: a positive balance stands for a registered wallet. -/
def cardEvent (idi : String) (x : Reply) : HostEvent :=
  let balance := x.balance.getD "0"
  .card idi ((parseU128 balance).any (0 < ·)) balance

def exec (a : Act) (x : Reply) (w : World) : Outcome World Role Act :=
  match a with
  | .setMode mist =>
    leaves (w.mapShared fun s => { s with payMode := mist }) [.sendTerminal (.mode mist), .broadcastStatus]
  | .sendTerminal e => leaves w (w.shared.clients.map fun id => .send id e)
  | .send id e => leaves (w.mapConn id fun c => c.push e) []
  | .broadcastStatus => leaves w [.sendTerminal (statusEvent w.shared)]
  | .connect => connect w
  | .deliver id => leaves (w.mapConn id Conn.deliver) []
  | .read id => read id w
  | .unregister id =>
    leaves (w.mapShared fun s => { s with clients := s.clients.filter (· ≠ id) }) [.broadcastStatus]
  | .faceOk d => faceOk d w
  | .runPayment job => leaves w (runPayment merchant job x)
  | .pay idi amount att balance =>
    leaves { w with paid := w.paid ++ [⟨idi, amount, merchant, att⟩] }
      (emitPayment (paymentEvent toLowercase amount balance x))
  | .storePayment e => leaves (w.mapShared fun s => { s with lastPayment := some e }) []
  | .attest idm =>
    match attestWithCard ark toLowercase x.exchange with
    | none => leaves w []
    | some (idi, json) =>
      leaves { w with lastIdm := some idm, obtained := w.obtained + 1 }
        [.lookupCard idi ⟨json, w.obtained⟩]
  | .lookupCard idi att =>
    let e := cardEvent idi x
    leaves w [.publishCard idi att e, .sendTerminal e]
  | .publishCard idi att e =>
    leaves (w.mapShared fun s =>
      { s with currentIdi := some idi, currentAtt := some att, lastCard := some e }) []
  | .removeCard =>
    leaves { w with
      lastIdm := none
      shared := { w.shared with currentIdi := none, currentAtt := none, lastCard := none } } []
  | .process id => leaves (w.mapConn id Conn.process) []
  | .faceResult id ok mode =>
    let result := (w.conns id).app.onFaceResult ok mode
    let shown := (w.conns id).app.payMode
    leaves { (w.mapConn id fun c => { c with app := result.1 }) with
      reports := w.reports ++ result.2.map fun r => ⟨id, r, shown⟩ } []
  | .leave id => leaves (w.mapConn id fun c => { c with app := c.app.goWaiting }) []
  | .report id r =>
    leaves { w with reports := w.reports ++ [⟨id, r, (w.conns id).app.payMode⟩] } []

/-- The work of one round of the card loop. -/
def cardRound (lastIdm : Option Block) : Poll → List Act
  | .present idm =>
    if lastIdm = some idm then [] else [.sendTerminal .detecting, .attest idm]
  | .fast => []
  | .slow => if lastIdm.isSome then [.removeCard, .sendTerminal .cardRemoved] else []

/-- The work of a call.  A handler works for its client until it has taken it off the
list; a client may report anything. -/
def call (r : Role) (k : Call) (w : World) : Option (List Act) :=
  match r, k with
  | .listener, .accept => some [.connect]
  | .cli, .pay mist => some (setPayMode (some mist))
  | .cli, .idle => some (setPayMode none)
  | .card, .poll p => some (cardRound w.lastIdm p)
  | .handler id, .deliver => if id ∈ w.shared.clients then some [.deliver id] else none
  | .handler id, .read => if id ∈ w.shared.clients then some [.read id] else none
  | .handler id, .close => if id ∈ w.shared.clients then some [.unregister id] else none
  | .terminal id, .process => some [.process id]
  | .terminal id, .faceResult ok mode => some [.faceResult id ok mode]
  | .terminal id, .leave => some [.leave id]
  | .terminal id, .report r => some [.report id r]
  | _, _ => none

def program : Program World Role Call Reply Act where
  call := call
  exec := exec ark merchant toLowercase

end Exec

/-- Before the first card, the first client and the first command. -/
def initial : State World Role Act := ⟨World.initial, [(.listener, []), (.cli, []), (.card, [])]⟩

/-! ### What actions carry -/

/-- An action that carries no report, no job, no card and no result. -/
def Act.isPlain : Act → Bool
  | .faceOk _ | .runPayment _ | .pay _ _ _ _ | .storePayment _ | .lookupCard _ _
  | .publishCard _ _ _ => false
  | _ => true

theorem isPlain_cardRound (lastIdm : Option Block) (p : Poll) :
    ∀ a ∈ cardRound lastIdm p, a.isPlain = true := by
  cases p with
  | present idm =>
    rw [cardRound]
    split <;> simp [Act.isPlain]
  | fast => simp [cardRound]
  | slow =>
    rw [cardRound]
    split <;> simp [Act.isPlain]

theorem isPlain_of_call {r : Role} {k : Call} {w : World} {work : List Act}
    (h : call r k w = some work) : ∀ a ∈ work, a.isPlain = true := by
  cases r <;> cases k
  case card.poll p => cases h; exact isPlain_cardRound _ _
  case handler.deliver id | handler.read id | handler.close id =>
    obtain ⟨-, h⟩ := Option.ite_none_right_eq_some.mp h
    cases h
    simp [Act.isPlain]
  all_goals cases h
  all_goals simp [Act.isPlain, setPayMode]

/-- What an action leads to.  All that is not plain hands something on, and the events that
it stores are a card's own and payment results. -/
inductive Leads (w : World) : Act → Act → Prop where
  | plain {a b : Act} (h : b.isPlain = true) : Leads w a b
  | report {id : ℕ} {d : Delivery} {idi : String} (h : d ∈ w.reports)
    (hface : d.report = .faceOk idi) : Leads w (.read id) (.faceOk d)
  | job {d : Delivery} {job : Job} : Leads w (.faceOk d) (.runPayment job)
  | pay {job : Job} {idi : String} {amount : UInt64} {att : Attestation} {balance : ℕ} :
    Leads w (.runPayment job) (.pay idi amount att balance)
  | result {a : Act} {e : HostEvent} (h : e.isPayment = true) : Leads w a (.storePayment e)
  | attested {idm : Block} {idi : String} {att : Attestation} :
    Leads w (.attest idm) (.lookupCard idi att)
  | card {idi : String} {att : Attestation} {registered : Bool} {balance : String} :
    Leads w (.lookupCard idi att) (.publishCard idi att (.card idi registered balance))

theorem leads_emitPayment (w : World) (a : Act) {e : HostEvent} (h : e.isPayment = true) :
    ∀ b ∈ emitPayment e, Leads w a b := by
  intro b hb
  simp only [emitPayment, List.mem_cons, List.not_mem_nil, or_false] at hb
  rcases hb with rfl | rfl
  · exact .result h
  · exact .plain rfl

theorem leads_runPayment (merchant : String) (w : World) (job : Job) (x : Reply) :
    ∀ b ∈ runPayment merchant job x, Leads w (.runPayment job) b := by
  unfold runPayment
  split
  · exact leads_emitPayment w _ rfl
  · split
    · exact leads_emitPayment w _ rfl
    · dsimp only
      split
      · exact leads_emitPayment w _ rfl
      · intro b hb
        rw [List.mem_singleton.mp hb]
        exact .pay

theorem isPayment_paymentEvent (toLowercase : String → String) (amount : UInt64) (balance : ℕ)
    (x : Reply) : (paymentEvent toLowercase amount balance x).isPayment = true := by
  unfold paymentEvent
  split <;> rfl

theorem leads_read {id : ℕ} {w : World} : ∀ b ∈ (read id w).work, Leads w (.read id) b := by
  intro b hb
  unfold read at hb
  split at hb
  · cases hb
  · rename_i d hd
    have hwork : b ∈ handleReport d := by simpa [leaves, Outcome.work] using hb
    obtain ⟨client, report, shown⟩ := d
    cases report with
    | faceOk idi =>
      rw [List.mem_singleton.mp hwork]
      exact .report (List.mem_of_find?_eq_some hd) rfl
    | op cmd =>
      cases cmd with
      | pay amount =>
        cases amount with
        | none => cases hwork
        | some mist =>
          rw [List.mem_singleton.mp hwork]
          exact .plain rfl
      | idle | status =>
        rw [List.mem_singleton.mp hwork]
        exact .plain rfl
      | unknown => cases hwork
    | faceNg | enrolled | cancel | other => cases hwork

theorem leads_faceOk {d : Delivery} {w : World} : ∀ b ∈ (faceOk d w).work, Leads w (.faceOk d) b := by
  intro b hb
  unfold faceOk at hb
  split at hb
  · rw [List.mem_singleton.mp hb]
    exact .job
  · cases hb

/-- **What actions lead to.** -/
theorem leads_exec (ark : ArkGroth16) (merchant : String) (toLowercase : String → String)
    (a : Act) (x : Reply) (w : World) :
    ∀ b ∈ (exec ark merchant toLowercase a x w).work, Leads w a b := by
  intro b hb
  cases a with
  | read id => exact leads_read b hb
  | faceOk d => exact leads_faceOk b hb
  | runPayment job =>
    exact leads_runPayment merchant w job x b (by simpa [exec, leaves, Outcome.work] using hb)
  | pay idi amount att balance =>
    exact leads_emitPayment w _ (isPayment_paymentEvent toLowercase amount balance x) b
      (by simpa [exec, leaves, Outcome.work] using hb)
  | attest idm =>
    simp only [exec] at hb
    split at hb
    · cases hb
    · rw [List.mem_singleton.mp hb]
      exact .attested
  | lookupCard idi att =>
    simp only [exec, leaves, Outcome.work, List.flatMap_nil, List.append_nil, List.mem_cons,
      List.not_mem_nil, or_false] at hb
    rcases hb with rfl | rfl
    · exact .card
    · exact .plain rfl
  | sendTerminal e =>
    simp only [exec, leaves, Outcome.work, List.flatMap_nil, List.append_nil, List.mem_map] at hb
    obtain ⟨id, -, rfl⟩ := hb
    exact .plain rfl
  | connect =>
    simp [exec, connect, Outcome.work] at hb
    rcases hb with ⟨e, -, rfl⟩ | rfl <;> exact .plain rfl
  | setMode mist =>
    simp only [exec, leaves, Outcome.work, List.flatMap_nil, List.append_nil, List.mem_cons,
      List.not_mem_nil, or_false] at hb
    rcases hb with rfl | rfl <;> exact .plain rfl
  | broadcastStatus | unregister id =>
    rw [List.mem_singleton.mp hb]
    exact .plain rfl
  | send id e | deliver id | storePayment e | publishCard idi att e | removeCard | process id
  | faceResult id ok mode | leave id | report id r => cases hb

end SuiCash.Facepay
