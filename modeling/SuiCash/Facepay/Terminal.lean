import Mathlib.Tactic.Common

/-!
# The payment terminal

The protocol of `face-auth-ui/src/terminal.ts` and the screen state of
`face-auth-ui/src/App.tsx`: what the host sends a terminal, what a terminal reports,
and how the terminal's screen, card and payment mode follow both.

Only a `mode` event changes the payment mode (`App.payMode_onEvent`), and it leaves
the mode it announces, which is then the one announced last (`lastMode_concat`).
-/

namespace SuiCash.Facepay

/-! ### The protocol -/

/-- Host to client events.  `status` is for the admin GUI; a terminal ignores it. -/
inductive HostEvent where
  | detecting
  | card (idi : String) (registered : Bool) (balance : String)
  | cardRemoved
  /-- `none` is balance inquiry; an amount is what the next face debits, in MIST. -/
  | mode (payment : Option UInt64)
  | paymentResult (ok : Bool) (amount balanceAfter : String) (digest error : Option String)
  | status (mode : Option UInt64) (idi : Option String) (clients : ℕ)
  deriving DecidableEq

/-- Operator commands from the admin GUI.  The amount of `pay` is in MIST, whichever
field it came in; `none` where there is no amount to read. -/
inductive Op where
  | pay (amount : Option UInt64)
  | idle
  | status
  | unknown
  deriving DecidableEq

inductive Report where
  | faceOk (idi : String)
  | faceNg (idi : String)
  | enrolled (idi : String)
  | cancel (idi : Option String)
  | op (cmd : Op)
  /-- Anything the host does not read. -/
  | other
  deriving DecidableEq

def HostEvent.mode? : HostEvent → Option (Option UInt64)
  | .mode payment => some payment
  | _ => none

def HostEvent.isPayment : HostEvent → Bool
  | .paymentResult _ _ _ _ _ => true
  | _ => false

theorem HostEvent.mode?_of_isPayment {e : HostEvent} (h : e.isPayment = true) : e.mode? = none := by
  cases e <;> first | rfl | cases h

def lastMode (events : List HostEvent) : Option (Option UInt64) :=
  (events.filterMap HostEvent.mode?).getLast?

theorem lastMode_concat (events : List HostEvent) (e : HostEvent) :
    lastMode (events ++ [e]) = e.mode?.or (lastMode events) := by
  rw [lastMode, List.filterMap_append]
  cases h : e.mode? with
  | none => simp [h, lastMode]
  | some payment => simp [h]

/-! ### The screen -/

inductive Screen where
  | waiting
  | detecting
  | registerPrompt
  | enroll
  | auth
  | balance
  | paying
  | lcd
  deriving DecidableEq

structure Card where
  idi : String
  registered : Bool
  balance : String
  deriving DecidableEq

structure Lcd where
  ok : Bool
  amount : String
  balanceAfter : String
  error : Option String
  deriving DecidableEq

inductive CaptureMode where
  | enroll
  | auth
  deriving DecidableEq

structure App where
  payMode : Option UInt64
  screen : Screen
  card : Option Card
  lcd : Option Lcd
  /-- The IDi whose face is enrolled on the terminal. -/
  enrolledIdi : Option String
  deriving DecidableEq

namespace App

def initial : App := ⟨none, .waiting, none, none, none⟩

def goWaiting (app : App) : App := { app with screen := .waiting, card := none, lcd := none }

def onEvent (app : App) : HostEvent → App
  | .detecting =>
    { app with screen := if app.screen = .waiting then .detecting else app.screen }
  | .mode payment => { app with payMode := payment }
  | .card idi registered balance =>
    { app with
      card := some ⟨idi, registered, balance⟩
      screen :=
        if ¬ registered then .registerPrompt
        else if app.enrolledIdi ≠ some idi then .enroll
        else .auth }
  | .cardRemoved => app.goWaiting
  | .paymentResult ok amount balanceAfter _ error =>
    { app with lcd := some ⟨ok, amount, balanceAfter, error⟩, screen := .lcd }
  | .status _ _ _ => app

/-- The end of a face capture: the state it leaves and what is reported. -/
def onFaceResult (app : App) (ok : Bool) (mode : CaptureMode) : App × List Report :=
  match app.card with
  | none => (app, [])
  | some card =>
    if ¬ ok then (app.goWaiting, [.faceNg card.idi])
    else
      let enrolled := mode = .enroll
      ({ app with
          enrolledIdi := if enrolled then some card.idi else app.enrolledIdi
          screen := if app.payMode.isSome then .paying else .balance },
        (if enrolled then [.enrolled card.idi] else []) ++ [.faceOk card.idi])

theorem payMode_onEvent (app : App) (e : HostEvent) :
    (app.onEvent e).payMode = e.mode?.getD app.payMode := by
  cases e <;> rfl

@[simp] theorem payMode_onFaceResult (app : App) (ok : Bool) (mode : CaptureMode) :
    (app.onFaceResult ok mode).1.payMode = app.payMode := by
  unfold onFaceResult
  split
  · rfl
  · split <;> rfl

end App

end SuiCash.Facepay
