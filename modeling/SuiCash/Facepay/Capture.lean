import SuiCash.Facepay.Terminal
import SuiCash.Lib.Runs

/-!
# Face captures of the terminal

`App.tsx` renders a `FaceCapture` while it shows the `enroll` or the `auth` screen.
Its `capture` calls the engine and awaits the answer, and then runs the `onResult` of
the render it was called from: card and payment mode are those of that render, whatever
has come in since (`Closure.onFaceResult`).

The engine of `SafrEngine.java` runs its calls one after the other.  `register` clears the
store before it learns a face, and the terminal marks the card as enrolled when the answer
has come back to it.

A step is a host event, a render, a capture, the engine's next call, the terminal's next
answer, or a tap that leaves the screen.  When a frame is good enough to capture, what the
engine makes of it, and whether a call reaches it at all, is up to the schedule.
-/

namespace SuiCash.Facepay

/-! ### What a render closes over -/

/-- What `onFaceResult` takes from the render that made it. -/
structure Closure where
  card : Option Card
  payMode : Option UInt64
  deriving DecidableEq

/-- `onFaceResult`: what it does to the terminal as it is by then, and what it reports. -/
def Closure.onFaceResult (k : Closure) (ok : Bool) (mode : CaptureMode) (app : App) :
    App × List Report :=
  match k.card with
  | none => (app, [])
  | some card =>
    if ¬ ok then (app.goWaiting, [.faceNg card.idi])
    else
      let enrolled := mode = .enroll
      ({ app with
          enrolledIdi := if enrolled then some card.idi else app.enrolledIdi
          screen := if k.payMode.isSome then .paying else .balance },
        (if enrolled then [.enrolled card.idi] else []) ++ [.faceOk card.idi])

/-- With nothing come in since the render, this is the terminal's own `onFaceResult`. -/
theorem Closure.onFaceResult_current (app : App) (ok : Bool) (mode : CaptureMode) :
    Closure.onFaceResult ⟨app.card, app.payMode⟩ ok mode app = app.onFaceResult ok mode := rfl

/-- What is on the screen since the last render. -/
structure View where
  screen : Screen
  card : Option Card
  payMode : Option UInt64
  lcd : Option Lcd
  deriving DecidableEq

def App.view (app : App) : View := ⟨app.screen, app.card, app.payMode, app.lcd⟩

namespace View

variable (v : View)

def closure : Closure := ⟨v.card, v.payMode⟩

def capture? : Option CaptureMode :=
  if v.card.isNone then none
  else
    match v.screen with
    | .enroll => some .enroll
    | .auth => some .auth
    | _ => none

def hasDone : Bool :=
  match v.screen with
  | .registerPrompt => true
  | .balance => v.card.isSome
  | .lcd => v.lcd.isSome
  | _ => false

end View

/-! ### The terminal and its engine -/

structure FaceCapture where
  serial : ℕ
  mode : CaptureMode
  busy : Bool
  /-- `busy` as the last render has it. -/
  shownBusy : Bool
  deriving DecidableEq

/-- A call of the engine, awaited by a capture. -/
structure EngineCall where
  /-- The `FaceCapture` that made it. -/
  serial : ℕ
  mode : CaptureMode
  closure : Closure
  deriving DecidableEq

def EngineCall.idi (q : EngineCall) : Option String := q.closure.card.map Card.idi

/-- What the engine makes of a call: no face, or nothing else to go on; a store cleared
and no face learned; a face, learned or found similar enough to the stored one. -/
inductive EngineOutcome where
  | noFace
  | notLearned
  | face (similar : Bool)
  deriving DecidableEq

/-- An answer, and whose face was in the store that gave it. -/
structure Answer where
  ok : Bool
  stored : Option String
  deriving DecidableEq

structure Terminal where
  app : App
  view : View
  mounted : Option FaceCapture
  /-- How many `FaceCapture`s have been mounted. -/
  mounts : ℕ
  /-- Calls the engine has yet to run. -/
  queue : List EngineCall
  /-- Answers the terminal has yet to take, oldest first. -/
  answers : List (EngineCall × Answer)
  /-- The person store: for whose enrolment its face was learned. -/
  store : Option String
  deriving DecidableEq

namespace Terminal

inductive Label where
  | event (e : HostEvent)
  | render
  | capture
  | engine (o : EngineOutcome)
  | complete
  | cancel
  | done
  deriving DecidableEq

def initial (store : Option String) : Terminal :=
  ⟨App.initial, App.initial.view, none, 0, [], [], store⟩

variable (t : Terminal)

/-- A render mounts a `FaceCapture` unless one of its mode stands there already. -/
def render : Terminal :=
  match t.app.view.capture? with
  | none => { t with view := t.app.view, mounted := none }
  | some mode =>
    match t.mounted with
    | some f =>
      if f.mode = mode then
        { t with view := t.app.view, mounted := some { f with shownBusy := f.busy } }
      else
        { t with
          view := t.app.view, mounted := some ⟨t.mounts, mode, false, false⟩, mounts := t.mounts + 1 }
    | none =>
      { t with
        view := t.app.view, mounted := some ⟨t.mounts, mode, false, false⟩, mounts := t.mounts + 1 }

def capture : Option Terminal :=
  match t.mounted with
  | none => none
  | some f =>
    if f.shownBusy then none
    else
      some { t with
        mounted := some { f with busy := true }
        queue := t.queue ++ [⟨f.serial, f.mode, t.view.closure⟩] }

/-- `register` or `match` of the engine: its answer, and the store it leaves. -/
def runCall (q : EngineCall) (o : EngineOutcome) (store : Option String) :
    Option (Answer × Option String) :=
  match q.mode, o with
  | _, .noFace => some (⟨false, store⟩, store)
  | .enroll, .notLearned => some (⟨false, none⟩, none)
  | .enroll, .face _ => some (⟨true, q.idi⟩, q.idi)
  | .auth, .face similar => if store.isSome then some (⟨similar, store⟩, store) else none
  | .auth, .notLearned => none

/-- The engine runs its next call. -/
def engine (o : EngineOutcome) : Option Terminal :=
  match t.queue with
  | [] => none
  | q :: queue =>
    (runCall q o t.store).map fun (answer, store) =>
      { t with queue := queue, answers := t.answers ++ [(q, answer)], store := store }

/-- `setBusy(false)`, which only the `FaceCapture` that called notices. -/
def release (serial : ℕ) (f : FaceCapture) : FaceCapture :=
  if f.serial = serial then { f with busy := false } else f

/-- The capture whose call was answered first goes on. -/
def complete : Option Terminal :=
  match t.answers with
  | [] => none
  | (q, answer) :: answers =>
    some { t with
      app := (q.closure.onFaceResult answer.ok q.mode t.app).1
      mounted := t.mounted.map (release q.serial)
      answers := answers }

def step : Label → Option Terminal
  | .event e => some { t with app := t.app.onEvent e }
  | .render => some t.render
  | .capture => t.capture
  | .engine o => t.engine o
  | .complete => t.complete
  | .cancel => if t.view.capture?.isSome then some { t with app := t.app.goWaiting } else none
  | .done => if t.view.hasDone then some { t with app := t.app.goWaiting } else none

def reports : Label → List Report
  | .complete =>
    match t.answers with
    | [] => []
    | (q, answer) :: _ => (q.closure.onFaceResult answer.ok q.mode t.app).2
  | .cancel => if t.view.capture?.isSome then [.cancel (t.view.card.map Card.idi)] else []
  | _ => []

/-- The IDi of the card on the screen: of the latest `card` event, unless the terminal has
gone back to waiting since. -/
def onScreen : Option String := t.app.card.map Card.idi

end Terminal

/-! ### What a step can do -/

namespace Terminal

variable {t t' : Terminal}

theorem capture_eq_some (h : t.capture = some t') : ∃ f, t.mounted = some f
    ∧ f.shownBusy = false ∧ t' = { t with
      mounted := some { f with busy := true }
      queue := t.queue ++ [⟨f.serial, f.mode, t.view.closure⟩] } := by
  unfold capture at h
  split at h
  · cases h
  · rename_i f hmounted
    split at h
    · cases h
    · rename_i hbusy
      exact ⟨f, hmounted, Bool.not_eq_true _ ▸ hbusy, (Option.some.inj h).symm⟩

theorem engine_eq_some {o : EngineOutcome} (h : t.engine o = some t') :
    ∃ q queue answer store, t.queue = q :: queue ∧ runCall q o t.store = some (answer, store)
      ∧ t' = { t with queue := queue, answers := t.answers ++ [(q, answer)], store := store } := by
  unfold engine at h
  split at h
  · cases h
  · rename_i q queue hqueue
    obtain ⟨⟨answer, store⟩, hrun, rfl⟩ := Option.map_eq_some_iff.mp h
    exact ⟨q, queue, answer, store, hqueue, hrun, rfl⟩

theorem complete_eq_some (h : t.complete = some t') : ∃ q answer answers,
    t.answers = (q, answer) :: answers ∧ t' = { t with
      app := (q.closure.onFaceResult answer.ok q.mode t.app).1
      mounted := t.mounted.map (release q.serial)
      answers := answers } := by
  unfold complete at h
  split at h
  · cases h
  · rename_i q answer answers hanswers
    exact ⟨q, answer, answers, hanswers, (Option.some.inj h).symm⟩

end Terminal

/-! ### A result is of the card on the screen -/

/-- The card a report authenticates. -/
def Report.faceOk? : Report → Option String
  | .faceOk idi => some idi
  | _ => none

namespace Terminal

variable (t : Terminal)

/-- A `faceOk` names the card on the screen, and an answer to a call for another card is
not reported and changes neither the screen nor the enrolled card. -/
def ResultOnScreen (l : Label) : Prop :=
  (∀ r ∈ t.reports l, ∀ idi ∈ r.faceOk?, t.onScreen = some idi)
    ∧ (l = .complete → ∀ q ∈ t.answers.head?, q.1.idi ≠ t.onScreen →
      t.reports l = [] ∧ ∀ t' ∈ t.step l,
        t'.app.screen = t.app.screen ∧ t'.app.enrolledIdi = t.app.enrolledIdi)

/-- The call whose answer is taken is for the card on the screen. -/
def Timely (l : Label) : Prop :=
  l = .complete → ∀ q ∈ t.answers.head?, q.1.idi = t.onScreen

instance (l : Label) : Decidable (t.ResultOnScreen l) := inferInstanceAs (Decidable (_ ∧ _))

instance (l : Label) : Decidable (t.Timely l) := inferInstanceAs (Decidable (_ → _))

/-- All engine calls under way, those answered first. -/
def calls : List EngineCall := t.answers.map Prod.fst ++ t.queue

/-- A `FaceCapture` is only mounted for a card, so every call is for one. -/
structure Named : Prop where
  mounted : t.mounted.isSome = true → t.view.card.isSome = true
  calls : ∀ q ∈ t.calls, q.idi.isSome = true

end Terminal

theorem View.card_of_capture? {v : View} (h : v.capture?.isSome = true) : v.card.isSome = true := by
  cases hcard : v.card with
  | none => simp [View.capture?, hcard] at h
  | some c => rfl

namespace Terminal

theorem render_calls (t : Terminal) : t.render.calls = t.calls := by
  unfold render
  split
  · rfl
  · split
    · split <;> rfl
    · rfl

theorem render_mounted {t : Terminal} (h : t.render.mounted.isSome = true) :
    t.render.view.card.isSome = true := by
  cases hmode : t.app.view.capture? with
  | none => simp [render, hmode] at h
  | some mode =>
    have hcard : t.app.view.card.isSome = true := View.card_of_capture? (by rw [hmode]; rfl)
    simp only [render, hmode]
    split
    · split <;> exact hcard
    · exact hcard

/-- A call that is new after a step has been made by a capture. -/
theorem mem_calls_step {t t' : Terminal} {l : Label} (h : t.step l = some t') :
    ∀ q ∈ t'.calls, q ∈ t.calls ∨ t.mounted.isSome = true ∧ q.closure = t.view.closure := by
  intro q hq
  cases l with
  | event e =>
    cases h
    exact .inl hq
  | render =>
    cases h
    rw [render_calls] at hq
    exact .inl hq
  | capture =>
    obtain ⟨f, hmounted, -, rfl⟩ := capture_eq_some h
    simp only [calls, List.mem_append, List.mem_singleton] at hq ⊢
    rcases hq with hq | hq | hq
    · exact .inl (.inl hq)
    · exact .inl (.inr hq)
    · rw [hq, hmounted]
      exact .inr ⟨rfl, rfl⟩
  | engine o =>
    obtain ⟨q', queue, answer, store, hqueue, -, rfl⟩ := engine_eq_some h
    left
    simpa [calls, hqueue, or_assoc] using hq
  | complete =>
    obtain ⟨q', answer, answers, hanswers, rfl⟩ := complete_eq_some h
    left
    simp only [calls, hanswers, List.map_cons, List.cons_append]
    exact List.mem_cons_of_mem _ hq
  | cancel | done =>
    obtain ⟨-, h⟩ := Option.ite_none_right_eq_some.mp h
    cases h
    exact .inl hq

theorem mounted_step {t t' : Terminal} {l : Label} (h : t.step l = some t') :
    t' = t.render ∨ (t'.mounted.isSome = t.mounted.isSome ∧ t'.view = t.view) := by
  cases l with
  | render => exact .inl (Option.some.inj h).symm
  | event e => exact .inr (by cases h; exact ⟨rfl, rfl⟩)
  | capture =>
    obtain ⟨f, hmounted, -, rfl⟩ := capture_eq_some h
    exact .inr ⟨by rw [hmounted]; rfl, rfl⟩
  | engine o =>
    obtain ⟨q, queue, answer, store, -, -, rfl⟩ := engine_eq_some h
    exact .inr ⟨rfl, rfl⟩
  | complete =>
    obtain ⟨q, answer, answers, -, rfl⟩ := complete_eq_some h
    exact .inr ⟨Option.isSome_map, rfl⟩
  | cancel | done =>
    obtain ⟨-, h⟩ := Option.ite_none_right_eq_some.mp h
    cases h
    exact .inr ⟨rfl, rfl⟩

theorem named_initial (store : Option String) : (initial store).Named where
  mounted h := by cases h
  calls q hq := by cases hq

theorem Named.step {t t' : Terminal} {l : Label} (h : t.step l = some t') (ht : t.Named) :
    t'.Named where
  mounted hm := by
    rcases mounted_step h with rfl | ⟨hmounted, hview⟩
    · exact render_mounted hm
    · rw [hview]
      exact ht.mounted (hmounted ▸ hm)
  calls q hq := by
    rcases mem_calls_step h q hq with hold | ⟨hmounted, hclosure⟩
    · exact ht.calls q hold
    · rw [EngineCall.idi, hclosure, Option.isSome_map]
      exact ht.mounted hmounted

theorem Closure.reports_of_card {k : Closure} {c : Card} (h : k.card = some c) (ok : Bool)
    (mode : CaptureMode) (app : App) :
    (k.onFaceResult ok mode app).2 ≠ []
      ∧ ∀ r ∈ (k.onFaceResult ok mode app).2, ∀ idi ∈ r.faceOk?, idi = c.idi := by
  simp only [Closure.onFaceResult, h]
  cases ok with
  | false => simp [Report.faceOk?]
  | true => cases mode <;> simp [Report.faceOk?]

/-- **Only a call for another card gets it wrong.** -/
theorem Named.resultOnScreen_iff {t : Terminal} (ht : t.Named) (l : Label) :
    t.ResultOnScreen l ↔ t.Timely l := by
  cases l with
  | complete =>
    cases hanswers : t.answers with
    | nil => simp [ResultOnScreen, Timely, reports, hanswers]
    | cons qa answers =>
      obtain ⟨q, answer⟩ := qa
      have hq : q ∈ t.calls := by simp [Terminal.calls, hanswers]
      obtain ⟨c, hc⟩ := Option.isSome_iff_exists.mp (Option.isSome_map ▸ ht.calls q hq)
      have hidi : q.idi = some c.idi := by rw [EngineCall.idi, hc, Option.map_some]
      obtain ⟨hsome, hown⟩ := Closure.reports_of_card hc answer.ok q.mode t.app
      have hreports : t.reports .complete = (q.closure.onFaceResult answer.ok q.mode t.app).2 := by
        simp only [reports, hanswers]
      simp only [ResultOnScreen, Timely, hreports, hanswers, List.head?_cons, Option.mem_def,
        Option.some.injEq, forall_eq', forall_const]
      constructor
      · rintro ⟨-, hlate⟩
        by_contra hne
        exact hsome (hlate hne).1
      · intro htimely
        refine ⟨fun r hr idi hface => ?_, fun hne => absurd htimely hne⟩
        rw [hown r hr idi hface, ← htimely, hidi]
  | cancel =>
    simp only [ResultOnScreen, Timely, reports, reduceCtorEq, false_implies, and_true, iff_true]
    intro r hr idi hface
    split at hr
    · rw [List.mem_singleton.mp hr] at hface
      cases hface
    · cases hr
  | event | render | capture | engine | done => simp [ResultOnScreen, Timely, reports]

/-- **A face result is about the card on the screen** at every step of a run exactly if
no answer is taken for a card that has left it. -/
theorem resultOnScreen_iff_timely (store : Option String) (ls : List Label) :
    Runs.Along step ResultOnScreen (initial store) ls ↔ Runs.Along step Timely (initial store) ls :=
  Runs.along_congr (I := Named) (fun h _ => Named.step h) (fun ht => ht.resultOnScreen_iff)
    (named_initial store) ls

def takenAway : List Label :=
  [.event (.card "0123456789abcdef" true "5"), .render, .capture, .event .cardRemoved,
    .engine (.face true), .complete]

/-- **A result after the card has gone**: it is reported all the same. -/
theorem resultOnScreen_fails :
    (∃ t, Runs.run step (initial none) takenAway = some t ∧ t.onScreen = none
        ∧ t.app.screen = .balance ∧ t.app.enrolledIdi = some "0123456789abcdef")
      ∧ ¬ Runs.Along step ResultOnScreen (initial none) takenAway := by
  refine ⟨⟨_, rfl, ?_⟩, ?_⟩ <;> decide

end Terminal

end SuiCash.Facepay
