import SuiCash.Facepay.Capture

/-!
# The face enrolled on the terminal

The terminal remembers whose face is enrolled in `enrolledIdi`; the face itself is in the
store of the engine, one at a time.  The two are written at different moments: the engine
clears and fills the store when it runs a call, the terminal marks the card when the answer
has come back, and nothing unmarks a card whose face is no longer there.

`lastEnrolled` is the card whose enrolment succeeded last, marked or with its answer still
on the way.  `Orderly` says when the schedule keeps the two together: no enrolment fails
while there is such a card, none overtakes the card on the `auth` screen, and no card is
brought to that screen or matched that has been overtaken.  `Synced` is what such a run
keeps, and then a face is only ever taken for that of its own card
(`faces_bound`).
-/

namespace SuiCash.Facepay

/-- The card a successful enrolment is to mark. -/
def enrols? (p : EngineCall × Answer) : Option String :=
  if p.1.mode = .enroll ∧ p.2.ok = true then p.1.idi else none

/-- A registered card that an event shows. -/
def Terminal.Label.shown? : Terminal.Label → Option String
  | .event (.card idi true _) => some idi
  | _ => none

def Terminal.Label.outcome? : Terminal.Label → Option EngineOutcome
  | .engine o => some o
  | _ => none

namespace Terminal

variable (t : Terminal)

/-- The card enrolled last: of the last successful answer still to be taken, or else the
one that is marked. -/
def lastEnrolled : Option String := (t.answers.filterMap enrols?).getLast?.or t.app.enrolledIdi

/-- On the `auth` screen, and wherever a card is marked as enrolled, the store holds the
face learned for that card, and a `faceOk` is owed to the face of the card it names. -/
structure FacesBound : Prop where
  auth : t.app.screen = .auth →
    ∃ c ∈ t.app.card, t.app.enrolledIdi = some c.idi ∧ t.store = some c.idi
  marked : t.app.enrolledIdi.isSome = true → t.store.isSome = true
  faceOk : ∀ r ∈ t.reports .complete, ∀ idi ∈ r.faceOk?, ∀ p ∈ t.answers.head?,
    p.2.stored = some idi

/-- The engine's next call is answered in order. -/
def OrderlyCall (q : EngineCall) (o : EngineOutcome) : Prop :=
  (q.mode = .enroll → o = .notLearned → t.lastEnrolled = none)
    ∧ (q.mode = .enroll → o ≠ .noFace → o ≠ .notLearned → t.app.screen = .auth → q.idi = t.onScreen)
    ∧ (q.mode = .auth → o = .face true → t.lastEnrolled = q.idi)

/-- No card that is not the one enrolled last is shown as enrolled or matched, none is
enrolled while another one is authenticated, and no enrolment fails after one that did not. -/
def Orderly (l : Label) : Prop :=
  (∀ idi ∈ l.shown?, t.app.enrolledIdi = some idi → t.lastEnrolled = some idi)
    ∧ ∀ o ∈ l.outcome?, ∀ q ∈ t.queue.head?, t.OrderlyCall q o

instance (q : EngineCall) (o : EngineOutcome) : Decidable (t.OrderlyCall q o) :=
  inferInstanceAs (Decidable (_ ∧ _))

instance (l : Label) : Decidable (t.Orderly l) := inferInstanceAs (Decidable (_ ∧ _))

/-- What an orderly run keeps. -/
structure Synced : Prop where
  named : t.Named
  stored : ∀ idi, t.lastEnrolled = some idi → t.store = some idi
  auth : t.app.screen = .auth →
    ∃ c, t.app.card = some c ∧ t.app.enrolledIdi = some c.idi ∧ t.lastEnrolled = some c.idi
  answers : ∀ p ∈ t.answers, p.2.ok = true → p.2.stored = p.1.idi

variable {t}

theorem synced_initial (store : Option String) : (initial store).Synced where
  named := named_initial store
  stored idi h := by cases h
  auth h := by cases h
  answers p hp := by cases hp

/-! ### Events -/

end Terminal

@[simp] theorem App.enrolledIdi_onEvent (app : App) (e : HostEvent) :
    (app.onEvent e).enrolledIdi = app.enrolledIdi := by
  cases e <;> rfl

theorem App.onEvent_auth {app : App} {e : HostEvent} (h : (app.onEvent e).screen = .auth) :
    (∃ idi balance, e = .card idi true balance ∧ app.enrolledIdi = some idi
        ∧ (app.onEvent e).card = some ⟨idi, true, balance⟩)
      ∨ app.screen = .auth ∧ (app.onEvent e).card = app.card := by
  cases e with
  | card idi registered balance =>
    left
    simp only [App.onEvent] at h ⊢
    split at h
    · cases h
    · rename_i hregistered
      split at h
      · cases h
      · rename_i henrolled
        have hregistered : registered = true := by simpa using hregistered
        subst hregistered
        exact ⟨idi, balance, rfl, not_not.mp henrolled, rfl⟩
  | detecting =>
    right
    simp only [App.onEvent] at h ⊢
    split at h
    · cases h
    · exact ⟨h, trivial⟩
  | mode | status => exact .inr ⟨h, rfl⟩
  | cardRemoved | paymentResult => cases h

namespace Terminal

theorem Synced.event {t : Terminal} (ht : t.Synced) {e : HostEvent} (ho : t.Orderly (.event e)) :
    Synced { t with app := t.app.onEvent e } := by
  have hlast : lastEnrolled { t with app := t.app.onEvent e } = t.lastEnrolled := by
    simp only [lastEnrolled, App.enrolledIdi_onEvent]
  refine ⟨⟨ht.named.mounted, ht.named.calls⟩, fun idi h => ht.stored idi (hlast ▸ h), fun h => ?_,
    ht.answers⟩
  rw [hlast]
  simp only [App.enrolledIdi_onEvent]
  rcases App.onEvent_auth h with ⟨idi, balance, rfl, henrolled, hcard⟩ | ⟨hauth, hcard⟩
  · exact ⟨_, hcard, henrolled, ho.1 idi rfl henrolled⟩
  · rw [hcard]
    exact ht.auth hauth

/-! ### Calls of the engine -/

theorem runCall_cases {q : EngineCall} {o : EngineOutcome} {store store' : Option String}
    {answer : Answer} (h : runCall q o store = some (answer, store')) :
    (answer.ok = false ∧ store' = store)
      ∨ (q.mode = .enroll ∧ o = .notLearned ∧ answer.ok = false ∧ store' = none)
      ∨ (q.mode = .enroll ∧ o ≠ .noFace ∧ o ≠ .notLearned ∧ answer = ⟨true, q.idi⟩ ∧ store' = q.idi)
      ∨ (q.mode = .auth ∧ o = .face true ∧ answer = ⟨true, store⟩ ∧ store' = store) := by
  obtain ⟨serial, mode, closure⟩ := q
  cases o with
  | noFace =>
    cases mode <;> cases h <;> exact .inl ⟨rfl, rfl⟩
  | notLearned =>
    cases mode with
    | enroll =>
      cases h
      exact .inr (.inl ⟨rfl, rfl, rfl, rfl⟩)
    | auth => cases h
  | face similar =>
    cases mode with
    | enroll =>
      cases h
      exact .inr (.inr (.inl ⟨rfl, by simp, by simp, rfl, rfl⟩))
    | auth =>
      obtain ⟨-, h⟩ := Option.ite_none_right_eq_some.mp h
      cases h
      cases similar with
      | false => exact .inl ⟨rfl, rfl⟩
      | true => exact .inr (.inr (.inr ⟨rfl, rfl, rfl, rfl⟩))

/-- The answer to come last is of the card enrolled last, if it is of one at all. -/
theorem lastEnrolled_push (t : Terminal) (queue : List EngineCall) (p : EngineCall × Answer)
    (store : Option String) :
    lastEnrolled { t with queue := queue, answers := t.answers ++ [p], store := store }
      = (enrols? p).or t.lastEnrolled := by
  simp only [lastEnrolled, List.filterMap_append]
  cases h : enrols? p with
  | none => simp [h]
  | some idi => simp [h]

/-- The engine's next call keeps face and card together. -/
theorem Synced.engine {t t' : Terminal} (ht : t.Synced) {o : EngineOutcome}
    (ho : t.Orderly (.engine o)) (h : t.engine o = some t') : t'.Synced := by
  have hnamed : t'.Named := Named.step (l := .engine o) h ht.named
  obtain ⟨q, queue, answer, store, hqueue, hrun, rfl⟩ := engine_eq_some h
  obtain ⟨hfail, hlearn, hmatch⟩ := ho.2 o rfl q (by rw [hqueue]; rfl)
  have hq : q ∈ t.calls := by simp [Terminal.calls, hqueue]
  obtain ⟨idi, hidi⟩ := Option.isSome_iff_exists.mp (ht.named.calls q hq)
  -- What holds of the new answer, of the store it leaves and of the card enrolled last.
  suffices hnew : (answer.ok = true → answer.stored = q.idi)
      ∧ (∀ i, (enrols? (q, answer)).or t.lastEnrolled = some i → store = some i)
      ∧ (t.app.screen = .auth → ∀ c, t.app.card = some c → t.lastEnrolled = some c.idi →
        (enrols? (q, answer)).or t.lastEnrolled = some c.idi) by
    obtain ⟨hanswer, hstore, hauth⟩ := hnew
    refine ⟨hnamed, fun i hi => ?_, fun hscreen => ?_, fun p hp => ?_⟩
    · rw [lastEnrolled_push] at hi
      exact hstore i hi
    · obtain ⟨c, hcard, henrolled, hlast⟩ := ht.auth hscreen
      rw [lastEnrolled_push]
      exact ⟨c, hcard, henrolled, hauth hscreen c hcard hlast⟩
    · rcases List.mem_append.mp hp with hp | hp
      · exact ht.answers p hp
      · rw [List.mem_singleton.mp hp]
        exact hanswer
  rcases runCall_cases hrun with ⟨hok, rfl⟩ | ⟨hmode, rfl, hok, rfl⟩
    | ⟨hmode, hface, hlearned, rfl, rfl⟩ | ⟨hmode, rfl, rfl, rfl⟩
  · have hnone : enrols? (q, answer) = none := by simp [enrols?, hok]
    rw [hnone, Option.none_or]
    exact ⟨fun h => by simp [hok] at h, ht.stored, fun _ _ _ hlast => hlast⟩
  · have hnone : enrols? (q, answer) = none := by simp [enrols?, hok]
    rw [hnone, Option.none_or, hfail hmode rfl]
    exact ⟨(fun h => by simp [hok] at h), (fun i h => absurd h.symm (Option.some_ne_none i)),
      fun _ _ _ hlast => hlast⟩
  · have hsome : enrols? (q, ⟨true, q.idi⟩) = some idi := by simp [enrols?, hmode, hidi]
    rw [hsome, Option.some_or, hidi]
    refine ⟨fun _ => rfl, fun i hi => hi, fun hscreen c hcard _ => ?_⟩
    rw [← hidi, hlearn hmode hface hlearned hscreen, onScreen, hcard, Option.map_some]
  · have hnone : enrols? (q, ⟨true, t.store⟩) = none := by simp [enrols?, hmode]
    rw [hnone, Option.none_or]
    refine ⟨fun _ => ?_, ht.stored, fun _ _ _ hlast => hlast⟩
    rw [hidi]
    exact ht.stored idi ((hmatch hmode rfl).trans hidi)

/-! ### Answers -/

theorem lastEnrolled_complete {t : Terminal} {q : EngineCall} {answer : Answer}
    {answers : List (EngineCall × Answer)} (h : t.answers = (q, answer) :: answers) {c : Card}
    (hc : q.closure.card = some c) (mounted : Option FaceCapture) :
    lastEnrolled { t with
      app := (q.closure.onFaceResult answer.ok q.mode t.app).1
      mounted := mounted
      answers := answers } = t.lastEnrolled := by
  have hidi : q.idi = some c.idi := by rw [EngineCall.idi, hc, Option.map_some]
  obtain ⟨ok, stored⟩ := answer
  cases ok with
  | false => simp [lastEnrolled, h, enrols?, Closure.onFaceResult, hc, App.goWaiting]
  | true =>
    cases hmode : q.mode with
    | auth => simp [lastEnrolled, h, enrols?, hmode, Closure.onFaceResult, hc]
    | enroll =>
      simp only [lastEnrolled, h, List.filterMap_cons, enrols?, hmode, hidi, and_self, if_true,
        Closure.onFaceResult, hc, List.getLast?_cons]
      cases (answers.filterMap enrols?).getLast? <;> rfl

theorem Closure.screen_onFaceResult {k : Closure} {c : Card} (h : k.card = some c) (ok : Bool)
    (mode : CaptureMode) (app : App) : (k.onFaceResult ok mode app).1.screen ≠ .auth := by
  simp only [Closure.onFaceResult, h]
  cases ok with
  | false => simp [App.goWaiting]
  | true => cases k.payMode <;> simp

theorem Synced.complete {t t' : Terminal} (ht : t.Synced) (h : t.complete = some t') :
    t'.Synced := by
  have hnamed : t'.Named := Named.step (l := .complete) h ht.named
  obtain ⟨q, answer, answers, hanswers, rfl⟩ := complete_eq_some h
  have hq : q ∈ t.calls := by simp [Terminal.calls, hanswers]
  obtain ⟨c, hc⟩ := Option.isSome_iff_exists.mp (Option.isSome_map ▸ ht.named.calls q hq)
  refine ⟨hnamed, fun i hi => ?_, fun hscreen => ?_, fun p hp => ?_⟩
  · exact ht.stored i (lastEnrolled_complete hanswers hc _ ▸ hi)
  · exact absurd hscreen (Closure.screen_onFaceResult hc _ _ _)
  · exact ht.answers p (hanswers ▸ List.mem_cons_of_mem _ hp)

/-! ### Runs -/

/-- What is neither on the screen nor in the engine does not matter. -/
theorem Synced.frame {t t' : Terminal} (ht : t.Synced) (hnamed : t'.Named) (happ : t'.app = t.app)
    (hanswers : t'.answers = t.answers) (hstore : t'.store = t.store) : t'.Synced := by
  have hlast : t'.lastEnrolled = t.lastEnrolled := by rw [lastEnrolled, lastEnrolled, happ, hanswers]
  refine ⟨hnamed, fun i hi => ?_, fun hscreen => ?_, fun p hp => ht.answers p (hanswers ▸ hp)⟩
  · rw [hstore]
    exact ht.stored i (hlast ▸ hi)
  · rw [happ] at hscreen ⊢
    rw [hlast]
    exact ht.auth hscreen

theorem render_frame (t : Terminal) :
    t.render.app = t.app ∧ t.render.answers = t.answers ∧ t.render.store = t.store := by
  unfold render
  split
  · exact ⟨rfl, rfl, rfl⟩
  · split
    · split <;> exact ⟨rfl, rfl, rfl⟩
    · exact ⟨rfl, rfl, rfl⟩

theorem Synced.goWaiting {t : Terminal} (ht : t.Synced) :
    Synced { t with app := t.app.goWaiting } :=
  ⟨⟨ht.named.mounted, ht.named.calls⟩, ht.stored, (fun h => nomatch h), ht.answers⟩

/-- **One step**: an orderly schedule keeps face and card together. -/
theorem Synced.step {t t' : Terminal} {l : Label} (h : t.step l = some t') (ho : t.Orderly l)
    (ht : t.Synced) : t'.Synced := by
  have hnamed : t'.Named := Named.step h ht.named
  cases l with
  | event e =>
    cases h
    exact ht.event ho
  | render =>
    cases h
    obtain ⟨happ, hanswers, hstore⟩ := render_frame t
    exact ht.frame hnamed happ hanswers hstore
  | capture =>
    obtain ⟨f, -, -, rfl⟩ := capture_eq_some h
    exact ht.frame hnamed rfl rfl rfl
  | engine o => exact ht.engine ho h
  | complete => exact ht.complete h
  | cancel | done =>
    obtain ⟨-, h⟩ := Option.ite_none_right_eq_some.mp h
    cases h
    exact ht.goWaiting

theorem ok_of_faceOk {t : Terminal} {p : EngineCall × Answer} (hp : p ∈ t.answers.head?)
    {r : Report} (hr : r ∈ t.reports .complete) {idi : String} (hidi : idi ∈ r.faceOk?) :
    p.2.ok = true ∧ p.1.idi = some idi := by
  obtain ⟨q, answer⟩ := p
  obtain ⟨answers, hanswers⟩ := List.head?_eq_some_iff.mp hp
  simp only [reports, hanswers] at hr
  cases hc : q.closure.card with
  | none => simp [Closure.onFaceResult, hc] at hr
  | some c =>
    have hown : idi = c.idi := (Closure.reports_of_card hc _ _ _).2 r hr idi hidi
    refine ⟨?_, by rw [EngineCall.idi, hc, hown, Option.map_some]⟩
    by_contra hok
    simp only [Closure.onFaceResult, hc, hok, not_false_eq_true, if_true,
      List.mem_singleton] at hr
    rw [hr] at hidi
    cases hidi

theorem Synced.facesBound {t : Terminal} (ht : t.Synced) : t.FacesBound where
  auth hscreen := by
    obtain ⟨c, hcard, henrolled, hlast⟩ := ht.auth hscreen
    exact ⟨c, hcard, henrolled, ht.stored _ hlast⟩
  marked h := by
    obtain ⟨idi, hidi⟩ := Option.isSome_iff_exists.mp h
    cases hlast : t.lastEnrolled with
    | none => simp [lastEnrolled, hidi] at hlast
    | some i => rw [ht.stored i hlast]; rfl
  faceOk r hr idi hidi p hp := by
    obtain ⟨hok, hown⟩ := ok_of_faceOk hp hr hidi
    rw [ht.answers p (List.mem_of_mem_head? hp) hok, hown]

/-- **Faces stay bound to their cards** in every state of an orderly run. -/
theorem faces_bound (store : Option String) (ls : List Label)
    (h : Runs.Along step Orderly (initial store) ls) {t : Terminal}
    (ht : Runs.run step (initial store) ls = some t) : t.FacesBound :=
  (Runs.invariant (I := Synced) Synced.step h (synced_initial store) ht).facesBound

def visit (idi : String) (o : EngineOutcome) : List Label :=
  [.event (.card idi true "5"), .render, .capture, .engine o, .complete, .event .cardRemoved, .render]

def cardX : String := "0123456789abcdef"

def cardY : String := "fedcba9876543210"

theorem faces_bound_twoCards : ∃ t,
    Runs.run step (initial none) (visit cardX (.face true) ++ visit cardY (.face true)
        ++ [.event (.card cardY true "5")]) = some t
      ∧ t.app.screen = .auth ∧ t.FacesBound := by
  refine ⟨_, rfl, rfl, faces_bound none (visit cardX (.face true) ++ visit cardY (.face true)
    ++ [.event (.card cardY true "5")]) ?_ rfl⟩
  decide

/-- A card is enrolled, another one's enrolment fails, and the first comes back. -/
def failedEnrolment : List Label :=
  visit cardX (.face true) ++ visit cardY .notLearned ++ [.event (.card cardX true "5")]

/-- Another card's face is learned, and the first comes back before the terminal knows. -/
def lateAnswer : List Label :=
  visit cardX (.face true)
    ++ [.event (.card cardY true "5"), .render, .capture, .engine (.face true),
      .event (.card cardX true "5"), .render, .capture, .engine (.face true), .complete]

/-- **A card marked as enrolled whose face is gone**, with an empty store or with the face
of another card in it. -/
theorem faces_unbound :
    (∃ t, Runs.run step (initial none) failedEnrolment = some t
      ∧ t.app.screen = .auth ∧ t.onScreen = some cardX ∧ t.app.enrolledIdi = some cardX
      ∧ t.store = none ∧ ¬ t.FacesBound)
    ∧ ∃ t, Runs.run step (initial none) lateAnswer = some t
      ∧ t.store = some cardY ∧ t.reports .complete = [.faceOk cardX] ∧ ¬ t.FacesBound := by
  refine ⟨⟨_, rfl, by decide, by decide, by decide, by decide, fun h => ?_⟩,
    ⟨_, rfl, by decide, by decide, fun h => ?_⟩⟩
  · have := h.marked (by decide)
    exact absurd this (by decide)
  · have := h.faceOk (.faceOk cardX) (by decide) cardX rfl _ rfl
    exact absurd this (by decide)

end Terminal

end SuiCash.Facepay
