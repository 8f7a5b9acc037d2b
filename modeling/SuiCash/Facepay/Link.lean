import SuiCash.Facepay.Host
import SuiCash.Lib.Runs
import SuiCash.Sui.Agreement

/-!
# The link to the terminal

`facepay-host` keeps one sender, `term_tx`.  A connection that opens puts its own there,
one that closes takes away whatever is there, and one that fails leaves it.

`Linked` is what the sender is for: it is that of the newest connection still open.  A step
keeps this, and loses no event, exactly if it is `InTurn`: the connection that closes is
the only one, the one that fails is not the newest, and an event is queued before its
connection ends (`link_survives_iff`).
-/

namespace SuiCash.Facepay.Host

open Threads
open Prover (ArkGroth16)

/-- `term_tx` sends to the newest connection whose handler is running; there is none
exactly if no handler is. -/
def Linked (w : World) : Prop := w.shared.termTx = w.alive.getLast?

instance (w : World) : Decidable (Linked w) := inferInstanceAs (Decidable (_ = _))

def Act.isSendTerminal : Act → Bool
  | .sendTerminal _ => true
  | _ => false

def Act.queuesTo? : Act → Option ℕ
  | .send id _ => some id
  | _ => none

/-- While a terminal is connected, an event is not dropped, and not queued to a connection
that has ended. -/
def Delivers (w : World) (a : Act) : Prop :=
  w.alive ≠ [] → (a.isSendTerminal = true → w.shared.termTx.isSome = true)
    ∧ ∀ id ∈ a.queuesTo?, id ∈ w.alive

instance (w : World) (a : Act) : Decidable (Delivers w a) := inferInstanceAs (Decidable (_ → _))

/-- A connection closes as the only one, and fails only when there is a newer one; an event
is queued before the connection it was meant for ends. -/
def InTurn (w : World) : Act → Prop
  | .close id => ∀ id' ∈ w.alive, id' = id
  | .fail id => w.alive.getLast? ≠ some id
  | .send id _ => w.alive ≠ [] → id ∈ w.alive
  | _ => True

section Run

variable (ark : ArkGroth16) (merchant : String) (toLowercase : String → String)

def stepped (s : State World Role Act) (l : Label Call Reply) : Option (State World Role Act) :=
  some ((program ark merchant toLowercase).step s l)

/-- The link holds in the state a step leads to, and the step delivers what it is given. -/
def LinkSurvives (s : State World Role Act) (l : Label Call Reply) : Prop :=
  Linked ((program ark merchant toLowercase).step s l).world
    ∧ ∀ next ∈ s.next? l, Delivers s.world next.1

instance (s : State World Role Act) (l : Label Call Reply) :
    Decidable (LinkSurvives ark merchant toLowercase s l) := inferInstanceAs (Decidable (_ ∧ _))

def StepInTurn (s : State World Role Act) (l : Label Call Reply) : Prop :=
  ∀ next ∈ s.next? l, InTurn s.world next.1

/-! ### What steps do to the link -/

theorem Linked.of_same {w w' : World} (h : Linked w)
    (hw : w'.shared.termTx = w.shared.termTx ∧ w'.alive = w.alive) : Linked w' := by
  rw [Linked, hw.1, hw.2]
  exact h

theorem link_read (id : ℕ) (w : World) :
    (read id w).world.shared.termTx = w.shared.termTx ∧ (read id w).world.alive = w.alive := by
  unfold read
  split <;> exact ⟨rfl, rfl⟩

theorem link_faceOk (w : World) :
    (faceOk w).world.shared.termTx = w.shared.termTx ∧ (faceOk w).world.alive = w.alive := by
  unfold faceOk
  split <;> exact ⟨rfl, rfl⟩

theorem link_readCard (x : Reply) (w : World) :
    (readCard ark toLowercase x w).world.shared.termTx = w.shared.termTx
      ∧ (readCard ark toLowercase x w).world.alive = w.alive := by
  unfold readCard
  split
  · exact ⟨rfl, rfl⟩
  · split <;> exact ⟨rfl, rfl⟩
  · split
    · exact ⟨rfl, rfl⟩
    · split <;> exact ⟨rfl, rfl⟩

theorem getLast?_filter_ne {l : List ℕ} {id : ℕ} (h : l.getLast? ≠ some id) :
    (l.filter (· ≠ id)).getLast? = l.getLast? := by
  rcases List.eq_nil_or_concat l with rfl | ⟨front, last, rfl⟩
  · rfl
  · have hlast : last ≠ id := fun heq => h (by simp [heq])
    simp [List.filter_append, hlast]

theorem linked_close_iff (w : World) (id : ℕ) (x : Reply) :
    Linked (exec ark merchant toLowercase (.close id) x w).world ↔ ∀ id' ∈ w.alive, id' = id := by
  show none = (w.alive.filter (· ≠ id)).getLast? ↔ _
  rw [eq_comm, List.getLast?_eq_none_iff, List.filter_eq_nil_iff]
  simp

/-- A failed connection's sender stays where it is, so it must not be the newest. -/
theorem linked_fail_iff {w : World} (h : Linked w) (id : ℕ) (x : Reply) :
    Linked (exec ark merchant toLowercase (.fail id) x w).world ↔ w.alive.getLast? ≠ some id := by
  show w.shared.termTx = (w.alive.filter (· ≠ id)).getLast? ↔ _
  rw [show w.shared.termTx = w.alive.getLast? from h]
  constructor
  · intro hlast heq
    rw [heq] at hlast
    have hmem := List.mem_of_getLast? hlast.symm
    simp at hmem
  · intro hne
    exact (getLast?_filter_ne hne).symm

theorem Linked.delivers_sendTerminal {w : World} (h : Linked w) (e : HostEvent) :
    Delivers w (.sendTerminal e) := by
  intro halive
  refine ⟨fun _ => ?_, fun id hid => by cases hid⟩
  rw [show w.shared.termTx = w.alive.getLast? from h, Option.isSome_iff_ne_none, ne_eq,
    List.getLast?_eq_none_iff]
  exact halive

/-- **Exactly a connection that ends in turn** keeps the link. -/
theorem linked_exec_iff {w : World} (h : Linked w) (a : Act) (x : Reply) :
    Linked (exec ark merchant toLowercase a x w).world ∧ Delivers w a ↔ InTurn w a := by
  have hother : (∀ id, a.queuesTo? ≠ some id) → a.isSendTerminal = false → Delivers w a :=
    fun hq hs _ => ⟨(fun h => by rw [hs] at h; cases h), fun id hid => absurd hid (hq id)⟩
  cases a with
  | connect =>
    have hlinked : Linked (exec ark merchant toLowercase .connect x w).world := by
      simp [Linked, exec, connect]
    exact iff_of_true ⟨hlinked, hother (by simp [Act.queuesTo?]) rfl⟩ trivial
  | close id =>
    rw [linked_close_iff]
    exact and_iff_left (hother (by simp [Act.queuesTo?]) rfl)
  | fail id =>
    rw [linked_fail_iff ark merchant toLowercase h]
    exact and_iff_left (hother (by simp [Act.queuesTo?]) rfl)
  | send id e =>
    refine ⟨fun hsend halive => (hsend.2 halive).2 id rfl, fun hsend => ⟨h, fun halive => ?_⟩⟩
    exact ⟨(fun h => nomatch h), fun id' hid' => by cases hid'; exact hsend halive⟩
  | sendTerminal e => exact iff_of_true ⟨h, h.delivers_sendTerminal e⟩ trivial
  | read id =>
    exact iff_of_true ⟨h.of_same (link_read id w), hother (by simp [Act.queuesTo?]) rfl⟩ trivial
  | faceOk d =>
    exact iff_of_true ⟨h.of_same (link_faceOk w), hother (by simp [Act.queuesTo?]) rfl⟩ trivial
  | readCard =>
    exact iff_of_true ⟨h.of_same (link_readCard ark toLowercase x w),
      hother (by simp [Act.queuesTo?]) rfl⟩ trivial
  | setMode mist | deliver id | runPayment job | pay idi amount att balance | lookupCard idi att
  | publishCard idi att | testcard idi | removeCard | process id | faceResult id ok mode | leave id
  | report id r => exact iff_of_true ⟨h, hother (by simp [Act.queuesTo?]) rfl⟩ trivial

theorem linkSurvives_iff {s : State World Role Act} (h : Linked s.world) (l : Label Call Reply) :
    LinkSurvives ark merchant toLowercase s l ↔ StepInTurn s l := by
  rw [LinkSurvives, StepInTurn, Program.step_world]
  cases hnext : s.next? l with
  | none => simpa using h
  | some next =>
    obtain ⟨a, x, others⟩ := next
    simp only [Option.mem_def, Option.some.injEq, forall_eq']
    exact linked_exec_iff ark merchant toLowercase h a x

/-- **The link survives reconnects**, at every step of a run, exactly if connections end in
turn. -/
theorem link_survives_iff (ls : List (Label Call Reply)) :
    Runs.Along (stepped ark merchant toLowercase) (LinkSurvives ark merchant toLowercase) initial ls
      ↔ Runs.Along (stepped ark merchant toLowercase) StepInTurn initial ls := by
  refine Runs.along_congr (I := fun s => Linked s.world) ?_
    (fun h l => linkSurvives_iff ark merchant toLowercase h l) ?_ ls
  · intro s l _ hs hlink _
    cases hs
    exact hlink.1
  · rfl

end Run

/-! ### A link that is lost -/

def silent : Reply := ⟨.noCard, none, false, none, none, none⟩

def reconnected : List (Label Call Reply) :=
  [.call 0 .accept, .run 0 silent, .run 3 silent, .call 0 .accept, .run 0 silent,
    .call 3 .close, .run 3 silent, .call 1 (.pay 5), .run 1 silent, .run 1 silent]

/-- The terminal's only connection fails. -/
def failed : List (Label Call Reply) :=
  [.call 0 .accept, .run 0 silent, .run 3 silent, .call 3 .fail, .run 3 silent]

/-- **A link that is lost**: no sender with a terminal connected, so that its mode is not
sent, and a sender without one. -/
theorem link_lost :
    ((program Sui.Fixture.ark "m" id).run initial reconnected).world.alive = [1]
      ∧ ((program Sui.Fixture.ark "m" id).run initial reconnected).world.shared.termTx = none
      ∧ ((program Sui.Fixture.ark "m" id).run initial failed).world.alive = []
      ∧ ((program Sui.Fixture.ark "m" id).run initial failed).world.shared.termTx = some 0
      ∧ ¬ Runs.Along (stepped Sui.Fixture.ark "m" id) (LinkSurvives Sui.Fixture.ark "m" id) initial
        reconnected
      ∧ ¬ Runs.Along (stepped Sui.Fixture.ark "m" id) (LinkSurvives Sui.Fixture.ark "m" id) initial
        failed := by
  decide +kernel

end SuiCash.Facepay.Host
