import SuiCash.Facepay.Daemon
import SuiCash.Sui.Agreement

/-!
# Announcing the payment mode

`set_pay_mode` writes the mode under the lock, then queues it to one client after the
other.  Two calls that overlap may write in one order and queue in the other, and then
the clients are left with a mode that is no longer the host's
(`mode_overtaken`).

`NotOvertaken` is what it takes: a mode is queued to a connected client only while it is
the host's, or while another call has yet to queue the host's.  `Converging` is what it
keeps: a client has been told the host's mode last, or someone is about to tell it.  When
no call is under way nobody is about to, and the modes agree (`modes_converge`).
-/

namespace SuiCash.Facepay

open Threads
open Prover (ArkGroth16)

/-! ### What clients have been told -/

namespace Conn

/-- The terminal shows the mode it has processed last. -/
def ShowsMode (c : Conn) : Prop := c.app.payMode = (lastMode c.seen).getD none

@[simp] theorem announced_push (c : Conn) (e : HostEvent) :
    (c.push e).announced = c.announced ++ [e] := by
  simp [push, announced]

@[simp] theorem announced_deliver (c : Conn) : c.deliver.announced = c.announced := by
  unfold deliver
  split
  · rfl
  · rename_i hout
    simp [announced, hout]

@[simp] theorem announced_process (c : Conn) : c.process.announced = c.announced := by
  unfold process
  split
  · rfl
  · rename_i hwire
    simp [announced, hwire]

theorem ShowsMode.push {c : Conn} (h : c.ShowsMode) (e : HostEvent) : (c.push e).ShowsMode := h

theorem ShowsMode.deliver {c : Conn} (h : c.ShowsMode) : c.deliver.ShowsMode := by
  unfold Conn.deliver
  split <;> exact h

theorem ShowsMode.process {c : Conn} (h : c.ShowsMode) : c.process.ShowsMode := by
  unfold Conn.process
  split
  · exact h
  · rename_i e wire hwire
    show (c.app.onEvent e).payMode = (lastMode (c.seen ++ [e])).getD none
    rw [App.payMode_onEvent, lastMode_concat, h]
    cases e.mode? <;> rfl

end Conn

def World.told (w : World) (id : ℕ) : Option (Option UInt64) := lastMode (w.conns id).announced

theorem told_push (w : World) (id : ℕ) (e : HostEvent) :
    (w.mapConn id fun c => c.push e).told id = e.mode?.or (w.told id) := by
  simp only [World.told, World.mapConn, Function.update_self, Conn.announced_push, lastMode_concat]

theorem told_mapConn_of_ne (w : World) {id id' : ℕ} (f : Conn → Conn) (h : id' ≠ id) :
    (w.mapConn id f).told id' = w.told id' := by
  simp only [World.told, World.mapConn, Function.update_of_ne h]

theorem told_mapConn (w : World) (id : ℕ) {f : Conn → Conn}
    (h : (f (w.conns id)).announced = (w.conns id).announced) (id' : ℕ) :
    (w.mapConn id f).told id' = w.told id' := by
  by_cases hid : id' = id
  · subst hid
    simp only [World.told, World.mapConn, Function.update_self, h]
  · exact told_mapConn_of_ne w f hid

theorem lastMode_greeting {s : Shared}
    (h : ∀ e ∈ s.lastCard.toList ++ s.lastPayment.toList, e.mode? = none) :
    lastMode (greeting s) = some s.payMode := by
  have hrest : (s.lastCard.toList ++ s.lastPayment.toList).filterMap HostEvent.mode? = [] :=
    List.filterMap_eq_nil_iff.mpr h
  rw [lastMode, greeting, List.append_assoc, List.filterMap_append, hrest]
  rfl

/-! ### What every run keeps -/

/-- The event an action is about to store for clients to come. -/
def stored? : Act → Option HostEvent
  | .publishCard _ _ e => some e
  | .storePayment e => some e
  | _ => none

def StoresNoMode (a : Act) : Prop := ∀ e ∈ stored? a, e.mode? = none

/-- What holds of the daemon and its clients whatever the schedule. -/
structure Tidy (w : World) : Prop where
  /-- The number of the next client is a new one. -/
  fresh : ∀ id ∈ w.shared.clients, id < w.shared.nextClientId
  stored : ∀ e ∈ w.shared.lastCard.toList ++ w.shared.lastPayment.toList, e.mode? = none
  shows : ∀ id, (w.conns id).ShowsMode

theorem tidy_initial : Tidy World.initial where
  fresh id h := by cases h
  stored e h := by cases h
  shows id := rfl

theorem Tidy.mapConn {w : World} (h : Tidy w) (id : ℕ) {f : Conn → Conn}
    (hf : (f (w.conns id)).ShowsMode) : Tidy (w.mapConn id f) where
  fresh := h.fresh
  stored := h.stored
  shows id' := by
    by_cases hid : id' = id
    · subst hid
      simpa only [World.mapConn, Function.update_self] using hf
    · simpa only [World.mapConn, Function.update_of_ne hid] using h.shows id'

theorem Tidy.connect {w : World} (h : Tidy w) : Tidy (connect w).world where
  fresh id hid := by
    rcases List.mem_append.mp hid with hid | hid
    · exact Nat.lt_succ_of_lt (h.fresh id hid)
    · rw [List.mem_singleton.mp hid]
      exact Nat.lt_succ_self _
  stored := h.stored
  shows id := by
    by_cases hid : id = w.shared.nextClientId
    · subst hid
      simp only [Facepay.connect, Function.update_self]
      rfl
    · simpa only [Facepay.connect, Function.update_of_ne hid] using h.shows id

theorem storesNoMode_of_isPlain {a : Act} (h : a.isPlain = true) : StoresNoMode a := by
  have hstored : stored? a = none := by cases a <;> first | rfl | cases h
  intro e he
  rw [hstored] at he
  cases he

theorem StoresNoMode.of_leads {w : World} {a b : Act} (h : Leads w a b) : StoresNoMode b := by
  cases h with
  | plain hb => exact storesNoMode_of_isPlain hb
  | result hb =>
    intro e he
    cases he
    exact HostEvent.mode?_of_isPayment hb
  | card =>
    intro e he
    cases he
    rfl
  | report | job | pay | attested => intro e he; cases he

section Run

variable (ark : ArkGroth16) (merchant : String) (toLowercase : String → String)

theorem Tidy.exec {w : World} (h : Tidy w) {a : Act} (ha : StoresNoMode a) (x : Reply) :
    Tidy (exec ark merchant toLowercase a x w).world := by
  cases a with
  | connect => exact h.connect
  | send id e => exact h.mapConn (f := fun c => c.push e) id ((h.shows id).push e)
  | deliver id => exact h.mapConn id (h.shows id).deliver
  | process id => exact h.mapConn id (h.shows id).process
  | faceResult id ok mode =>
    have hshow : ({ w.conns id with app := ((w.conns id).app.onFaceResult ok mode).1 } : Conn).ShowsMode := by
      have := h.shows id
      simpa [Conn.ShowsMode] using this
    have hw := h.mapConn (f := fun c => { c with app := ((w.conns id).app.onFaceResult ok mode).1 }) id hshow
    exact ⟨hw.fresh, hw.stored, hw.shows⟩
  | leave id => exact h.mapConn (f := fun c => { c with app := c.app.goWaiting }) id (h.shows id)
  | unregister id =>
    exact ⟨fun id' hid => h.fresh id' (List.mem_of_mem_filter hid), h.stored, h.shows⟩
  | publishCard idi att e =>
    refine ⟨h.fresh, fun e' he' => ?_, h.shows⟩
    rcases List.mem_append.mp he' with he' | he'
    · obtain rfl := List.mem_singleton.mp he'
      exact ha e' rfl
    · exact h.stored e' (List.mem_append_right _ he')
  | storePayment e =>
    refine ⟨h.fresh, fun e' he' => ?_, h.shows⟩
    rcases List.mem_append.mp he' with he' | he'
    · exact h.stored e' (List.mem_append_left _ he')
    · obtain rfl := List.mem_singleton.mp he'
      exact ha e' rfl
  | removeCard =>
    exact ⟨h.fresh, fun e' he' => h.stored e' (List.mem_append_right _ he'), h.shows⟩
  | read id =>
    simp only [Facepay.exec, read]
    split <;> exact ⟨h.fresh, h.stored, h.shows⟩
  | faceOk d =>
    simp only [Facepay.exec, faceOk]
    split <;> exact ⟨h.fresh, h.stored, h.shows⟩
  | attest idm =>
    simp only [Facepay.exec]
    split <;> exact ⟨h.fresh, h.stored, h.shows⟩
  | setMode mist | sendTerminal e | broadcastStatus | runPayment job | pay idi amount att balance
  | lookupCard idi att | report id r => exact ⟨h.fresh, h.stored, h.shows⟩

/-! ### Telling every client -/

/-- An action that will tell a client a mode. -/
def Announces (mode : Option UInt64) (id : ℕ) (a : Act) : Prop :=
  a = .sendTerminal (.mode mode) ∨ a = .send id (.mode mode)

/-- The client an action tells a mode, and the mode. -/
def modeSent? : Act → Option (ℕ × Option UInt64)
  | .send id (.mode mode) => some (id, mode)
  | _ => none

/-- A connected client is told the mode of the host, or another call is still to tell
it that one. -/
def NotOvertaken (w : World) (a : Act) (others : List Act) : Prop :=
  ∀ sent ∈ modeSent? a, sent.1 ∈ w.shared.clients →
    sent.2 = w.shared.payMode ∨ ∃ b ∈ others, Announces w.shared.payMode sent.1 b

instance (mode : Option UInt64) (id : ℕ) (a : Act) : Decidable (Announces mode id a) :=
  inferInstanceAs (Decidable (_ ∨ _))

instance (w : World) (a : Act) (others : List Act) : Decidable (NotOvertaken w a others) :=
  inferInstanceAs (Decidable (∀ sent ∈ modeSent? a, _))

/-- Every client has been told the mode last, or someone is about to tell it. -/
def Converging (w : World) (p : List Act) : Prop :=
  ∀ id ∈ w.shared.clients,
    w.told id = some w.shared.payMode ∨ ∃ a ∈ p, Announces w.shared.payMode id a

/-- Someone about to tell a client is the next action or one of the others. -/
theorem Converging.cases {w : World} {a : Act} {p : List Act} (h : Converging w (a :: p)) {id : ℕ}
    (hid : id ∈ w.shared.clients) :
    w.told id = some w.shared.payMode ∨ Announces w.shared.payMode id a
      ∨ ∃ b ∈ p, Announces w.shared.payMode id b := by
  simpa only [List.exists_mem_cons_iff] using h id hid

theorem Announces.append {mode : Option UInt64} {id : ℕ} {p : List Act}
    (h : ∃ b ∈ p, Announces mode id b) (work : List Act) : ∃ b ∈ work ++ p, Announces mode id b :=
  h.imp fun _ hb => ⟨List.mem_append_right _ hb.1, hb.2⟩

/-- Mode, clients and what they have been told are as they were; clients may have left. -/
structure SameModes (w w' : World) : Prop where
  clients : ∀ id ∈ w'.shared.clients, id ∈ w.shared.clients
  payMode : w'.shared.payMode = w.shared.payMode
  told : ∀ id, w'.told id = w.told id

theorem SameModes.mapConn (w : World) (id : ℕ) {f : Conn → Conn}
    (h : (f (w.conns id)).announced = (w.conns id).announced) : SameModes w (w.mapConn id f) :=
  ⟨fun _ hid => hid, rfl, told_mapConn w id h⟩

theorem Converging.frame {w w' : World} {a : Act} {p work : List Act} (h : Converging w (a :: p))
    (ha : ∀ mode id, ¬ Announces mode id a) (hw : SameModes w w') : Converging w' (work ++ p) := by
  intro id hid
  rw [hw.payMode, hw.told]
  rcases h.cases (hw.clients id hid) with htold | hnext | hothers
  · exact .inl htold
  · exact absurd hnext (ha _ _)
  · exact .inr (Announces.append hothers work)

/-- A call that has written the mode is about to tell everyone. -/
theorem converging_setMode (w : World) (p : List Act) :
    Converging w (.sendTerminal (.mode w.shared.payMode) :: p) :=
  fun _ _ => .inr ⟨_, List.mem_cons_self, .inl rfl⟩

/-- Whoever is told something, all clients are. -/
theorem Converging.sendTerminal {w : World} {e : HostEvent} {p : List Act}
    (h : Converging w (.sendTerminal e :: p)) :
    Converging w ((w.shared.clients.map fun id => Act.send id e) ++ p) := by
  intro id hid
  rcases h.cases hid with htold | hnext | hothers
  · exact .inl htold
  · refine .inr ⟨.send id e, List.mem_append_left _ (List.mem_map_of_mem hid), .inr ?_⟩
    rcases hnext with heq | heq
    · rw [Act.sendTerminal.inj heq]
    · cases heq
  · exact .inr (Announces.append hothers _)

/-- **A client is told something** that does not overtake the mode. -/
theorem Converging.send {w : World} {id : ℕ} {e : HostEvent} {p : List Act}
    (h : Converging w (.send id e :: p)) (hC : NotOvertaken w (.send id e) p) :
    Converging (w.mapConn id fun c => c.push e) p := by
  intro id' hid'
  show _ = some w.shared.payMode ∨ _
  by_cases hid : id' = id
  · subst hid
    rw [told_push]
    cases e with
    | mode mode =>
      -- What the client has been told last is this mode: the host's, or to be followed by it.
      refine (hC (id', mode) rfl hid').imp_left fun (hmode : mode = w.shared.payMode) => ?_
      rw [hmode]
      rfl
    | detecting | card | cardRemoved | paymentResult | status =>
      rcases h.cases hid' with htold | (heq | heq) | hothers
      · exact .inl htold
      · cases heq
      · cases heq
      · exact .inr hothers
  · rw [told_mapConn_of_ne w _ hid]
    rcases h.cases hid' with htold | (heq | heq) | hothers
    · exact .inl htold
    · cases heq
    · exact absurd (Act.send.inj heq).1.symm hid
    · exact .inr hothers

theorem Converging.connect {w : World} {p : List Act} (h : Converging w (.connect :: p))
    (hw : Tidy w) : Converging (connect w).world ((connect w).work ++ p) := by
  intro id hid
  show _ = some w.shared.payMode ∨ _
  by_cases hnew : id = w.shared.nextClientId
  · subst hnew
    have hgreeting : ((Facepay.connect w).world.conns w.shared.nextClientId).announced
        = greeting (Facepay.connect w).world.shared := by
      simp [Facepay.connect, Conn.announced]
    rw [World.told, hgreeting]
    exact .inl (lastMode_greeting hw.stored)
  · have hold : id ∈ w.shared.clients :=
      (List.mem_append.mp hid).resolve_right fun hlast => hnew (List.mem_singleton.mp hlast)
    have htold : (Facepay.connect w).world.told id = w.told id := by
      simp only [World.told, Facepay.connect, Function.update_of_ne hnew]
    rw [htold]
    rcases h.cases hold with htold | (heq | heq) | hothers
    · exact .inl htold
    · cases heq
    · cases heq
    · exact .inr (Announces.append hothers _)

/-- **One action**: unless it overtakes the mode, the clients keep converging. -/
theorem Converging.exec {w : World} {a : Act} {p : List Act} (h : Converging w (a :: p))
    (hw : Tidy w) (hC : NotOvertaken w a p) (x : Reply) :
    Converging (exec ark merchant toLowercase a x w).world
      ((exec ark merchant toLowercase a x w).work ++ p) := by
  have hsame : SameModes w w := ⟨fun _ hid => hid, rfl, fun _ => rfl⟩
  cases a with
  | setMode mist =>
    exact converging_setMode (w.mapShared fun s => { s with payMode := mist }) (.broadcastStatus :: p)
  | sendTerminal e => simpa [Facepay.exec, leaves, Outcome.work] using h.sendTerminal
  | send id e => exact h.send hC
  | connect => exact h.connect hw
  | unregister id =>
    refine h.frame (by simp [Announces]) ⟨fun _ hid => ?_, rfl, fun _ => rfl⟩
    exact List.mem_of_mem_filter hid
  | deliver id => exact h.frame (by simp [Announces]) (.mapConn w id (Conn.announced_deliver _))
  | process id => exact h.frame (by simp [Announces]) (.mapConn w id (Conn.announced_process _))
  | faceResult id ok mode =>
    have hfun := SameModes.mapConn w id
      (f := fun c => { c with app := ((w.conns id).app.onFaceResult ok mode).1 }) rfl
    exact h.frame (by simp [Announces]) ⟨hfun.clients, rfl, hfun.told⟩
  | leave id =>
    exact h.frame (by simp [Announces]) (.mapConn w id (f := fun c => { c with app := c.app.goWaiting }) rfl)
  | read id =>
    have hread : SameModes w (read id w).world := by
      unfold read
      split <;> exact ⟨fun _ hid => hid, rfl, fun _ => rfl⟩
    exact h.frame (by simp [Announces]) hread
  | faceOk d =>
    have hface : SameModes w (faceOk d w).world := by
      unfold faceOk
      split <;> exact ⟨fun _ hid => hid, rfl, fun _ => rfl⟩
    exact h.frame (by simp [Announces]) hface
  | attest idm =>
    have hattest : SameModes w (Facepay.exec ark merchant toLowercase (.attest idm) x w).world := by
      simp only [Facepay.exec]
      split <;> exact ⟨fun _ hid => hid, rfl, fun _ => rfl⟩
    exact h.frame (by simp [Announces]) hattest
  | broadcastStatus | runPayment job | pay idi amount att balance | storePayment e | lookupCard idi att
  | publishCard idi att e | removeCard | report id r =>
    exact h.frame (by simp [Announces]) ⟨fun _ hid => hid, rfl, fun _ => rfl⟩

/-- Tidiness and convergence, of the world and of the work that is left. -/
def ModesInvariant (w : World) (p : List Act) : Prop :=
  Tidy w ∧ (∀ a ∈ p, StoresNoMode a) ∧ Converging w p

theorem modesInvariant : (program ark merchant toLowercase).Invariant NotOvertaken ModesInvariant where
  perm hpq := fun ⟨htidy, hstores, hconv⟩ =>
    ⟨htidy, fun a ha => hstores a (hpq.mem_iff.mpr ha), fun id hid =>
      (hconv id hid).imp_right fun ⟨a, ha, hannounce⟩ => ⟨a, hpq.mem_iff.mp ha, hannounce⟩⟩
  call hcall := fun ⟨htidy, hstores, hconv⟩ =>
    ⟨htidy, List.forall_mem_append.mpr
      ⟨fun a ha => storesNoMode_of_isPlain (isPlain_of_call hcall a ha), hstores⟩,
      fun id hid => (hconv id hid).imp_right fun hp => Announces.append hp _⟩
  exec {a x w p} hC := fun ⟨htidy, hstores, hconv⟩ => by
    obtain ⟨ha, hp⟩ := List.forall_mem_cons.mp hstores
    refine ⟨htidy.exec ark merchant toLowercase ha x, List.forall_mem_append.mpr ⟨fun b hb => ?_, hp⟩,
      hconv.exec ark merchant toLowercase htidy hC x⟩
    exact .of_leads (leads_exec ark merchant toLowercase a x w b hb)

/-- No `set_pay_mode` call is under way: none is to write, and none to queue. -/
def ModesSettled (p : List Act) : Prop :=
  ∀ a ∈ p, (∀ mode, a ≠ .setMode mode) ∧ ∀ mode id, ¬ Announces mode id a

/-- **The modes agree** when no call is under way, in a run where none overtook another:
what each connected client was told last is the mode of the host, and a terminal that has
processed all it was sent shows it. -/
theorem modes_converge (ls : List (Label Call Reply))
    (h : (program ark merchant toLowercase).Along NotOvertaken initial ls)
    (hs : ModesSettled ((program ark merchant toLowercase).run initial ls).pending) :
    let w := ((program ark merchant toLowercase).run initial ls).world
    ∀ id ∈ w.shared.clients, lastMode (w.conns id).announced = some w.shared.payMode
      ∧ ((w.conns id).wire = [] → (w.conns id).out = [] →
        (w.conns id).app.payMode = w.shared.payMode) := by
  intro w id hid
  have hinitial : ModesInvariant World.initial initial.pending :=
    ⟨tidy_initial, (fun a ha => nomatch ha), fun id hid => nomatch hid⟩
  obtain ⟨htidy, -, hconv⟩ := (modesInvariant ark merchant toLowercase).along h hinitial
  have htold : w.told id = some w.shared.payMode := by
    rcases hconv id hid with htold | ⟨a, ha, hannounce⟩
    · exact htold
    · exact absurd hannounce ((hs a ha).2 _ _)
  refine ⟨htold, fun hwire hout => ?_⟩
  have hseen : (w.conns id).announced = (w.conns id).seen := by simp [Conn.announced, hwire, hout]
  rw [htidy.shows id, ← hseen]
  exact congrArg (fun mode => mode.getD none) htold

end Run

/-! ### Two calls at once -/

def silent : Reply := ⟨none, none, false, none, none, none⟩

def runs (i n : ℕ) : List (Label Call Reply) := List.replicate n (.run i silent)

/-- Thread `i` takes on a call of one action and does it, `n` times over. -/
def calls (i : ℕ) (k : Call) (n : ℕ) : List (Label Call Reply) :=
  (List.replicate n [.call i k, .run i silent]).flatten

def firstClient : List (Label Call Reply) := .call 0 .accept :: runs 0 1 ++ runs 3 5

/-- The client asks for balance inquiry while the CLI arms a payment.  The CLI writes
last and queues last. -/
def inOrder : List (Label Call Reply) :=
  firstClient ++ calls 4 (.report (.op .idle)) 1 ++ calls 3 .read 1
    ++ runs 3 1 ++ .call 1 (.pay 5) :: runs 1 1 ++ runs 3 5 ++ runs 1 5
    ++ calls 3 .deliver 5 ++ calls 4 .process 7

theorem modes_converge_inOrder :
    let w := ((program Sui.Fixture.ark "m" id).run initial inOrder).world
    lastMode (w.conns 0).announced = some (some 5) ∧ (w.conns 0).app.payMode = some 5 := by
  have hsettled : ((program Sui.Fixture.ark "m" id).run initial inOrder).pending = [] := by
    decide +kernel
  have hclient : 0 ∈ ((program Sui.Fixture.ark "m" id).run initial inOrder).world.shared.clients := by
    decide +kernel
  have hmode : ((program Sui.Fixture.ark "m" id).run initial inOrder).world.shared.payMode = some 5 := by
    decide +kernel
  obtain ⟨htold, hshown⟩ := modes_converge Sui.Fixture.ark "m" id inOrder (by decide +kernel)
    (fun a ha => by rw [hsettled] at ha; cases ha) 0 hclient
  rw [hmode] at htold hshown
  exact ⟨htold, hshown (by decide +kernel) (by decide +kernel)⟩

/-- The same two calls.  The CLI writes last, and the client's handler queues last. -/
def overtaken : List (Label Call Reply) :=
  firstClient ++ calls 4 (.report (.op .idle)) 1 ++ calls 3 .read 1
    ++ runs 3 1 ++ .call 1 (.pay 5) :: runs 1 3 ++ runs 3 5 ++ runs 1 3
    ++ calls 3 .deliver 5 ++ calls 4 .process 7

/-- **A mode overtaken**: both calls have returned, the host is armed for a payment, and
the terminal shows balance inquiry. -/
theorem mode_overtaken :
    let s := (program Sui.Fixture.ark "m" id).run initial overtaken
    s.pending = [] ∧ s.world.shared.payMode = some 5 ∧ (s.world.conns 0).app.payMode = none
      ∧ ¬ ∀ id ∈ s.world.shared.clients,
        lastMode (s.world.conns id).announced = some s.world.shared.payMode := by
  decide +kernel

end SuiCash.Facepay
