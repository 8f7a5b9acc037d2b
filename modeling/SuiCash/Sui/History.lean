import SuiCash.Sui.Gate

/-!
# Histories of a gate

What becomes of a shared gate under any sequence of calls.  A `World` is a gate,
the events emitted so far and the calls that succeeded; a call that aborts leaves
all three as they were, because Move reverts it.

`Call.exec_effect` says once what a successful call can have done, and the run
theorems are read off it.

* `run_singleSpend`: the spent challenges are exactly those of the successful
  presentations, each once, and none is ever forgotten.
* `disallow_effective_iff`: a removal holds until the IDi is allowed again exactly
  when the IDi was listed once.
* `run_neverReopens`: a gate that lists somebody is closed, a closed gate stays
  closed, and a removal admits nobody, also when it empties the list.
-/

namespace SuiCash.Sui

open Move Bytes

def Address : Type := Vector UInt8 32
  deriving DecidableEq

structure AttestationVerified where
  idi : List UInt8
  r1 : List UInt8
  attestedAt : UInt64
  sender : Address
  deriving DecidableEq

variable {sui : SuiGroth16}

/-- `suicash_gate::verify`: build the attestation, present it with the clock of the
chain, and emit the receipt. -/
def SuicashGate.verify (gate : Gate sui) (idi : List UInt8) (attestedAt : UInt64)
    (proof publicInputs presentedR1 : List UInt8) (timestampMs : UInt64) (sender : Address) :
    Exec ModuleName (Pairing sui) (Gate sui × AttestationVerified) := do
  let att ← Attestation.new SUPPORTED_ALG idi attestedAt proof publicInputs
  let claimed ← gate.verifyAndClaim att presentedR1 (timestampMs / 1000)
  pure (claimed.2, ⟨claimed.1, presentedR1, attestedAt, sender⟩)

/-- The calls that can reach a shared gate. -/
inductive Call where
  | verifyAndClaim (att : Attestation) (presentedR1 : List UInt8) (nowSeconds : UInt64)
  | verify (idi : List UInt8) (attestedAt : UInt64) (proof publicInputs presentedR1 : List UInt8)
      (timestampMs : UInt64) (sender : Address)
  | allow (idi : List UInt8)
  | disallow (idi : List UInt8)
  | setMaxClockDriftSeconds (seconds : UInt64)
  deriving DecidableEq

namespace Call

def exec (gate : Gate sui) :
    Call → Exec ModuleName (Pairing sui) (Gate sui × List AttestationVerified)
  | .verifyAndClaim att presentedR1 nowSeconds => do
    let claimed ← gate.verifyAndClaim att presentedR1 nowSeconds
    pure (claimed.2, [])
  | .verify idi attestedAt proof publicInputs presentedR1 timestampMs sender => do
    let verified ← SuicashGate.verify gate idi attestedAt proof publicInputs presentedR1
      timestampMs sender
    pure (verified.1, [verified.2])
  | .allow idi => do
    let gate ← gate.allow idi
    pure (gate, [])
  | .disallow idi => do
    let gate ← gate.disallow idi
    pure (gate, [])
  | .setMaxClockDriftSeconds seconds => pure (gate.setMaxClockDriftSeconds seconds, [])

def presentedR1 : Call → Option (List UInt8)
  | .verifyAndClaim _ r1 _ | .verify _ _ _ _ r1 _ _ => some r1
  | .allow _ | .disallow _ | .setMaxClockDriftSeconds _ => none

end Call

/-- A gate, the events it emitted, and the calls that succeeded. -/
structure World (sui : SuiGroth16) where
  gate : Gate sui
  events : List AttestationVerified
  succeeded : List Call

namespace World

def ofGate (gate : Gate sui) : World sui := ⟨gate, [], []⟩

/-- One call.  An aborting call reverts all its effects. -/
def step (w : World sui) (call : Call) : World sui :=
  match (call.exec w.gate).result with
  | .ok (gate, events) => ⟨gate, w.events ++ events, w.succeeded ++ [call]⟩
  | .error _ => w

def run (w : World sui) (calls : List Call) : World sui := calls.foldl step w

/-- The challenges of the presentations that succeeded. -/
def burned (w : World sui) : List (List UInt8) := w.succeeded.filterMap Call.presentedR1

theorem step_of_ok {w : World sui} {call : Call} {gate : Gate sui}
    {events : List AttestationVerified} (h : (call.exec w.gate).result = .ok (gate, events)) :
    w.step call = ⟨gate, w.events ++ events, w.succeeded ++ [call]⟩ := by
  rw [step, h]

theorem step_of_error {w : World sui} {call : Call} {e : Fault ModuleName}
    (h : (call.exec w.gate).result = .error e) : w.step call = w := by
  rw [step, h]

theorem run_invariant {I : World sui → Prop} {w : World sui} (h : I w) (calls : List Call)
    (hstep : ∀ w, I w → ∀ call ∈ calls, ∀ gate events,
      (call.exec w.gate).result = .ok (gate, events) → I (w.step call)) : I (w.run calls) := by
  induction calls generalizing w with
  | nil => exact h
  | cons call calls ih =>
    have hnext : I (w.step call) := by
      cases hres : (call.exec w.gate).result with
      | error e => rw [step_of_error hres]; exact h
      | ok ret => exact hstep w h call List.mem_cons_self ret.1 ret.2 hres
    exact ih hnext fun w hw c hc => hstep w hw c (List.mem_cons_of_mem call hc)

end World

/-! ### What a call can do -/

theorem Call.exec_disallow {gate gate' : Gate sui} {idi : List UInt8}
    (h : (gate.disallow idi).result = .ok gate') :
    (Call.exec gate (.disallow idi)).result = .ok (gate', []) :=
  Exec.result_bind_eq_ok.mpr ⟨gate', h, rfl⟩

/-- The effects of a successful call: a challenge is spent by an acceptable
presentation, an IDi is listed or taken out once, or the bound moves. -/
inductive Effect (gate : Gate sui) : Call → Gate sui → List AttestationVerified → Prop where
  | present {call : Call} {att : Attestation} {r1 : List UInt8} {nowSeconds : UInt64}
      {seen : Table (List UInt8) Bool} {events : List AttestationVerified}
      (presented : call.presentedR1 = some r1)
      (presentable : gate.Presentable att r1 nowSeconds)
      (seen_eq : seen.keys = gate.seen.keys ++ [r1])
      (events_eq : events.map AttestationVerified.r1 = [] ∨ events.map AttestationVerified.r1 = [r1]) :
      Effect gate call { gate with seen := seen } events
  | allow {idi : List UInt8} {allowlist : Vec (List UInt8)}
      (list_eq : allowlist.toList = gate.allowlist.toList ++ [idi]) :
      Effect gate (.allow idi) { gate with allowAny := false, allowlist := allowlist } []
  | disallow {idi : List UInt8} {allowlist : Vec (List UInt8)}
      (listed : idi ∈ gate.allowlist.toList)
      (list_eq : allowlist.toList = gate.allowlist.toList.erase idi) :
      Effect gate (.disallow idi) { gate with allowlist := allowlist } []
  | retune {seconds : UInt64} :
      Effect gate (.setMaxClockDriftSeconds seconds) (gate.setMaxClockDriftSeconds seconds) []

/-- **Inversion of a successful call.** -/
theorem Call.exec_effect {gate gate' : Gate sui} {call : Call} {events : List AttestationVerified}
    (h : (call.exec gate).result = .ok (gate', events)) : Effect gate call gate' events := by
  cases call with
  | verifyAndClaim att r1 nowSeconds =>
    obtain ⟨⟨idi, gate''⟩, hclaim, h⟩ := Exec.result_bind_eq_ok.mp h
    cases h
    obtain ⟨hpres, -, -, seen, hseen, rfl⟩ := Gate.verifyAndClaim_result_eq_ok hclaim
    exact .present rfl hpres hseen (.inl rfl)
  | verify idi attestedAt proof publicInputs r1 timestampMs sender =>
    obtain ⟨⟨gate'', event⟩, hverify, h⟩ := Exec.result_bind_eq_ok.mp h
    cases h
    obtain ⟨att, -, hverify⟩ := Exec.result_bind_eq_ok.mp hverify
    obtain ⟨⟨idi', gate''⟩, hclaim, h⟩ := Exec.result_bind_eq_ok.mp hverify
    cases h
    obtain ⟨hpres, -, -, seen, hseen, rfl⟩ := Gate.verifyAndClaim_result_eq_ok hclaim
    exact .present rfl hpres hseen (.inr rfl)
  | allow idi =>
    obtain ⟨gate'', hallow, h⟩ := Exec.result_bind_eq_ok.mp h
    cases h
    obtain ⟨allowlist, hpush, h⟩ := Exec.result_bind_eq_ok.mp hallow
    cases h
    exact .allow (Vec.pushBack_eq_ok hpush)
  | disallow idi =>
    obtain ⟨gate'', hdisallow, h⟩ := Exec.result_bind_eq_ok.mp h
    cases h
    obtain ⟨hmem, allowlist, hrun, hlist⟩ | ⟨-, habort⟩ := gate.disallow_cases idi
    · rw [hrun] at hdisallow
      cases hdisallow
      exact .disallow hmem hlist
    · rw [habort] at hdisallow
      cases hdisallow
  | setMaxClockDriftSeconds seconds =>
    cases h
    exact .retune

namespace Effect

variable {gate gate' : Gate sui} {call : Call} {events : List AttestationVerified}

theorem seen_keys (h : Effect gate call gate' events) :
    gate'.seen.keys = gate.seen.keys ++ call.presentedR1.toList := by
  cases h with
  | present presented _ seen_eq _ => rw [presented]; exact seen_eq
  | allow _ | disallow _ _ | retune => exact (List.append_nil _).symm

theorem presented_length (h : Effect gate call gate' events) :
    ∀ r1 ∈ call.presentedR1.toList, r1.length = 8 := by
  cases h with
  | present presented presentable _ _ =>
    rw [presented]
    intro r1 hr1
    rw [List.mem_singleton.mp hr1]
    exact presentable.challenge.length_eq
  | allow _ | disallow _ _ | retune => intro r1 hr1; cases hr1

theorem events_sublist (h : Effect gate call gate' events) :
    (events.map AttestationVerified.r1).Sublist call.presentedR1.toList := by
  cases h with
  | present presented _ _ events_eq =>
    rw [presented]
    rcases events_eq with events_eq | events_eq <;> rw [events_eq]
    · exact List.nil_sublist _
    · exact List.Sublist.refl _
  | allow _ | disallow _ _ | retune => exact List.nil_sublist _

end Effect

/-! ### The fixture -/

def hexBytes (n x : ℕ) : List UInt8 := (leBytes n x).reverse

namespace Fixture

@[irreducible] def vk : List UInt8 :=
  hexBytes 40 0xa210203d72694f05e04e1669b39df0a2716f90bb3399bab9ce7f0591f607791c6b41f1bf742025c7
    ++ hexBytes 40 0x90fd33dfd27cec5cf0f5406d5e4ee8f276b658930d15ad1ce57b7596431a52c60b71457a84cdd468
    ++ hexBytes 40 0xace6a97fc65a6acc857644130391fc2a6c43da7ff05171006f0b74b01c47216f6a9dd1a5ded1bb1b
    ++ hexBytes 40 0x771ddb3bc6aff82c4a123d66e105171f125c3084d23936b6696f529d2d32e7fc9c762a11382a2e12
    ++ hexBytes 40 0x308c4be89b04584cf918000bc6a3bd6e3a429aac0a463f35dcadf77d7d14842e255f61e157d585db
    ++ hexBytes 40 0x07f54e10d377c23d7cffdb846e606662de66f5ce37e8dd10040000000000000059425785e2ec1000
    ++ hexBytes 40 0x6d7764de5f6b55efa01feafabf6fd1c991d8d943e000fea890d88859558a2643ec40775dd5fbed11
    ++ hexBytes 40 0xfa3f26434b8ceebd6e85c2f327478987f0299e9f4d810b59f0d80fc1542f8628f99d83d0d3361065
    ++ hexBytes 40 0xb6878cbd57016d1d6c27ec6802cdf38b1f5707e1f10f83ff54862381b819ecfa9d74b959a6e4d595

def proofA : List UInt8 :=
  hexBytes 32 0xb022865da0b83aa0a5d6c9a8c0d4b1da5437564da2e41d86492fa2ed49d8c918

def proofB : List UInt8 :=
  hexBytes 32 0xa93e3c8a5d61802efa7914725233e4176ec14e808a3d70d1eb5ef46072bf6924
    ++ hexBytes 32 0x7c543a620b2bdce0bab7e23bd3b19910c9deef90190219402aba31bd2a96bca3

def proofC : List UInt8 :=
  hexBytes 32 0x28dd055e42ce405d52c89fd857daf73a262c8947a48d2390a2ec0bfd17348f04

def proof : List UInt8 := proofA ++ proofB ++ proofC

def publicInputs : List UInt8 :=
  hexBytes 40 0x10203040506070800000000000000000000000000000000000000000000000000011223344556677
    ++ hexBytes 40 0x00000000000000000000000000000000000000000000000080abd468000000000000000000000000
    ++ hexBytes 16 0x00000000000000000000000000000000

def idi : List UInt8 := hexBytes 8 0x1020304050607080

def attestedAt : UInt64 := 1758768000

/-- `sui::groth16` as far as the fixture shows it: one key, one proof, one vector of
public inputs, and everything else refused. -/
def groth16 : SuiGroth16 where
  PreparedVerifyingKey := Unit
  PublicProofInputs := List UInt8
  ProofPoints := List UInt8
  prepareVerifyingKey bytes := if bytes = vk then .ok () else .error 0
  publicProofInputsFromBytes := .ok
  proofPointsFromBytes := .ok
  verifyGroth16Proof _ inputs points := .ok (decide (inputs = publicInputs ∧ points = proof))

def gate (allowlist : Vec (List UInt8)) (drift : UInt64) : Gate groth16 :=
  ⟨⟨vk, ()⟩, Table.empty, allowlist, allowlist.isEmpty, drift⟩

theorem create_gate (allowlist : Vec (List UInt8)) (drift : UInt64) :
    (Gate.create groth16 vk allowlist drift).result = .ok (gate allowlist drift) := by
  have hprepare : groth16.prepareVerifyingKey vk = .ok () := by
    show (if vk = vk then Except.ok () else Except.error 0) = Except.ok ()
    exact if_pos rfl
  have hkey : (key groth16 vk).result = .ok ⟨vk, ()⟩ :=
    Exec.result_bind_eq_ok.mpr ⟨(), Exec.native_result_eq_ok.mpr hprepare, rfl⟩
  exact Exec.result_bind_eq_ok.mpr ⟨_, hkey, rfl⟩

end Fixture

/-! ### Single spend -/

namespace World

/-- The spent challenges are those of the successful presentations, eight bytes
each, and the receipts are for spent challenges in their order. -/
structure SingleSpend (w : World sui) : Prop where
  keys_eq : w.gate.seen.keys = w.burned
  length_eq : ∀ r1 ∈ w.burned, r1.length = 8
  events_sublist : (w.events.map AttestationVerified.r1).Sublist w.burned

theorem burned_step {w : World sui} {call : Call} {gate : Gate sui}
    {events : List AttestationVerified} (h : (call.exec w.gate).result = .ok (gate, events)) :
    (w.step call).burned = w.burned ++ call.presentedR1.toList := by
  rw [step_of_ok h, burned, List.filterMap_append, List.filterMap_cons]
  cases call.presentedR1 <;> rfl

theorem SingleSpend.step {w : World sui} (h : w.SingleSpend) {call : Call} {gate : Gate sui}
    {events : List AttestationVerified} (hok : (call.exec w.gate).result = .ok (gate, events)) :
    (w.step call).SingleSpend := by
  have heffect := Call.exec_effect hok
  have hgate : (w.step call).gate = gate := by rw [step_of_ok hok]
  have hevents : (w.step call).events = w.events ++ events := by rw [step_of_ok hok]
  refine ⟨?_, ?_, ?_⟩
  · rw [hgate, heffect.seen_keys, h.keys_eq, burned_step hok]
  · rw [burned_step hok]
    intro r1 hr1
    rcases List.mem_append.mp hr1 with hr1 | hr1
    · exact h.length_eq r1 hr1
    · exact heffect.presented_length r1 hr1
  · rw [hevents, burned_step hok, List.map_append]
    exact h.events_sublist.append heffect.events_sublist

theorem SingleSpend.run {w : World sui} (h : w.SingleSpend) (calls : List Call) :
    (w.run calls).SingleSpend :=
  run_invariant h calls fun _ hw _ _ _ _ hok => hw.step hok

theorem SingleSpend.nodup {w : World sui} (h : w.SingleSpend) : w.burned.Nodup :=
  h.keys_eq ▸ w.gate.seen.nodup

theorem seen_run {w : World sui} {r1 : List UInt8} (h : r1 ∈ w.gate.seen.keys)
    (calls : List Call) : r1 ∈ (w.run calls).gate.seen.keys := by
  refine run_invariant (I := fun w => r1 ∈ w.gate.seen.keys) h calls ?_
  intro w hw call _ gate events hok
  rw [step_of_ok hok]
  show r1 ∈ gate.seen.keys
  rw [(Call.exec_effect hok).seen_keys]
  exact List.mem_append_left _ hw

end World

theorem Gate.create_spec {vkBytes : List UInt8} {allowlist : Vec (List UInt8)} {drift : UInt64}
    {gate : Gate sui} (h : (Gate.create sui vkBytes allowlist drift).result = .ok gate) :
    gate.seen.keys = [] ∧ gate.allowlist = allowlist ∧ gate.allowAny = allowlist.isEmpty := by
  obtain ⟨verifierKey, -, h⟩ := Exec.result_bind_eq_ok.mp h
  cases h
  exact ⟨rfl, rfl, rfl⟩

/-- **Single spend per gate.**  Over every history of a gate: the spent challenges
are those of the calls that succeeded, of eight bytes each; none was accepted
twice, and no two receipts carry the same one; none is ever forgotten; and a call
that aborts leaves the gate as it was. -/
theorem run_singleSpend {vkBytes : List UInt8} {allowlist : Vec (List UInt8)} {drift : UInt64}
    {gate : Gate sui} (hcreate : (Gate.create sui vkBytes allowlist drift).result = .ok gate)
    (calls : List Call) :
    let w := (World.ofGate gate).run calls
    (∀ r1, r1 ∈ w.gate.seen.keys ↔ ∃ call ∈ w.succeeded, call.presentedR1 = some r1)
      ∧ (∀ r1 ∈ w.gate.seen.keys, r1.length = 8)
      ∧ (w.succeeded.filterMap Call.presentedR1).Nodup
      ∧ (w.events.map AttestationVerified.r1).Nodup
      ∧ (∀ later, ∀ r1 ∈ w.gate.seen.keys, r1 ∈ (w.run later).gate.seen.keys)
      ∧ ∀ call e, (call.exec w.gate).result = .error e → (w.step call).gate = w.gate := by
  have hstart : (World.ofGate gate).SingleSpend :=
    ⟨(Gate.create_spec hcreate).1, (fun _ h => by cases h), List.Sublist.refl _⟩
  intro w
  have hw : w.SingleSpend := hstart.run calls
  refine ⟨fun r1 => ?_, fun r1 hr1 => ?_, hw.nodup, hw.events_sublist.nodup hw.nodup,
    fun later r1 hr1 => World.seen_run hr1 later, fun call e he => ?_⟩
  · rw [hw.keys_eq, World.burned, List.mem_filterMap]
  · exact hw.length_eq r1 (hw.keys_eq ▸ hr1)
  · rw [World.step_of_error he]

theorem run_singleSpend_replay :
    let present := Call.verify Fixture.idi Fixture.attestedAt Fixture.proof Fixture.publicInputs
      (Fixture.publicInputs.extract 32 40) 1758768000000 (Vector.replicate 32 0)
    let w := (World.ofGate (Fixture.gate ⟨[], by decide⟩ 0)).run [present, present]
    (w.succeeded.filterMap Call.presentedR1).Nodup
      ∧ (w.events.map AttestationVerified.r1).Nodup := by
  intro present w
  obtain ⟨-, -, hburned, hevents, -⟩ :=
    run_singleSpend (Fixture.create_gate ⟨[], by decide⟩ 0) [present, present]
  exact ⟨hburned, hevents⟩

/-! ### Revocation -/

def Gate.OpenEmpty (gate : Gate sui) : Prop := gate.allowAny = true → gate.allowlist.toList = []

namespace Effect

variable {gate gate' : Gate sui} {call : Call} {events : List AttestationVerified}

theorem openEmpty (h : Effect gate call gate' events) (hopen : gate.OpenEmpty) :
    gate'.OpenEmpty := by
  cases h with
  | present _ _ _ _ | retune => exact hopen
  | allow _ => intro h; cases h
  | disallow listed _ =>
    intro h
    rw [hopen h] at listed
    cases listed

/-- **Only `allow` admits.** -/
theorem admits_of_admits (h : Effect gate call gate' events) {idi : List UInt8}
    (hcall : call ≠ .allow idi) (hadmits : gate'.Admits idi) : gate.Admits idi := by
  cases h with
  | present _ _ _ _ | retune => exact hadmits
  | @allow idi' allowlist list_eq =>
    rcases hadmits with h | h
    · cases h
    · rw [list_eq, List.mem_append, List.mem_singleton] at h
      rcases h with h | rfl
      · exact .inr h
      · exact absurd rfl hcall
  | disallow listed list_eq =>
    rcases hadmits with h | h
    · exact .inl h
    · rw [list_eq] at h
      exact .inr (List.mem_of_mem_erase h)

end Effect

theorem World.openEmpty_run {w : World sui} (h : w.gate.OpenEmpty) (calls : List Call) :
    (w.run calls).gate.OpenEmpty := by
  refine run_invariant (I := fun w => w.gate.OpenEmpty) h calls ?_
  intro w hw call _ gate events hok
  rw [step_of_ok hok]
  exact (Call.exec_effect hok).openEmpty hw

theorem World.not_admits_run {w : World sui} {idi : List UInt8} (h : ¬ w.gate.Admits idi)
    {calls : List Call} (hcalls : .allow idi ∉ calls) : ¬ (w.run calls).gate.Admits idi := by
  refine run_invariant (I := fun w => ¬ w.gate.Admits idi) h calls ?_
  intro w hw call hmem gate events hok hadmits
  rw [step_of_ok hok] at hadmits
  refine hw ((Call.exec_effect hok).admits_of_admits ?_ hadmits)
  rintro rfl
  exact hcalls hmem

theorem Gate.openEmpty_create {vkBytes : List UInt8} {allowlist : Vec (List UInt8)}
    {drift : UInt64} {gate : Gate sui}
    (h : (Gate.create sui vkBytes allowlist drift).result = .ok gate) : gate.OpenEmpty := by
  obtain ⟨-, hlist, hany⟩ := Gate.create_spec h
  intro hopen
  rw [hany] at hopen
  rw [hlist]
  exact List.isEmpty_iff.mp hopen

theorem Gate.isIdiAllowed_result (gate : Gate sui) (idi : List UInt8) :
    (gate.isIdiAllowed idi).result = .ok (decide (gate.Admits idi)) := by
  rw [Gate.isIdiAllowed, Gate.admits_eq]
  rfl

/-- A gate refuses an IDi, when asked and when it is claimed. -/
def Gate.Refuses (gate : Gate sui) (idi : List UInt8) : Prop :=
  (gate.isIdiAllowed idi).result = .ok false
    ∧ ∀ att presentedR1 nowSeconds, att.idi = idi →
      ∃ e, (gate.verifyAndClaim att presentedR1 nowSeconds).result = .error e

theorem Gate.refuses_iff {gate : Gate sui} {idi : List UInt8} :
    gate.Refuses idi ↔ ¬ gate.Admits idi := by
  have hasked : (gate.isIdiAllowed idi).result = .ok false ↔ ¬ gate.Admits idi := by
    rw [gate.isIdiAllowed_result, Except.ok.injEq, decide_eq_false_iff_not]
  constructor
  · exact fun h => hasked.mp h.1
  · intro h
    refine ⟨hasked.mpr h, fun att presentedR1 nowSeconds hidi => ?_⟩
    cases hres : (gate.verifyAndClaim att presentedR1 nowSeconds).result with
    | error e => exact ⟨e, rfl⟩
    | ok ret =>
      have hadmits := (Gate.verifyAndClaim_result_eq_ok hres).1.admitted
      rw [hidi] at hadmits
      exact absurd hadmits h

theorem Gate.admits_disallow_iff {gate gate' : Gate sui} {idi : List UInt8}
    (hopen : gate.OpenEmpty) (h : (gate.disallow idi).result = .ok gate') :
    gate'.Admits idi ↔ 2 ≤ gate.allowlist.toList.count idi := by
  obtain ⟨hmem, allowlist, hrun, hlist⟩ | ⟨-, habort⟩ := gate.disallow_cases idi
  · rw [hrun] at h
    cases h
    have hclosed : ¬ gate.allowAny = true := fun hany => by
      rw [hopen hany] at hmem
      cases hmem
    have hcount := List.count_erase_self (a := idi) (l := gate.allowlist.toList)
    have hiff : idi ∈ allowlist.toList ↔ 0 < gate.allowlist.toList.count idi - 1 := by
      rw [hlist, ← List.count_pos_iff, hcount]
    constructor
    · rintro (hany | hlisted)
      · exact absurd hany hclosed
      · have := hiff.mp hlisted
        omega
    · intro htwo
      exact .inr (hiff.mpr (by omega))
  · rw [habort] at h
    cases h

/-- **When a revocation holds.**  In any history of a gate, a removal that does not
abort is effective, from then on and until the IDi is allowed again, exactly when
the IDi was listed once. -/
theorem disallow_effective_iff {vkBytes : List UInt8} {allowlist : Vec (List UInt8)}
    {drift : UInt64} {gate : Gate sui}
    (hcreate : (Gate.create sui vkBytes allowlist drift).result = .ok gate) (calls : List Call)
    {idi : List UInt8} {gate' : Gate sui}
    (hdisallow : (((World.ofGate gate).run calls).gate.disallow idi).result = .ok gate') :
    (∀ later, .allow idi ∉ later →
      ((((World.ofGate gate).run calls).step (.disallow idi)).run later).gate.Refuses idi)
      ↔ ((World.ofGate gate).run calls).gate.allowlist.toList.count idi = 1 := by
  generalize hw : (World.ofGate gate).run calls = w at hdisallow ⊢
  have hopen : w.gate.OpenEmpty := by
    rw [← hw]
    exact World.openEmpty_run (Gate.openEmpty_create hcreate) calls
  have hstep : (w.step (.disallow idi)).gate = gate' := by
    rw [World.step_of_ok (Call.exec_disallow hdisallow)]
  have hadmits := Gate.admits_disallow_iff hopen hdisallow
  have hpos : 0 < w.gate.allowlist.toList.count idi := by
    obtain ⟨hmem, -⟩ | ⟨-, habort⟩ := w.gate.disallow_cases idi
    · exact List.count_pos_iff.mpr hmem
    · rw [habort] at hdisallow
      cases hdisallow
  constructor
  · intro h
    have hnow := Gate.refuses_iff.mp (h [] List.not_mem_nil)
    rw [show (w.step (.disallow idi)).run [] = w.step (.disallow idi) from rfl, hstep, hadmits]
      at hnow
    omega
  · intro hone later hlater
    refine Gate.refuses_iff.mpr (World.not_admits_run ?_ hlater)
    rw [hstep, hadmits]
    omega

theorem disallow_effective_fixture :
    ∃ gate', ((Fixture.gate ⟨[Fixture.idi], by simp⟩ 0).disallow Fixture.idi).result = .ok gate'
      ∧ gate'.Refuses Fixture.idi := by
  obtain ⟨-, allowlist, hrun, -⟩ | ⟨hnot, -⟩ :=
    (Fixture.gate ⟨[Fixture.idi], by simp⟩ 0).disallow_cases Fixture.idi
  · have hdisallow := congrArg Exec.result hrun
    have heffective := (disallow_effective_iff
      (Fixture.create_gate ⟨[Fixture.idi], by simp⟩ 0) [] hdisallow).mpr
        (List.count_singleton_self (a := Fixture.idi)) [] List.not_mem_nil
    rw [World.run, List.foldl_nil, World.step_of_ok (Call.exec_disallow hdisallow)] at heffective
    exact ⟨_, hdisallow, heffective⟩
  · exact absurd (List.mem_singleton_self Fixture.idi) hnot

/-- **A repeated entry survives its removal**: created with the IDi listed twice, a
gate still admits it after a removal that did not abort. -/
theorem disallow_repeated_entry :
    ∃ gate gate', (Gate.create Fixture.groth16 Fixture.vk ⟨[Fixture.idi, Fixture.idi], by simp⟩ 0).result
        = .ok gate
      ∧ (gate.disallow Fixture.idi).result = .ok gate'
      ∧ (gate'.isIdiAllowed Fixture.idi).result = .ok true ∧ ¬ gate'.Refuses Fixture.idi := by
  have hcreate := Fixture.create_gate ⟨[Fixture.idi, Fixture.idi], by simp⟩ 0
  refine ⟨_, (Fixture.gate ⟨[Fixture.idi], by simp⟩ 0), hcreate, ?_, ?_, ?_⟩
  · obtain ⟨-, allowlist, hrun, hlist⟩ | ⟨hnot, -⟩ :=
      (Fixture.gate ⟨[Fixture.idi, Fixture.idi], by simp⟩ 0).disallow_cases Fixture.idi
    · have hsame : allowlist = ⟨[Fixture.idi], by simp⟩ := by
        apply Vec.ext
        rw [hlist]
        exact List.erase_cons_head (a := Fixture.idi) (l := [Fixture.idi])
      rw [hrun, hsame]
      rfl
    · exact absurd List.mem_cons_self hnot
  · rw [Gate.isIdiAllowed_result,
      decide_eq_true (show Gate.Admits _ _ from .inr (List.mem_singleton_self Fixture.idi))]
  · rw [Gate.refuses_iff, not_not]
    exact .inr (List.mem_singleton_self Fixture.idi)

/-! ### Narrowing -/

namespace Effect

variable {gate gate' : Gate sui} {call : Call} {events : List AttestationVerified}

theorem allowAny_of_allowAny (h : Effect gate call gate' events) (hopen : gate'.allowAny = true) :
    gate.allowAny = true := by
  cases h with
  | present _ _ _ _ | disallow _ _ | retune => exact hopen
  | allow _ => cases hopen

/-- The policy is edited by `allow` and `disallow` alone. -/
theorem policy_eq (h : Effect gate call gate' events)
    (hcall : ∀ idi, call ≠ .allow idi ∧ call ≠ .disallow idi) :
    gate'.allowAny = gate.allowAny ∧ gate'.allowlist = gate.allowlist := by
  cases h with
  | present _ _ _ _ | retune => exact ⟨rfl, rfl⟩
  | @allow idi _ _ => exact absurd rfl (hcall idi).1
  | @disallow idi _ _ _ => exact absurd rfl (hcall idi).2

end Effect

/-- **A closed gate stays closed.** -/
theorem World.allowAny_run {w : World sui} {calls : List Call}
    (h : (w.run calls).gate.allowAny = true) : w.gate.allowAny = true := by
  refine run_invariant (I := fun w' => w'.gate.allowAny = true → w.gate.allowAny = true) id calls
    ?_ h
  intro w' hw' call _ gate events hok hopen
  rw [step_of_ok hok] at hopen
  exact hw' ((Call.exec_effect hok).allowAny_of_allowAny hopen)

theorem World.policy_step (w : World sui) {call : Call}
    (hcall : ∀ idi, call ≠ .allow idi ∧ call ≠ .disallow idi) :
    (w.step call).gate.allowAny = w.gate.allowAny
      ∧ (w.step call).gate.allowlist = w.gate.allowlist := by
  cases hres : (call.exec w.gate).result with
  | error e => rw [step_of_error hres]; exact ⟨rfl, rfl⟩
  | ok ret =>
    obtain ⟨gate, events⟩ := ret
    rw [step_of_ok hres]
    exact (Call.exec_effect hres).policy_eq hcall

theorem Gate.admits_of_disallow {gate gate' : Gate sui} {idi idi' : List UInt8}
    (h : (gate.disallow idi).result = .ok gate') (hadmits : gate'.Admits idi') :
    gate.Admits idi' :=
  (Call.exec_effect (Call.exec_disallow h)).admits_of_admits nofun hadmits

theorem Gate.disallow_aborts_iff {gate : Gate sui} {idi : List UInt8} :
    (∃ e, (gate.disallow idi).result = .error e) ↔ idi ∉ gate.allowlist.toList := by
  obtain ⟨hmem, allowlist, hrun, -⟩ | ⟨hnot, habort⟩ := gate.disallow_cases idi
  · rw [hrun]
    constructor
    · rintro ⟨e, he⟩
      cases he
    · exact fun hnot => absurd hmem hnot
  · rw [habort]
    exact ⟨fun _ => hnot, fun _ => ⟨_, rfl⟩⟩

/-- **A closed gate never reopens.**  In any history of a gate: an open gate lists
nobody; a gate that is open at some time was open at all times before; a removal
that does not abort admits no IDi that was refused before it; it aborts exactly
when the IDi is not listed, so always at an open gate; and neither a presentation
nor the bound on the drift touches the policy. -/
theorem run_neverReopens {vkBytes : List UInt8} {allowlist : Vec (List UInt8)}
    {drift : UInt64} {gate : Gate sui}
    (hcreate : (Gate.create sui vkBytes allowlist drift).result = .ok gate) (calls : List Call) :
    let w := (World.ofGate gate).run calls
    (w.gate.isOpen = true → w.gate.allowlist.toList = [])
      ∧ (∀ later, (w.run later).gate.isOpen = true → w.gate.isOpen = true)
      ∧ (∀ idi gate', (w.gate.disallow idi).result = .ok gate' →
        ∀ idi', (gate'.isIdiAllowed idi').result = .ok true →
          (w.gate.isIdiAllowed idi').result = .ok true)
      ∧ (∀ idi, (∃ e, (w.gate.disallow idi).result = .error e) ↔ idi ∉ w.gate.allowlist.toList)
      ∧ (w.gate.isOpen = true → ∀ idi, ∃ e, (w.gate.disallow idi).result = .error e)
      ∧ (∀ att presentedR1 nowSeconds idi gate',
        (w.gate.verifyAndClaim att presentedR1 nowSeconds).result = .ok (idi, gate') →
          gate'.allowAny = w.gate.allowAny ∧ gate'.allowlist = w.gate.allowlist)
      ∧ (∀ seconds, (w.gate.setMaxClockDriftSeconds seconds).allowAny = w.gate.allowAny
        ∧ (w.gate.setMaxClockDriftSeconds seconds).allowlist = w.gate.allowlist)
      ∧ ∀ call, (∀ idi, call ≠ .allow idi ∧ call ≠ .disallow idi) →
        (w.step call).gate.allowAny = w.gate.allowAny
          ∧ (w.step call).gate.allowlist = w.gate.allowlist := by
  intro w
  have hempty : w.gate.OpenEmpty := World.openEmpty_run (Gate.openEmpty_create hcreate) calls
  refine ⟨hempty, fun later => World.allowAny_run, ?_, fun idi => Gate.disallow_aborts_iff, ?_,
    ?_, fun seconds => ⟨rfl, rfl⟩, fun call => w.policy_step⟩
  · intro idi gate' hdisallow idi' hallowed
    rw [Gate.isIdiAllowed_result, Except.ok.injEq, decide_eq_true_iff] at hallowed ⊢
    exact Gate.admits_of_disallow hdisallow hallowed
  · intro hopen idi
    rw [Gate.disallow_aborts_iff, hempty hopen]
    exact List.not_mem_nil
  · intro att presentedR1 nowSeconds idi gate' hclaim
    obtain ⟨-, -, -, seen, -, rfl⟩ := Gate.verifyAndClaim_result_eq_ok hclaim
    exact ⟨rfl, rfl⟩

/-- An open gate refuses every removal; narrowed to one IDi, it stays closed also once
that IDi is removed and nobody is left on the list. -/
theorem run_neverReopens_narrowed :
    (∃ e, ((Fixture.gate ⟨[], by decide⟩ 0).disallow Fixture.idi).result = .error e)
      ∧ (((World.ofGate (Fixture.gate ⟨[], by decide⟩ 0)).run [.allow Fixture.idi]).run
        [.disallow Fixture.idi]).gate.isOpen = false := by
  have hcreate := Fixture.create_gate ⟨[], by decide⟩ 0
  obtain ⟨-, -, -, -, hrefused, -⟩ := run_neverReopens hcreate []
  obtain ⟨-, hclosed, -⟩ := run_neverReopens hcreate [.allow Fixture.idi]
  refine ⟨hrefused rfl Fixture.idi, eq_false_of_ne_true fun hopen => ?_⟩
  cases hclosed _ hopen

end SuiCash.Sui
