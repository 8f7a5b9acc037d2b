import SuiCash.Sui.ZkVerifier

/-!
# The gate

`gate.move`: the state that turns a pure attestation check into a single-use
authorisation.  A call that aborts returns no gate, so its caller still holds the
old one.

`verifyAndClaim_eq` is the call in closed form, one branch for each way it can
abort, in the order of the source.  From it come what is accepted
(`verifyAndClaim_accepts_iff`) and what an accepted call does to the gate
(`verifyAndClaim_result_eq_ok`).  `disallow_cases` says the same of a removal.
-/

namespace SuiCash.Sui

open Move Bytes

def ENotAllowed : ℕ := 0
def EReplay : ℕ := 1
def EUnknownIdi : ℕ := 2

structure Gate (sui : SuiGroth16) where
  verifierKey : VerifyingKey sui
  seen : Table (List UInt8) Bool
  allowlist : Vec (List UInt8)
  allowAny : Bool
  maxClockDriftSeconds : UInt64

namespace Gate

variable {sui : SuiGroth16}

def create (sui : SuiGroth16) (vkBytes : List UInt8) (allowlist : Vec (List UInt8))
    (maxClockDriftSeconds : UInt64) : Exec ModuleName (Pairing sui) (Gate sui) := do
  let verifierKey ← key sui vkBytes
  pure ⟨verifierKey, Table.empty, allowlist, allowlist.isEmpty, maxClockDriftSeconds⟩

/-- The admission rule: open gates admit everything, closed gates admit only what
is listed. -/
def admits (gate : Gate sui) (idi : List UInt8) : Exec ModuleName (Pairing sui) Bool :=
  if gate.allowAny = true then pure true
  else do
    let found ← Exec.searchWhile 0 gate.allowlist.toList.length fun i => do
      let entry ← Exec.borrow gate.allowlist.toList i
      pure (if entry = idi then some true else none)
    pure (found.getD false)

/-- Verify `att`, consume its `r1`, and return the claimed IDi. -/
def verifyAndClaim (gate : Gate sui) (att : Attestation) (presentedR1 : List UInt8)
    (nowSeconds : UInt64) : Exec ModuleName (Pairing sui) (List UInt8 × Gate sui) := do
  assertClockDriftOk att nowSeconds gate.maxClockDriftSeconds
  let claimedIdi := att.idi
  let admitted ← admits gate claimedIdi
  Exec.assert (admitted = true) .gate ENotAllowed
  assertChallengeMatches att presentedR1
  Exec.assert (¬ gate.seen.contains presentedR1 = true) .gate EReplay
  let verifiedIdi ← verify gate.verifierKey att
  let seen ← gate.seen.add presentedR1 true
  pure (verifiedIdi, { gate with seen := seen })

/-- Add an IDi to the allowlist, and narrow the gate to exactly the list. -/
def allow (gate : Gate sui) (idi : List UInt8) : Exec ModuleName (Pairing sui) (Gate sui) := do
  let gate := { gate with allowAny := false }
  let allowlist ← gate.allowlist.pushBack idi
  pure { gate with allowlist := allowlist }

def disallow (gate : Gate sui) (idi : List UInt8) : Exec ModuleName (Pairing sui) (Gate sui) := do
  let removed ← Exec.searchWhile 0 gate.allowlist.toList.length fun i => do
    let entry ← Exec.borrow gate.allowlist.toList i
    if entry = idi then do
      let allowlist ← gate.allowlist.remove i
      pure (some { gate with allowlist := allowlist })
    else pure none
  match removed with
  | some gate => pure gate
  | none => Exec.abort .gate EUnknownIdi

def isSeen (gate : Gate sui) (r1 : List UInt8) : Bool := gate.seen.contains r1

def setMaxClockDriftSeconds (gate : Gate sui) (seconds : UInt64) : Gate sui :=
  { gate with maxClockDriftSeconds := seconds }

def isIdiAllowed (gate : Gate sui) (idi : List UInt8) : Exec ModuleName (Pairing sui) Bool :=
  admits gate idi

def isOpen (gate : Gate sui) : Bool := gate.allowAny

/-! ### The allowlist -/

/-- The gate is open, or the IDi is listed. -/
def Admits (gate : Gate sui) (idi : List UInt8) : Prop :=
  gate.allowAny = true ∨ idi ∈ gate.allowlist.toList

instance (gate : Gate sui) (idi : List UInt8) : Decidable (gate.Admits idi) :=
  inferInstanceAs (Decidable (_ ∨ _))

theorem admits_eq (gate : Gate sui) (idi : List UInt8) :
    admits gate idi = pure (decide (gate.Admits idi)) := by
  unfold admits
  by_cases hopen : gate.allowAny = true
  · rw [if_pos hopen, decide_eq_true (show gate.Admits idi from .inl hopen)]
  rw [if_neg hopen]
  have hcases := Exec.searchWhile_cases (μ := ModuleName) (τ := Pairing sui) (i := 0)
    (f := fun i => do
      let entry ← Exec.borrow gate.allowlist.toList i
      pure (if entry = idi then some true else none))
    (p := fun i => gate.allowlist.toList[i]? = some idi) (b := fun _ => true)
    gate.allowlist.fits fun i _ hi => by
      rw [Exec.borrow_of_lt hi, Exec.pure_bind, List.getElem?_eq_getElem hi]
      simp only [Option.some.injEq]
  obtain ⟨i, -, hi, hhit, -, hrun⟩ | ⟨hmiss, hrun⟩ := hcases
  · rw [hrun, Exec.pure_bind,
      decide_eq_true (show gate.Admits idi from .inr (List.mem_of_getElem? hhit))]
    rfl
  · have hnot : ¬ gate.Admits idi := by
      rintro (h | h)
      · exact hopen h
      · obtain ⟨i, hi⟩ := List.getElem?_of_mem h
        exact hmiss i (Nat.zero_le i) (List.getElem?_eq_some_iff.mp hi).1 hi
    rw [hrun, Exec.pure_bind, decide_eq_false hnot]
    rfl

theorem eraseIdx_first {l : List (List UInt8)} {idi : List UInt8} {i : ℕ} (hhit : l[i]? = some idi)
    (hfirst : ∀ k < i, ¬ l[k]? = some idi) : l.eraseIdx i = l.erase idi := by
  obtain ⟨hi, hget⟩ := List.getElem?_eq_some_iff.mp hhit
  refine (List.erase_eq_eraseIdx_of_idxOf ((List.findIdx_eq hi).mpr ⟨?_, fun k hk => ?_⟩)).symm
  · rw [hget, beq_self_eq_true]
  · have hmiss := hfirst k hk
    rw [List.getElem?_eq_getElem (by omega), Option.some.injEq] at hmiss
    simpa using hmiss

/-- **A removal** takes out the first occurrence, and aborts when there is none. -/
theorem disallow_cases (gate : Gate sui) (idi : List UInt8) :
    (idi ∈ gate.allowlist.toList ∧ ∃ allowlist : Vec (List UInt8),
        gate.disallow idi = pure { gate with allowlist := allowlist }
          ∧ allowlist.toList = gate.allowlist.toList.erase idi)
      ∨ (idi ∉ gate.allowlist.toList
        ∧ gate.disallow idi = Exec.abort .gate EUnknownIdi) := by
  have hcases := Exec.searchWhile_cases (μ := ModuleName) (τ := Pairing sui) (i := 0)
    (f := fun i => do
      let entry ← Exec.borrow gate.allowlist.toList i
      if entry = idi then do
        let allowlist ← gate.allowlist.remove i
        pure (some { gate with allowlist := allowlist })
      else pure none)
    (p := fun i => gate.allowlist.toList[i]? = some idi)
    (b := fun i => { gate with allowlist := gate.allowlist.eraseIdx i })
    gate.allowlist.fits fun i _ hi => by
      rw [Exec.borrow_of_lt hi, Exec.pure_bind, List.getElem?_eq_getElem hi]
      simp only [Option.some.injEq]
      by_cases h : gate.allowlist.toList[i] = idi
      · rw [if_pos h, if_pos h, Vec.remove_of_lt hi, Exec.pure_bind]
      · rw [if_neg h, if_neg h]
  obtain ⟨i, -, hi, hhit, hfirst, hsearch⟩ | ⟨hmiss, hsearch⟩ := hcases
  · refine .inl ⟨List.mem_of_getElem? hhit, gate.allowlist.eraseIdx i, ?_,
      eraseIdx_first hhit fun k hk => hfirst k (Nat.zero_le k) hk⟩
    show Exec.searchWhile 0 gate.allowlist.toList.length _ >>= _ = _
    rw [hsearch, Exec.pure_bind]
  · refine .inr ⟨fun h => ?_, ?_⟩
    · obtain ⟨i, hi⟩ := List.getElem?_of_mem h
      exact hmiss i (Nat.zero_le i) (List.getElem?_eq_some_iff.mp hi).1 hi
    · show Exec.searchWhile 0 gate.allowlist.toList.length _ >>= _ = _
      rw [hsearch, Exec.pure_bind]

/-! ### Presentations -/

/-- The checks that run before the proof is looked at, and the one that runs in
front of it inside `zk_verifier`. -/
structure Presentable (gate : Gate sui) (att : Attestation) (presentedR1 : List UInt8)
    (nowSeconds : UInt64) : Prop where
  drift : att.WithinDrift nowSeconds gate.maxClockDriftSeconds
  admitted : gate.Admits att.idi
  challenge : att.ChallengeMatches presentedR1
  fresh : presentedR1 ∉ gate.seen.keys
  envelope : att.EnvelopeConsistent

/-- **A presentation in closed form**, one branch for each abort. -/
theorem verifyAndClaim_eq (gate : Gate sui) (att : Attestation) (presentedR1 : List UInt8)
    (nowSeconds : UInt64) :
    gate.verifyAndClaim att presentedR1 nowSeconds =
      if ¬ att.WithinDrift nowSeconds gate.maxClockDriftSeconds then
        Exec.abort .felicaAuth EClockDrift
      else if ¬ gate.Admits att.idi then Exec.abort .gate ENotAllowed
      else if presentedR1.length ≠ 8 then Exec.abort .felicaAuth EMalformed
      else if ¬ CanonicalLimb (att.scalarBytes 1) then
        Exec.abort .felicaAuth EEnvelopeInconsistent
      else if (att.scalarBytes 1).take 8 ≠ presentedR1 then
        Exec.abort .felicaAuth EChallengeMismatch
      else if presentedR1 ∈ gate.seen.keys then Exec.abort .gate EReplay
      else verify gate.verifierKey att >>= fun verifiedIdi =>
        gate.seen.add presentedR1 true >>= fun seen =>
          pure (verifiedIdi, { gate with seen := seen }) := by
  rw [verifyAndClaim, assertClockDriftOk_eq]
  by_cases hdrift : att.WithinDrift nowSeconds gate.maxClockDriftSeconds
  swap
  · rw [if_neg hdrift, if_pos hdrift, Exec.abort_bind]
  rw [if_pos hdrift, if_neg (not_not.mpr hdrift), Exec.pure_bind]
  dsimp only
  rw [admits_eq, Exec.pure_bind, Exec.assert_bind]
  by_cases hadmits : gate.Admits att.idi
  swap
  · rw [if_neg (by simpa using hadmits), if_pos hadmits]
  rw [if_pos (by simpa using hadmits), if_neg (not_not.mpr hadmits), assertChallengeMatches_eq]
  by_cases hlen : presentedR1.length ≠ 8
  · rw [if_pos hlen, if_pos hlen, Exec.abort_bind]
  rw [if_neg hlen, if_neg hlen]
  by_cases hcan : ¬ CanonicalLimb (att.scalarBytes 1)
  · rw [if_pos hcan, if_pos hcan, Exec.abort_bind]
  rw [if_neg hcan, if_neg hcan]
  by_cases hr1 : (att.scalarBytes 1).take 8 ≠ presentedR1
  · rw [if_pos hr1, if_pos hr1, Exec.abort_bind]
  rw [if_neg hr1, if_neg hr1, Exec.pure_bind, Exec.assert_bind, ite_not]
  refine if_congr Table.contains_iff rfl rfl

theorem presentable_iff {gate : Gate sui} {att : Attestation} {presentedR1 : List UInt8}
    {nowSeconds : UInt64} : gate.Presentable att presentedR1 nowSeconds ↔
      ¬ ¬ att.WithinDrift nowSeconds gate.maxClockDriftSeconds ∧ ¬ ¬ gate.Admits att.idi
        ∧ ¬ presentedR1.length ≠ 8 ∧ ¬ ¬ CanonicalLimb (att.scalarBytes 1)
        ∧ ¬ (att.scalarBytes 1).take 8 ≠ presentedR1 ∧ presentedR1 ∉ gate.seen.keys
        ∧ att.EnvelopeConsistent := by
  simp only [ne_eq, not_not]
  constructor
  · rintro ⟨hdrift, hadmits, ⟨hlen, hcan, hr1⟩, hfresh, henv⟩
    exact ⟨hdrift, hadmits, hlen, hcan, hr1, hfresh, henv⟩
  · rintro ⟨hdrift, hadmits, hlen, hcan, hr1, hfresh, henv⟩
    exact ⟨hdrift, hadmits, ⟨hlen, hcan, hr1⟩, hfresh, henv⟩

/-- **What an accepted presentation says and does**: the claimed IDi comes back,
and the challenge is burned. -/
theorem verifyAndClaim_result_eq_ok {gate gate' : Gate sui} {att : Attestation}
    {presentedR1 idi : List UInt8} {nowSeconds : UInt64}
    (h : (gate.verifyAndClaim att presentedR1 nowSeconds).result = .ok (idi, gate')) :
    gate.Presentable att presentedR1 nowSeconds
      ∧ Groth16Holds gate.verifierKey att.proof att.publicInputs ∧ idi = att.idi
      ∧ ∃ seen : Table (List UInt8) Bool, seen.keys = gate.seen.keys ++ [presentedR1]
        ∧ gate' = { gate with seen := seen } := by
  rw [verifyAndClaim_eq] at h
  simp only [Exec.result_guard_eq_ok] at h
  obtain ⟨hdrift, hadmits, hlen, hcan, hr1, hfresh, h⟩ := h
  obtain ⟨verifiedIdi, hverify, h⟩ := Exec.result_bind_eq_ok.mp h
  obtain ⟨henv, hproof, rfl⟩ := verify_result_eq_ok_iff.mp hverify
  obtain ⟨seen, hadd, hkeys⟩ := Table.add_of_not_mem (μ := ModuleName) (τ := Pairing sui) hfresh true
  rw [hadd, Exec.pure_bind] at h
  cases h
  exact ⟨presentable_iff.mpr ⟨hdrift, hadmits, hlen, hcan, hr1, hfresh, henv⟩, hproof, rfl, seen,
    hkeys, rfl⟩

theorem exists_verifyAndClaim_result {gate : Gate sui} {att : Attestation}
    {presentedR1 : List UInt8} {nowSeconds : UInt64}
    (h : gate.Presentable att presentedR1 nowSeconds)
    (hproof : Groth16Holds gate.verifierKey att.proof att.publicInputs) :
    ∃ gate', (gate.verifyAndClaim att presentedR1 nowSeconds).result = .ok (att.idi, gate') := by
  obtain ⟨hdrift, hadmits, hlen, hcan, hr1, hfresh, henv⟩ := presentable_iff.mp h
  obtain ⟨seen, hadd, -⟩ := Table.add_of_not_mem (μ := ModuleName) (τ := Pairing sui) hfresh true
  refine ⟨{ gate with seen := seen }, ?_⟩
  rw [verifyAndClaim_eq]
  simp only [Exec.result_guard_eq_ok]
  refine ⟨hdrift, hadmits, hlen, hcan, hr1, hfresh, Exec.result_bind_eq_ok.mpr
    ⟨att.idi, verify_result_eq_ok_iff.mpr ⟨henv, hproof, rfl⟩, ?_⟩⟩
  rw [hadd, Exec.pure_bind]
  rfl

theorem mem_verifyAndClaim_trace {gate : Gate sui} {att : Attestation} {presentedR1 : List UInt8}
    {nowSeconds : UInt64} {pairing : Pairing sui}
    (h : pairing ∈ (gate.verifyAndClaim att presentedR1 nowSeconds).trace) :
    gate.Presentable att presentedR1 nowSeconds ∧ pairing.prepared = gate.verifierKey.prepared
      ∧ sui.publicProofInputsFromBytes att.publicInputs = .ok pairing.inputs
      ∧ sui.proofPointsFromBytes att.proof = .ok pairing.points := by
  rw [verifyAndClaim_eq] at h
  simp only [Exec.mem_trace_guard] at h
  obtain ⟨hdrift, hadmits, hlen, hcan, hr1, hfresh, h⟩ := h
  obtain h | ⟨_, _, h⟩ := Exec.mem_trace_bind.mp h
  · obtain ⟨henv, h⟩ := mem_verify_trace h
    exact ⟨presentable_iff.mpr ⟨hdrift, hadmits, hlen, hcan, hr1, hfresh, henv⟩,
      mem_verifyProof_trace h⟩
  · obtain ⟨seen, hadd, -⟩ := Table.add_of_not_mem (μ := ModuleName) (τ := Pairing sui) hfresh true
    rw [hadd, Exec.pure_bind] at h
    cases h

/-- A presentation aborts only with a code of one of the modules, or of the native
verifier: its arithmetic fits, and the key it adds is fresh. -/
theorem verifyAndClaim_namedFaults (gate : Gate sui) (att : Attestation)
    (presentedR1 : List UInt8) (nowSeconds : UInt64) :
    (gate.verifyAndClaim att presentedR1 nowSeconds).NamedFaults := by
  rw [verifyAndClaim_eq]
  refine .ite (.abort _ _) (.ite (.abort _ _) (.ite (.abort _ _) ?_))
  refine .ite (.abort _ _) (.ite (.abort _ _) ?_)
  by_cases hfresh : presentedR1 ∈ gate.seen.keys
  · rw [if_pos hfresh]
    exact .abort _ _
  · rw [if_neg hfresh]
    refine (verify_namedFaults _ _).bind fun _ => ?_
    obtain ⟨seen, hadd, -⟩ := Table.add_of_not_mem (μ := ModuleName) (τ := Pairing sui) hfresh true
    rw [hadd, Exec.pure_bind]
    exact .pure _

/-- **Exact acceptance.**  A presentation is accepted exactly when the clocks are
close, the IDi is admitted, the challenge is the eight bytes of scalar 1 and
unspent, the scalars are canonical and say what the envelope says, and the Groth16
check holds for those bytes.  The IDi returned is then the one scalar 0 commits
to, and it is admitted.  The pairing is evaluated only when everything before it
holds, and no arithmetic on the way can fail. -/
theorem verifyAndClaim_accepts_iff (gate : Gate sui) (att : Attestation)
    (presentedR1 : List UInt8) (nowSeconds : UInt64) :
    let inTime := ((att.attestedAt.toNat : ℤ) - nowSeconds.toNat).natAbs
      ≤ gate.maxClockDriftSeconds.toNat
    let admitted := gate.allowAny = true ∨ att.idi ∈ gate.allowlist.toList
    let challenged := presentedR1.length = 8 ∧ (att.scalarBytes 1).take 8 = presentedR1
      ∧ presentedR1 ∉ gate.seen.keys
    let consistent := (∀ i < 3, ∀ b ∈ (att.scalarBytes i).drop 8, b = 0)
      ∧ (att.scalarBytes 0).take 8 = att.idi
      ∧ leNat (att.scalarBytes 2) = att.attestedAt.toNat
    let outcome := gate.verifyAndClaim att presentedR1 nowSeconds
    ((∃ ret, outcome.result = .ok ret) ↔ inTime ∧ admitted ∧ challenged ∧ consistent
        ∧ Groth16Holds gate.verifierKey att.proof att.publicInputs)
      ∧ (∀ idi gate', outcome.result = .ok (idi, gate') → idi = (att.scalarBytes 0).take 8
        ∧ (gate.allowAny = true ∨ idi ∈ gate.allowlist.toList))
      ∧ (∀ pairing ∈ outcome.trace, inTime ∧ admitted ∧ challenged ∧ consistent
        ∧ sui.publicProofInputsFromBytes att.publicInputs = .ok pairing.inputs
        ∧ sui.proofPointsFromBytes att.proof = .ok pairing.points)
      ∧ ∀ e, outcome.result = .error e → e.Named := by
  intro inTime admitted challenged consistent outcome
  have hpresentable : gate.Presentable att presentedR1 nowSeconds
      ↔ inTime ∧ admitted ∧ challenged ∧ consistent := by
    constructor
    · rintro ⟨hdrift, hadmits, ⟨hlen, -, hr1⟩, hfresh, ⟨hcan, hidi, htime⟩⟩
      exact ⟨hdrift, hadmits, ⟨hlen, hr1, hfresh⟩, fun i hi => (hcan i hi).2, hidi, htime⟩
    · rintro ⟨hdrift, hadmits, ⟨hlen, hr1, hfresh⟩, hzero, hidi, htime⟩
      have hcan : ∀ i < 3, CanonicalLimb (att.scalarBytes i) :=
        fun i hi => ⟨att.scalarBytes_length hi, hzero i hi⟩
      exact ⟨hdrift, hadmits, ⟨hlen, hcan 1 (by decide), hr1⟩, hfresh, ⟨hcan, hidi, htime⟩⟩
  refine ⟨⟨?_, ?_⟩, ?_, ?_, verifyAndClaim_namedFaults gate att presentedR1 nowSeconds⟩
  · rintro ⟨⟨idi, gate'⟩, h⟩
    obtain ⟨hpres, hproof, -⟩ := verifyAndClaim_result_eq_ok h
    obtain ⟨h1, h2, h3, h4⟩ := hpresentable.mp hpres
    exact ⟨h1, h2, h3, h4, hproof⟩
  · rintro ⟨h1, h2, h3, h4, hproof⟩
    obtain ⟨gate', h⟩ := exists_verifyAndClaim_result (hpresentable.mpr ⟨h1, h2, h3, h4⟩) hproof
    exact ⟨_, h⟩
  · intro idi gate' h
    obtain ⟨hpres, -, rfl, -⟩ := verifyAndClaim_result_eq_ok h
    exact ⟨hpres.envelope.idi_eq.symm, hpres.admitted⟩
  · intro pairing h
    obtain ⟨hpres, -, hinputs, hpoints⟩ := mem_verifyAndClaim_trace h
    obtain ⟨h1, h2, h3, h4⟩ := hpresentable.mp hpres
    exact ⟨h1, h2, h3, h4, hinputs, hpoints⟩

end Gate

end SuiCash.Sui
