import SuiCash.Prover.Wire

/-!
# Attestations in the hands of a host

What the host daemons make of the oracle's answer, and what the payment helper
`sui-pay.mjs` makes of that: the attestation JSON (`attestation_json`, the same in
both daemons), the wallet derived from an IDi, and the payment transaction with its
`verify` call in front.

The IDi enters a payment twice, as the helper's argument, from which the signing
wallet is derived, and inside the attestation.  `SuiPay.pay_eq_ok` says what the
transaction is when the helper builds one; that the two agree is for the daemons to
see to.
-/

namespace SuiCash.Facepay

open Des Fallible
open Prover (ArkGroth16 Groth16Proof VerifyError proofCompressedBytes publicInputsBytes)

/-! ### The oracle's answer -/

/-- `attest` result as the oracle client reads it. -/
structure AttestResult where
  idi : String
  attestedAt : UInt64
  proof : Groth16Proof
  deriving DecidableEq

/-- The attestation passed to the payment helper. -/
structure AttestationJson where
  idi : String
  attestedAt : UInt64
  r1 : String
  proof : String
  publicInputs : String
  deriving DecidableEq

section Host

variable (ark : ArkGroth16) (toLowercase : String → String)

def attestationJson (att : AttestResult) (r1 : Block) : Except VerifyError AttestationJson := do
  let proof ← proofCompressedBytes ark att.proof
  let pis ← publicInputsBytes att.proof
  .ok ⟨toLowercase att.idi, att.attestedAt, Hex.encode r1.toList, Hex.encode proof, Hex.encode pis⟩

/-- The end of `attest_with_card`: the IDi and the attestation of a card, `none` where
the exchange with card and oracle failed or the proof does not convert. -/
def attestWithCard (exchange : Option (AttestResult × Block)) : Option (String × AttestationJson) :=
  match exchange with
  | none => none
  | some (att, r1) =>
    match attestationJson ark toLowercase att r1 with
    | .error _ => none
    | .ok json => some (toLowercase att.idi, json)

variable {ark toLowercase}

theorem attestWithCard_idi {exchange : Option (AttestResult × Block)} {idi : String}
    {json : AttestationJson} (h : attestWithCard ark toLowercase exchange = some (idi, json)) :
    json.idi = idi := by
  unfold attestWithCard at h
  split at h
  · cases h
  · split at h
    · cases h
    · rename_i hjson
      cases h
      unfold attestationJson at hjson
      obtain ⟨proof, -, hjson⟩ := bind_eq_ok.mp hjson
      obtain ⟨pis, -, hjson⟩ := bind_eq_ok.mp hjson
      cases hjson
      rfl

theorem attestWithCard_of_json {att : AttestResult} {r1 : Block} {json : AttestationJson}
    (h : attestationJson ark toLowercase att r1 = .ok json) :
    attestWithCard ark toLowercase (some (att, r1)) = some (toLowercase att.idi, json) := by
  simp only [attestWithCard, h]

end Host

def parseU128 (s : String) : Option ℕ :=
  let digits := match s.toList with
    | '+' :: rest => rest
    | cs => cs
  if digits = [] ∨ ¬ digits.all Char.isDigit then none
  else
    let n := digits.foldl (fun n c => 10 * n + (c.toNat - '0'.toNat)) 0
    if n < 2 ^ 128 then some n else none

def contains (s part : String) : Bool := part.toList <:+: s.toList

/-! ### The payment helper -/

/-- What is used of the Sui SDK and of the platform. -/
structure SuiSdk where
  Keypair : Type
  sha256 : List UInt8 → List UInt8
  fromSecretKey : List UInt8 → Keypair
  /-- A JSON number read back as an integer. -/
  number : UInt64 → ℕ

structure GateConfig where
  package : String
  gate : String
  deriving DecidableEq

structure VerifyCall where
  gate : GateConfig
  idi : List UInt8
  attestedAt : ℕ
  proof : List UInt8
  publicInputs : List UInt8
  r1 : List UInt8
  deriving DecidableEq

/-- The payment transaction: `verify` first, then the transfer, signed by one key. -/
structure PaymentTx (sdk : SuiSdk) where
  signer : sdk.Keypair
  verify : VerifyCall
  amount : UInt64
  merchant : String

namespace SuiPay

/-- Hex digits taken two by two; a last odd one is dropped. -/
def bytesOfDigits : List UInt8 → List UInt8
  | hi :: lo :: rest => ((hi <<< 4) ||| lo) :: bytesOfDigits rest
  | _ => []

/-- `hexToBytes`: whatever is no hex digit is left out. -/
def hexToBytes (h : String) : List UInt8 := bytesOfDigits (h.toList.filterMap Hex.digit)

def SEED_DOMAIN : List UInt8 := "suicash-aa-wallet:v1:".toList.map fun c => UInt8.ofNat c.toNat

def deriveKeypair (sdk : SuiSdk) (idiHex : String) : sdk.Keypair :=
  sdk.fromSecretKey (sdk.sha256 (SEED_DOMAIN ++ hexToBytes idiHex))

/-- The injected attestation; `none` if a field is missing or empty. -/
def attestation (raw : Option AttestationJson) : Option AttestationJson :=
  raw.filter fun a => a.idi ≠ "" ∧ a.r1 ≠ "" ∧ a.proof ≠ "" ∧ a.publicInputs ≠ ""

def verifyCall (sdk : SuiSdk) (gate : GateConfig) (att : AttestationJson) : VerifyCall :=
  ⟨gate, hexToBytes att.idi, sdk.number att.attestedAt, hexToBytes att.proof,
    hexToBytes att.publicInputs, hexToBytes att.r1⟩

/-- `pay <idiHex> <amountMist> <merchantAddr>` up to the signature. -/
def pay (sdk : SuiSdk) (gate : Option GateConfig) (idi : String) (amount : UInt64)
    (merchant : String) (att : Option AttestationJson) : Except String (PaymentTx sdk) :=
  if idi = "" then
    .error "usage: <address|balance|verify|pay> <idiHex> [amountMist] [merchant]"
  else
    let kp := deriveKeypair sdk idi
    match gate, attestation att with
    | none, _ => .error "ZK gate not configured (SUICASH_GATE_PKG/SUICASH_GATE_OBJ or gate.json)"
    | _, none => .error "No attestation (SUICASH_ATTESTATION). Payments without a proof are invalid"
    | some gate, some att =>
      if merchant = "" then .error "merchant address required"
      else .ok ⟨kp, verifyCall sdk gate att, amount, merchant⟩

/-- **A payment transaction** is signed by the wallet of the argument, and verifies the
injected attestation. -/
theorem pay_eq_ok {sdk : SuiSdk} {gate : Option GateConfig} {idi merchant : String}
    {amount : UInt64} {att : AttestationJson} {tx : PaymentTx sdk}
    (h : pay sdk gate idi amount merchant (some att) = .ok tx) :
    tx.signer = deriveKeypair sdk idi ∧ ∃ gate, tx.verify = verifyCall sdk gate att := by
  unfold pay at h
  dsimp only at h
  split at h
  · cases h
  · split at h
    · cases h
    · cases h
    · rename_i gate att' hatt
      split at h
      · cases h
      · cases h
        obtain rfl : att = att' := Option.some.inj (Option.filter_eq_some_iff.mp hatt).1
        exact ⟨rfl, gate, rfl⟩

end SuiPay

end SuiCash.Facepay
