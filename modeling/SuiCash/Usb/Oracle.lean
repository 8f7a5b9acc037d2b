import SuiCash.Facepay.Attestation
import SuiCash.Usb.Card

/-!
# The oracle's client

`usb-poc/src/oracle.rs`: three JSON-RPC calls, each a reply or one of four failures.  The
oracle is on the other side and may answer anything.
-/

namespace SuiCash.Usb

open Fallible
open Facepay (AttestResult)

structure Challenge where
  c1a : String
  systemCode : UInt16
  areas : List UInt16
  services : List UInt16
  deriving DecidableEq

structure Settle where
  c2b : String
  deriving DecidableEq

structure RpcError where
  code : ℤ
  message : String
  deriving DecidableEq

structure Reply (T : Type) where
  result : Option T
  error : Option RpcError

/-- What comes back over HTTP: an error of the transport, which a status other than success
is as well, a body that is no reply, or a reply. -/
inductive Posted (T : Type) where
  | unsent (e : String)
  | undecoded (e : String)
  | reply (r : Reply T)

/-- The other side of the three calls. -/
structure Oracle where
  base : String
  postChallenge : (idm r1 : String) → Posted Challenge
  postSettle : (idm r1 c1b c2a : String) → Posted Settle
  postAttest : (idm c1b c2a auth2 : String) → Posted AttestResult

namespace Oracle

variable (oracle : Oracle)

/-- A reply with an error in it is a failure, whatever its result. -/
def call {T : Type} (method : String) : Posted T → Reading T
  | .unsent e => .error (.error ⟨s!"POST {method} to {oracle.base}", some e⟩)
  | .undecoded e => .error (.error ⟨s!"decoding the {method} reply", some e⟩)
  | .reply r =>
    match r.error with
    | some err => bail s!"oracle {method} failed: [{err.code}] {err.message}"
    | none =>
      match r.result with
      | some result => .ok result
      | none => bail s!"oracle {method} returned neither result nor error"

def challenge (idm r1 : String) : Reading Challenge :=
  oracle.call "challenge" (oracle.postChallenge idm r1)

def settle (idm r1 c1b c2a : String) : Reading Settle :=
  oracle.call "settle" (oracle.postSettle idm r1 c1b c2a)

def attest (idm c1b c2a auth2 : String) : Reading AttestResult :=
  oracle.call "attest" (oracle.postAttest idm c1b c2a auth2)

end Oracle

/-! ### A card that remembers -/

section Perform

open Device

variable {σ α : Type} (device : List UInt8 × UInt16 → σ → Except String (List UInt8) × σ)

/-- A command that fits and is answered ends in what is read of the answer. -/
theorem perform_command {payload rx : List UInt8} {timeoutMs : UInt16} {read : List UInt8 → Reading α}
    {s s' : σ} (h : payload.length + 1 ≤ 0xFF)
    (hanswer : device (UInt8.ofNat (payload.length + 1) :: payload, timeoutMs) s = (.ok rx, s')) :
    (command payload timeoutMs read).perform device s = (read rx, s') := by
  have hframe : frame payload = .ok (UInt8.ofNat (payload.length + 1) :: payload) :=
    if_neg (Nat.not_lt.mpr h)
  rw [command, Program.perform_bind, hframe]
  show Program.perform device (transceive _ timeoutMs >>= _) s = _
  rw [Program.perform_bind]
  have hrx : (transceive (UInt8.ofNat (payload.length + 1) :: payload) timeoutMs).perform device s
      = (.ok rx, s') := Program.perform_ask hanswer _
  exact (Stateful.bind_of_ok hrx).trans rfl

end Perform

end SuiCash.Usb
