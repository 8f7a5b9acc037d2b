import SuiCash.Lib.Bytes
import SuiCash.Lib.Fallible
import SuiCash.Lib.Stateful

/-!
# Reading from a transport that delivers packets

`usb-poc/vendor/felica/src/driver/io.rs`, with the errors of `driver/errors.rs`.

A transport is what it will do: the packets that will arrive, the times at which nothing
does, how the next writes end.  A driver reads a frame in pieces of known length and keeps
what it did not ask for.  `stream` is what such a reader sees, the buffered bytes and all
that arrives before the first interruption, and `readExactFrom_eq_ok` reads from it: where
the packets end makes no difference.
-/

namespace SuiCash.Reader

open Bytes

/-! ### Errors -/

inductive IoError where
  | TimedOut
  | other (message : String)
  deriving DecidableEq

inductive CommunicationError where
  | Transmission (message : String)
  | Timeout (message : String)
  | BrokenLink (message : String)
  deriving DecidableEq

structure CommunicationFault where
  errno : UInt32
  deriving DecidableEq

inductive ChipsetError where
  | Status (code : UInt8)
  | Fault (fault : CommunicationFault)
  deriving DecidableEq

inductive DriverError where
  | Communication (e : CommunicationError)
  | Chipset (e : ChipsetError)
  | Io (e : IoError)
  | Other (message : String)
  deriving DecidableEq

/-! ### Transports -/

/-- What comes of one read: a packet, the transport's own timeout, another error of it, or
the deadline, which passes before the read. -/
inductive Arrival where
  | packet (bytes : List UInt8)
  | timedOut
  | failed (message : String)
  | elapsed
  deriving DecidableEq

structure Transport where
  /-- What comes of the next reads; after the last of them nothing arrives. -/
  arrivals : List Arrival
  /-- How the next writes end; after the last of them all succeed. -/
  refusals : List (Option IoError)
  written : List (List UInt8)
  deriving DecidableEq

namespace Transport

def write (t : Transport) (data : List UInt8) : Except IoError Unit × Transport :=
  match t.refusals with
  | [] => (.ok (), { t with written := t.written ++ [data] })
  | none :: refusals => (.ok (), ⟨t.arrivals, refusals, t.written ++ [data]⟩)
  | some e :: refusals => (.error e, { t with refusals := refusals })

end Transport

/-! ### Reads of an exact length -/

/-- Moves buffered bytes into `out` until it holds `len` bytes or the buffer is
exhausted. -/
def takeFromBuffer (len : ℕ) : List UInt8 → List UInt8 → List UInt8 × List UInt8
  | buffer@(byte :: rest), out =>
    if out.length < len then takeFromBuffer len rest (out ++ [byte]) else (buffer, out)
  | [], out => ([], out)

/-- What is read, and the arrivals and the buffer that are left. -/
def readExactFrom (len : ℕ) (buffer out : List UInt8) :
    List Arrival → Except DriverError (List UInt8) × List Arrival × List UInt8
  | [] =>
    let (buffer, out) := takeFromBuffer len buffer out
    if out.length = len then (.ok out, [], buffer) else (.error (.Io .TimedOut), [], buffer)
  | arrival :: arrivals =>
    let (buffer, out) := takeFromBuffer len buffer out
    if out.length = len then (.ok out, arrival :: arrivals, buffer)
    else
      match arrival with
      | .elapsed | .timedOut => (.error (.Io .TimedOut), arrivals, buffer)
      | .failed message => (.error (.Io (.other message)), arrivals, buffer)
      | .packet bytes => readExactFrom len (buffer ++ bytes) out arrivals

/-- Discards pending input, stopping on the first empty read or timeout. -/
def drainInput : List Arrival → List Arrival
  | [] => []
  | .elapsed :: arrivals | .timedOut :: arrivals | .packet [] :: arrivals => arrivals
  | .packet (_ :: _) :: arrivals | .failed _ :: arrivals => drainInput arrivals

/-! ### The stream -/

def incoming : List Arrival → List UInt8
  | .packet bytes :: arrivals => bytes ++ incoming arrivals
  | [] | .timedOut :: _ | .failed _ :: _ | .elapsed :: _ => []

def interruption : List Arrival → List Arrival
  | .packet _ :: arrivals => interruption arrivals
  | arrivals => arrivals

def endsWith : List Arrival → DriverError
  | .failed message :: _ => .Io (.other message)
  | _ => .Io .TimedOut

theorem takeFromBuffer_eq (len : ℕ) (buffer out : List UInt8) :
    takeFromBuffer len buffer out
      = (buffer.drop (len - out.length), out ++ buffer.take (len - out.length)) := by
  induction buffer generalizing out with
  | nil => simp [takeFromBuffer]
  | cons byte rest ih =>
    rw [takeFromBuffer]
    split
    · rename_i hlt
      obtain ⟨n, hn⟩ : ∃ n, len - out.length = n + 1 := ⟨len - out.length - 1, by omega⟩
      have hn' : len - (out ++ [byte]).length = n := by
        rw [List.length_append, List.length_singleton]
        omega
      rw [ih, hn, hn', List.drop_succ_cons, List.take_succ_cons, List.append_assoc,
        List.singleton_append]
    · rename_i hge
      rw [Nat.sub_eq_zero_of_le (Nat.le_of_not_lt hge), List.drop_zero, List.take_zero,
        List.append_nil]

section ReadExact

variable {len : ℕ} {buffer out : List UInt8} {arrivals : List Arrival}

theorem readExactFrom_of_le (hout : out.length ≤ len) (h : len - out.length ≤ buffer.length) :
    readExactFrom len buffer out arrivals
      = (.ok (out ++ buffer.take (len - out.length)), arrivals,
        buffer.drop (len - out.length)) := by
  have hlen : (out ++ buffer.take (len - out.length)).length = len := by
    rw [List.length_append, List.length_take_of_le h, Nat.add_sub_cancel' hout]
  cases arrivals <;> simp only [readExactFrom, takeFromBuffer_eq, if_pos hlen]

/-- The buffer is emptied, and the transport is read. -/
theorem readExactFrom_of_lt (h : buffer.length < len - out.length) :
    readExactFrom len buffer out arrivals
      = match arrivals with
        | .packet bytes :: arrivals => readExactFrom len bytes (out ++ buffer) arrivals
        | arrivals => (.error (endsWith arrivals), arrivals.tail, []) := by
  have htake : buffer.take (len - out.length) = buffer := List.take_of_length_le (Nat.le_of_lt h)
  have hdrop : buffer.drop (len - out.length) = [] := List.drop_of_length_le (Nat.le_of_lt h)
  have hlen : ¬ (out ++ buffer).length = len := by
    rw [List.length_append]
    omega
  cases arrivals with
  | nil => simp only [readExactFrom, takeFromBuffer_eq, htake, hdrop, if_neg hlen]; rfl
  | cons arrival arrivals =>
    cases arrival <;> simp only [readExactFrom, takeFromBuffer_eq, htake, hdrop, if_neg hlen] <;> rfl

/-- **A read takes its bytes off the stream**, and leaves the rest of it. -/
theorem readExactFrom_eq_ok (hout : out.length ≤ len)
    (h : len - out.length ≤ (buffer ++ incoming arrivals).length) :
    ∃ arrivals' buffer', readExactFrom len buffer out arrivals
        = (.ok (out ++ (buffer ++ incoming arrivals).take (len - out.length)), arrivals', buffer')
      ∧ buffer' ++ incoming arrivals' = (buffer ++ incoming arrivals).drop (len - out.length)
      ∧ interruption arrivals' = interruption arrivals := by
  induction arrivals generalizing buffer out with
  | nil =>
    have hstream : buffer ++ incoming [] = buffer := List.append_nil buffer
    rw [hstream] at h ⊢
    exact ⟨[], _, readExactFrom_of_le hout h, List.append_nil _, rfl⟩
  | cons arrival arrivals ih =>
    by_cases hbuffer : len - out.length ≤ buffer.length
    · rw [List.take_append_of_le_length hbuffer, List.drop_append_of_le_length hbuffer]
      exact ⟨_, _, readExactFrom_of_le hout hbuffer, rfl, rfl⟩
    · rw [readExactFrom_of_lt (Nat.lt_of_not_le hbuffer)]
      cases arrival with
      | packet bytes =>
        have hn : len - (out ++ buffer).length = len - out.length - buffer.length := by
          rw [List.length_append, Nat.sub_add_eq]
        have hstream : buffer ++ incoming (.packet bytes :: arrivals)
            = buffer ++ (bytes ++ incoming arrivals) := rfl
        rw [hstream, List.length_append] at h
        have hout' : (out ++ buffer).length ≤ len := by
          rw [List.length_append]
          omega
        have h' : len - (out ++ buffer).length ≤ (bytes ++ incoming arrivals).length := by
          rw [hn]
          omega
        obtain ⟨arrivals', buffer', hread, hrest, hint⟩ := ih hout' h'
        refine ⟨arrivals', buffer', hread.trans ?_, hrest.trans ?_, hint⟩
        · rw [hn, hstream, List.append_assoc, @List.take_append _ buffer,
            List.take_of_length_le (Nat.le_of_not_le hbuffer)]
        · rw [hn, hstream, @List.drop_append _ buffer,
            List.drop_of_length_le (Nat.le_of_not_le hbuffer), List.nil_append]
      | timedOut | failed _ | elapsed =>
        exact absurd (by simpa [incoming] using h) hbuffer

/-- A stream that is too short is drained, and the read ends with the interruption. -/
theorem readExactFrom_eq_error
    (h : (buffer ++ incoming arrivals).length < len - out.length) :
    readExactFrom len buffer out arrivals
      = (.error (endsWith (interruption arrivals)), (interruption arrivals).tail, []) := by
  have hbuffer : buffer.length < len - out.length := by
    rw [List.length_append] at h
    omega
  induction arrivals generalizing buffer out with
  | nil => exact readExactFrom_of_lt hbuffer
  | cons arrival arrivals ih =>
    rw [readExactFrom_of_lt hbuffer]
    cases arrival with
    | packet bytes =>
      have hstream : buffer ++ incoming (.packet bytes :: arrivals)
          = buffer ++ (bytes ++ incoming arrivals) := rfl
      rw [hstream, List.length_append, List.length_append] at h
      exact ih (by rw [List.length_append, List.length_append]; omega)
        (by rw [List.length_append]; omega)
    | timedOut | failed _ | elapsed => rfl

end ReadExact

end SuiCash.Reader
