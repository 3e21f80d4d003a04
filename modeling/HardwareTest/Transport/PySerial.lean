import HardwareTest.Lib.Program
import HardwareTest.Transport.Console

/-!
# Writing to a local serial port

`PySerialChannel.sendall` offers what is left of the payload to the port until nothing is left.  The port
may take any part of what it is offered, take nothing, or raise.

* `sendall` — the loop and its handler;
* `SerialConnection`, `Line` — any port, and what has been seen of it;
* `sendall_writes_all` — all of the payload is taken, or a prefix of it and the call raises.
-/

namespace HardwareTest.Transport.PySerialChannel

open HardwareTest.Lib HardwareTest.Python

/-- What can be raised: by the serial library, by the system, by the channel, or anything else. -/
inductive Raised
  | serialException (message : Text)
  | osError (message : Text)
  | transportError (message : Text)
  | other (exception : Text)
  deriving DecidableEq

/-- The calls of the channel on its connection. -/
inductive SerialCall
  | write (data : Bytes)

/-- A `write` reports how much it has written, or `None`. -/
abbrev SerialCall.Answer : SerialCall → Type
  | .write _ => Except Raised (Option ℤ)

abbrev Serial (α : Type) := Program SerialCall SerialCall.Answer Raised α

def withoutProgress : Raised := .transportError "Serial write completed without progress".toList

/-- The loop of `sendall`, with the view of what is left. -/
def writeView (view : Bytes) : Serial Unit :=
  if _hview : view = [] then .pure ()
  else
    .call (.write view) fun
      | .error e => .throw e
      | .ok none => .throw withoutProgress
      | .ok (some written) =>
        if _hwritten : written ≤ 0 then .throw withoutProgress
        else writeView (view.drop written.toNat)
termination_by view.length
decreasing_by
  have hpos := List.length_pos_of_ne_nil _hview
  rw [List.length_drop]
  omega

/-- `except (serial.SerialException, OSError)`. -/
def writeFailed : Raised → Raised
  | .serialException _ | .osError _ => .transportError "Serial write failed".toList
  | e => e

/-- `sendall`. -/
def sendall (s : Bytes) : Serial Unit := (writeView s).tryCatch fun e => .throw (writeFailed e)

/-! ## The port -/

/-- A port with any state: what a `write` reports or raises, and the state it leaves. -/
structure SerialConnection (S : Type) where
  write : Bytes → S → Except Raised (Option ℤ) × S

/-- The port during a `sendall`: the pieces it has taken, the calls it has answered, and what it has
raised. -/
structure Line (S : Type) where
  port : S
  accepted : List Bytes
  calls : ℕ
  raised : Option Raised

section Port

variable {S : Type} (connection : SerialConnection S)

/-- The part of the data that is taken with an answer. -/
def piece (data : Bytes) : Except Raised (Option ℤ) → Bytes
  | .ok (some written) => data.take written.toNat
  | _ => []

/-- What is seen of an answer. -/
def Line.after (line : Line S) (data : Bytes) (reported : Except Raised (Option ℤ)) (port : S) : Line S where
  port := port
  accepted := line.accepted ++ [piece data reported]
  calls := line.calls + 1
  raised := match reported with
    | .error e => some e
    | .ok _ => none

/-- The port answers a call. -/
def answer : (call : SerialCall) → Line S → call.Answer × Line S
  | .write data, line =>
    let (reported, port) := connection.write data line.port
    (reported, line.after data reported port)

/-- Before the first call. -/
def Line.fresh (port : S) : Line S := ⟨port, [], 0, none⟩

/-- What the loop raises: what the port has raised last, or that there is no progress. -/
def Line.failure (line : Line S) : Raised := line.raised.getD withoutProgress

/-- **The loop**, from any line: it takes the view piece by piece, and stops early only with an error. -/
theorem writeView_spec (view : Bytes) (line : Line S) :
    ∃ pieces, let (r, line') := (writeView view).eval (answer connection) line
      line'.accepted = line.accepted ++ pieces ∧ line'.calls ≤ line.calls + view.length ∧
        ((r = .ok () ∧ pieces.flatten = view) ∨ (r = .error line'.failure ∧ pieces.flatten <+: view)) := by
  induction view using writeView.induct generalizing line with
  | case1 =>
    rw [writeView, dif_pos rfl]
    exact ⟨[], (List.append_nil _).symm, Nat.le_add_right _ _, .inl ⟨rfl, rfl⟩⟩
  | case2 view hview ih =>
    have hpos := List.length_pos_of_ne_nil hview
    rw [writeView, dif_neg hview, Program.eval_call, answer]
    generalize connection.write view line.port = reply
    obtain ⟨reported, port⟩ := reply
    have hone : line.calls + 1 ≤ line.calls + view.length := by omega
    rcases reported with e | _ | written
    · exact ⟨[[]], rfl, hone, .inr ⟨rfl, List.nil_prefix⟩⟩
    · exact ⟨[[]], rfl, hone, .inr ⟨rfl, List.nil_prefix⟩⟩
    · by_cases hwritten : written ≤ 0
      · have hnone : [view.take written.toNat].flatten = [] := by
          rw [Int.toNat_of_nonpos hwritten, List.take_zero]
          rfl
        simp only [dif_pos hwritten]
        exact ⟨[view.take written.toNat], rfl, hone, .inr ⟨rfl, by rw [hnone]; exact List.nil_prefix⟩⟩
      · simp only [dif_neg hwritten]
        obtain ⟨pieces, haccepted, hcalls, hend⟩ := ih written hwritten (line.after view (.ok (some written)) port)
        refine ⟨view.take written.toNat :: pieces, haccepted.trans (List.append_assoc _ _ _), ?_, ?_⟩
        · rw [List.length_drop] at hcalls
          refine hcalls.trans ?_
          show line.calls + 1 + _ ≤ _
          omega
        · rw [List.flatten_cons]
          rcases hend with ⟨hok, hall⟩ | ⟨herror, hprefix⟩
          · exact .inl ⟨hok, by rw [hall, List.take_append_drop]⟩
          · refine .inr ⟨herror, ?_⟩
            have hwhole := (List.prefix_append_right_inj (view.take written.toNat)).mpr hprefix
            rwa [List.take_append_drop] at hwhole

/-- **Everything is written, or the call raises.**  For every payload and every port: `sendall` makes at
most one call for each byte.  When it returns, the pieces that the port has taken are the payload; when it
raises, they are a prefix of it, and the exception is a `TransportError`, unless the port has raised
something that is no `SerialException` and no `OSError`, which is passed on. -/
theorem sendall_writes_all (port : S) (s : Bytes) :
    let (r, line) := (sendall s).eval (answer connection) (.fresh port)
    line.calls ≤ s.length ∧
      (r = .ok () → line.accepted.flatten = s) ∧
      ∀ e, r = .error e → line.accepted.flatten <+: s ∧
        match line.raised with
        | some (.other exception) => e = .other exception
        | _ => ∃ message, e = .transportError message := by
  obtain ⟨pieces, haccepted, hcalls, hend⟩ := writeView_spec connection s (.fresh port)
  rw [sendall, Program.eval_tryCatch]
  rcases heval : (writeView s).eval (answer connection) (.fresh port) with ⟨r, line⟩
  rw [heval] at haccepted hcalls hend
  have hcount : line.calls ≤ s.length := hcalls.trans_eq (Nat.zero_add _)
  rcases hend with ⟨hok, hall⟩ | ⟨herror, hprefix⟩
  · obtain rfl : r = .ok () := hok
    refine ⟨hcount, fun _ => ?_, nofun⟩
    rw [haccepted]
    exact hall
  · obtain rfl : r = .error line.failure := herror
    refine ⟨hcount, nofun, ?_⟩
    rintro e ⟨⟩
    refine ⟨by rw [haccepted]; exact hprefix, ?_⟩
    show match line.raised with
      | some (.other exception) => writeFailed line.failure = .other exception
      | _ => ∃ message, writeFailed line.failure = .transportError message
    rw [Line.failure]
    rcases line.raised with _ | x
    · exact ⟨_, rfl⟩
    · cases x with
      | serialException message => exact ⟨_, rfl⟩
      | osError message => exact ⟨_, rfl⟩
      | transportError message => exact ⟨_, rfl⟩
      | other exception => rfl

end Port

end HardwareTest.Transport.PySerialChannel
