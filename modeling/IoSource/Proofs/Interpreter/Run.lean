import IoSource.Interpreter.Bridge
import IoSource.Proofs.Run

/-!
# Calls of a bridge

What a call does to a session is said once for each program (`run_sendRaw`, `run_sendRegion`), and
all calls send a fragment in the same way (`BridgeCall.run_eq`).
-/

namespace IoSource

variable {σ ε : Type} {sender : Sender σ ε} {normalizer : Text → Text} {session : Session σ}

theorem run_sendRaw (payload : Text) :
    (Bridge.sendRaw sender payload).run.run session =
      match sender.deliver session.receiver payload with
      | .ok receiver => (.ok (), { session with receiver })
      | .error reason => (.error (.refused reason), session) := by
  have hget : (get : Bridge σ ε (Session σ)).run.run session = (.ok session, session) := rfl
  rw [Bridge.sendRaw, run_bind, hget]
  dsimp only
  cases sender.deliver session.receiver payload with
  | ok receiver => rfl
  | error reason => rfl

/-- **What sending a fragment does.**  An empty payload does not reach the sender, and one that the
sender refuses leaves the session as it is. -/
theorem run_sendRegion (fragment : Text) :
    (Bridge.sendRegion sender normalizer fragment).run.run session =
      if normalizer fragment = [] then (.ok [], session)
      else match sender.deliver session.receiver (normalizer fragment) with
        | .ok receiver => (.ok (normalizer fragment), ⟨receiver, session.sent + 1⟩)
        | .error reason => (.error (.refused reason), session) := by
  by_cases hempty : normalizer fragment = []
  · rw [Bridge.sendRegion, if_pos hempty, if_pos hempty, hempty]
    rfl
  · rw [Bridge.sendRegion, if_neg hempty, if_neg hempty, run_bind, run_sendRaw]
    cases sender.deliver session.receiver (normalizer fragment) with
    | ok receiver => rfl
    | error reason => rfl

/-! ### Calls -/

inductive BridgeCall
  | region (fragment : Text)
  | buffer (text : Text)
  | line (lines : List Text) (index : Int)
  deriving DecidableEq, Repr

namespace BridgeCall

def run (sender : Sender σ ε) (normalizer : Text → Text) : BridgeCall → Bridge σ ε Text
  | region fragment => Bridge.sendRegion sender normalizer fragment
  | buffer text => Bridge.sendBuffer sender normalizer text
  | line lines index => Bridge.sendLine sender normalizer lines index

def fragment : BridgeCall → Except EditError Text
  | region fragment => .ok fragment
  | buffer text => .ok text
  | line lines index => bufferLine lines index

theorem run_eq (call : BridgeCall) :
    call.run sender normalizer =
      match call.fragment with
      | .ok fragment => Bridge.sendRegion sender normalizer fragment
      | .error cause => throw (.line cause) := by
  cases call with
  | region fragment => rfl
  | buffer text => rfl
  | line lines index => rfl

def returned (normalizer : Text → Text) (call : BridgeCall) : Except (BridgeError ε) Text :=
  (call.fragment.map normalizer).mapError .line

end BridgeCall

/-! ### Payloads -/

/-- The payloads that calls have returned, without the empty ones. -/
def payloads (results : List (Except (BridgeError ε) Text)) : List Text :=
  (results.filterMap Except.toOption).filter (· ≠ [])

theorem payloads_append (results later : List (Except (BridgeError ε) Text)) :
    payloads (results ++ later) = payloads results ++ payloads later := by
  rw [payloads, List.filterMap_append, List.filter_append]
  rfl

@[simp] theorem payloads_error (cause : BridgeError ε) :
    payloads [(.error cause : Except (BridgeError ε) Text)] = [] := rfl

@[simp] theorem payloads_empty : payloads [(.ok [] : Except (BridgeError ε) Text)] = [] := rfl

theorem payloads_ok {payload : Text} (h : payload ≠ []) :
    payloads [(.ok payload : Except (BridgeError ε) Text)] = [payload] := by
  simp [payloads, Except.toOption, h]

end IoSource
