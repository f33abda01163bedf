import IoSource.Indent.History
import IoSource.NormalForm

/-!
# The bridge to an interpreter

A sender delivers payloads or refuses them. The bridge gives a fragment its one-line form, delivers
it unless it is empty, and counts deliveries. A run is a program over the count and what the
receiver holds; like an edit it keeps what it did before it failed.
-/

namespace IoSource

/-- Delivers a payload to a receiver in some state, or refuses with a reason. -/
structure Sender (σ ε : Type) where
  deliver : σ → Text → Except ε σ

namespace Sender

/-- Writes each payload as a line of a stream. -/
def lines {ε : Type} : Sender Text ε := ⟨fun written payload => .ok (written ++ payload ++ ['\n'])⟩

/-- Records each payload that it does not refuse. -/
def recorder {ε : Type} (refusal? : Text → Option ε) : Sender (List Text) ε :=
  ⟨fun received payload =>
    match refusal? payload with
    | some reason => .error reason
    | none => .ok (received ++ [payload])⟩

end Sender

/-- The state of a run: what the receiver holds and how many payloads the bridge delivered. -/
structure Session (σ : Type) where
  receiver : σ
  sent : Nat := 0
  deriving DecidableEq, Repr

/-- Why a step of a run fails. -/
inductive BridgeError (ε : Type)
  /-- There is no line to send. -/
  | line (cause : EditError)
  | refused (reason : ε)

abbrev Bridge (σ ε : Type) := ExceptT (BridgeError ε) (StateM (Session σ))

namespace Bridge

variable {σ ε : Type}

/-- Deliver a payload as it is; this is not counted. -/
def sendRaw (sender : Sender σ ε) (payload : Text) : Bridge σ ε Unit := do
  let session ← get
  match sender.deliver session.receiver payload with
  | .ok receiver => set { session with receiver }
  | .error reason => throw (.refused reason)

/-- Deliver the one-line form of a fragment, unless it is empty. -/
def sendRegion (sender : Sender σ ε) (normalizer : Text → Text) (fragment : Text) :
    Bridge σ ε Text := do
  let payload := normalizer fragment
  if payload = [] then return payload
  sendRaw sender payload
  modify fun session => { session with sent := session.sent + 1 }
  return payload

/-- Deliver a whole buffer as one payload. -/
def sendBuffer (sender : Sender σ ε) (normalizer : Text → Text) (text : Text) : Bridge σ ε Text :=
  sendRegion sender normalizer text

/-- Deliver one line of a buffer; a negative index counts from the end. -/
def sendLine (sender : Sender σ ε) (normalizer : Text → Text) (lines : List Text) (index : Int) :
    Bridge σ ε Text :=
  match bufferLine lines index with
  | .ok line => sendRegion sender normalizer line
  | .error cause => throw (.line cause)

def note (payload : Text) : Text :=
  if payload = [] then "Skipping empty payload".toList
  else "Sending payload (".toList ++ Number.decimal payload.length ++ " chars)".toList

end Bridge

end IoSource
