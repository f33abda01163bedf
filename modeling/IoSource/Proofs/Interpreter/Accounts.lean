import IoSource.Proofs.Interpreter.Run

/-!
# Accounts of a session

A recorder may refuse payloads, and a run may mix calls of the bridge with payloads that go straight
to the recorder.  What a step returns then does not depend on the session (`run_step`), and what it
adds to the session can be read off what it returns (`delivered`, `isCounted`).  So the session
after a run is an account of its results, in which a step that has failed has no entry
(`runAll_steps`).
-/

namespace IoSource

variable {σ ε : Type}

/-- A step of a session: a call of the bridge, or a payload that goes past it. -/
inductive SessionStep
  | call (call : BridgeCall)
  | raw (payload : Text)
  deriving DecidableEq, Repr

namespace SessionStep

/-- A call returns its payload; a payload that goes past the bridge returns nothing. -/
def run (sender : Sender σ ε) (normalizer : Text → Text) :
    SessionStep → Bridge σ ε (Option Text)
  | call c => do return some (← c.run sender normalizer)
  | raw payload => do
    Bridge.sendRaw sender payload
    return none

/-- What becomes of a payload that reaches a recorder. -/
def verdict (refusal? : Text → Option ε) (payload : Text) : Except (BridgeError ε) Unit :=
  match refusal? payload with
  | some reason => .error (.refused reason)
  | none => .ok ()

/-- What a step returns if a recorder refuses some payloads. -/
def outcome (refusal? : Text → Option ε) (normalizer : Text → Text) :
    SessionStep → Except (BridgeError ε) (Option Text)
  | call c =>
    match c.fragment with
    | .error cause => .error (.line cause)
    | .ok fragment =>
      if normalizer fragment = [] then .ok (some [])
      else (verdict refusal? (normalizer fragment)).map fun _ => some (normalizer fragment)
  | raw payload => (verdict refusal? payload).map fun _ => none

/-- The payload that a step has delivered, as its result tells. -/
def delivered : SessionStep → Except (BridgeError ε) (Option Text) → Option Text
  | call _, .ok (some payload) => if payload = [] then none else some payload
  | raw payload, .ok _ => some payload
  | _, _ => none

/-- Whether a step is a call that has returned a payload that is not empty. -/
def isCounted : SessionStep → Except (BridgeError ε) (Option Text) → Bool
  | call _, .ok (some payload) => payload ≠ []
  | _, _ => false

variable {session : Session (List Text)}

/-- Enter what a step has delivered into the accounts. -/
def enter (step : SessionStep) (result : Except (BridgeError ε) (Option Text))
    (session : Session (List Text)) : Session (List Text) :=
  ⟨session.receiver ++ (step.delivered result).toList,
    session.sent + if step.isCounted result then 1 else 0⟩

@[simp] theorem delivered_error (step : SessionStep) (cause : BridgeError ε) :
    step.delivered (.error cause) = none := by
  cases step <;> rfl

@[simp] theorem isCounted_error (step : SessionStep) (cause : BridgeError ε) :
    step.isCounted (.error cause) = false := by
  cases step <;> rfl

theorem enter_error (step : SessionStep) (cause : BridgeError ε) :
    step.enter (.error cause) session = session := by
  simp [enter]

theorem enter_empty (c : BridgeCall) :
    (call c).enter (.ok (some []) : Except (BridgeError ε) _) session = session := by
  simp [enter, delivered, isCounted]

theorem enter_payload (c : BridgeCall) {payload : Text} (h : payload ≠ []) :
    (call c).enter (.ok (some payload) : Except (BridgeError ε) _) session =
      ⟨session.receiver ++ [payload], session.sent + 1⟩ := by
  simp [enter, delivered, isCounted, h]

theorem enter_raw (payload : Text) :
    (raw payload).enter (.ok none : Except (BridgeError ε) _) session =
      ⟨session.receiver ++ [payload], session.sent⟩ := by
  simp [enter, delivered, isCounted]

end SessionStep

open SessionStep

variable {refusal? : Text → Option ε} {normalizer : Text → Text}

/-- **What a step does.**  It returns its outcome and enters it into the accounts. -/
theorem run_step (step : SessionStep) (session : Session (List Text)) :
    (step.run (Sender.recorder refusal?) normalizer).run.run session =
      (step.outcome refusal? normalizer,
        step.enter (step.outcome refusal? normalizer) session) := by
  cases step with
  | call c =>
    rw [SessionStep.run, run_bind, BridgeCall.run_eq, outcome]
    cases c.fragment with
    | error cause => exact congrArg (Prod.mk _) (enter_error _ _).symm
    | ok fragment =>
      dsimp only
      rw [run_sendRegion, verdict]
      by_cases hempty : normalizer fragment = []
      · rw [if_pos hempty, if_pos hempty]
        exact congrArg (Prod.mk _) (enter_empty c).symm
      · rw [if_neg hempty, if_neg hempty]
        simp only [Sender.recorder]
        cases refusal? (normalizer fragment) with
        | some reason => exact congrArg (Prod.mk _) (enter_error _ _).symm
        | none => exact congrArg (Prod.mk _) (enter_payload c hempty).symm
  | raw payload =>
    rw [SessionStep.run, run_bind, run_sendRaw, outcome, verdict]
    simp only [Sender.recorder]
    cases refusal? payload with
    | some reason => exact congrArg (Prod.mk _) (enter_error _ _).symm
    | none => exact congrArg (Prod.mk _) (enter_raw payload).symm

/-- **The accounts of a run.**  Its results are the outcomes of its steps, and each step has made
its entry. -/
theorem runAll_steps (steps : List SessionStep) (session : Session (List Text)) :
    runAll (steps.map (SessionStep.run (Sender.recorder refusal?) normalizer)) session =
      (steps.map (outcome refusal? normalizer),
        ⟨session.receiver ++
            steps.filterMap fun step => step.delivered (step.outcome refusal? normalizer),
          session.sent +
            steps.countP fun step => step.isCounted (step.outcome refusal? normalizer)⟩) := by
  induction steps generalizing session with
  | nil => simp [runAll]
  | cons step steps ih =>
    rw [List.map_cons, runAll_cons, run_step, ih, enter]
    cases hdelivered : step.delivered (step.outcome refusal? normalizer) <;>
      simp [List.countP_cons, hdelivered, Nat.add_assoc, Nat.add_comm]

theorem run_of_outcome_empty {step : SessionStep}
    (h : step.outcome refusal? normalizer = .ok (some [])) {ε' : Type} (sender : Sender σ ε')
    (session : Session σ) :
    (step.run sender normalizer).run.run session = (.ok (some []), session) := by
  cases step with
  | raw payload =>
    rw [outcome, verdict] at h
    cases hpayload : refusal? payload <;> simp [hpayload, Except.map] at h
  | call c =>
    rw [outcome] at h
    rw [SessionStep.run, run_bind, BridgeCall.run_eq]
    cases hfragment : c.fragment with
    | error cause => simp [hfragment] at h
    | ok fragment =>
      by_cases hempty : normalizer fragment = []
      · dsimp only
        rw [run_sendRegion, if_pos hempty]
        rfl
      · simp only [hfragment, if_neg hempty, verdict] at h
        cases hpayload : refusal? (normalizer fragment) <;>
          simp [hpayload, Except.map, hempty] at h

/-- **Deliveries are accounted for exactly once.**  After every step of a run the count and what the
receiver holds are what the results so far say.  A step that fails leaves no trace, and one with an
empty payload does not use the sender, whatever that may be. -/
theorem delivered_exactly_once (refusal? : Text → Option ε) (normalizer : Text → Text)
    (earlier : List SessionStep) (step : SessionStep) (later : List SessionStep) :
    let run (steps : List SessionStep) :=
      runAll (steps.map (SessionStep.run (Sender.recorder refusal?) normalizer)) ⟨[], 0⟩
    let before := run earlier
    let after := run (earlier ++ [step])
    let whole := run (earlier ++ step :: later)
    ∃ result rest,
      after.1 = before.1 ++ [result] ∧
      whole.1 = after.1 ++ rest ∧
      result = step.outcome refusal? normalizer ∧
      after.2.sent = ((earlier ++ [step]).zip after.1).countP (fun e => e.1.isCounted e.2) ∧
      after.2.receiver = ((earlier ++ [step]).zip after.1).filterMap (fun e => e.1.delivered e.2) ∧
      (∀ cause, result = .error cause →
        after.2 = before.2 ∧ run (earlier ++ later) = (before.1 ++ rest, whole.2)) ∧
      (result = .ok (some []) → ∀ {σ ε' : Type} (sender : Sender σ ε') (session : Session σ),
        (step.run sender normalizer).run.run session = (.ok (some []), session)) := by
  intro run before after whole
  have hrun (steps : List SessionStep) : run steps = (_, _) := runAll_steps steps ⟨[], 0⟩
  have hzip (steps : List SessionStep) : steps.zip (run steps).1 =
      steps.map fun s => (s, s.outcome refusal? normalizer) := by
    rw [hrun]
    simpa using List.zip_map' (f := id) (g := outcome refusal? normalizer) (l := steps)
  refine ⟨step.outcome refusal? normalizer, later.map (outcome refusal? normalizer),
    ?_, ?_, rfl, ?_, ?_, ?_, ?_⟩
  · simp [after, before, hrun]
  · simp [after, whole, hrun]
  · rw [hzip, List.countP_map]
    simp only [after, hrun, Nat.zero_add, Function.comp_def]
  · rw [hzip, List.filterMap_map]
    simp only [after, hrun, List.nil_append, Function.comp_def]
  · intro cause hcause
    have hdelivered : step.delivered (step.outcome refusal? normalizer) = none := by
      rw [hcause, delivered_error]
    have hcounted : step.isCounted (step.outcome refusal? normalizer) = false := by
      rw [hcause, isCounted_error]
    simp [after, before, whole, hrun, hdelivered, hcounted]
  · intro hempty σ ε' sender session
    exact run_of_outcome_empty hempty sender session

end IoSource
