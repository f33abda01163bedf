import IoSource.Proofs.Interpreter.Run
import IoSource.Proofs.NormalForm.Normal
import IoSource.Proofs.Text.Pieces

/-!
# Lines of a stream

A sender of lines refuses nothing, so what stands on the stream and the count are functions of the
payloads that have been returned (`Framed`).  This holds with any normalizer.  That the payloads can
be read off the stream again needs one that leaves no line break, as the one-line form does.
-/

namespace IoSource

/-! ### What stands on the stream -/

variable {ε : Type} {normalizer : Text → Text}

/-- What a session with a sender of lines holds when calls have returned. -/
structure Framed (results : List (Except (BridgeError ε) Text)) (session : Session Text) :
    Prop where
  stream : session.receiver = (payloads results).flatMap (· ++ ['\n'])
  count : session.sent = (payloads results).length

theorem run_sendRegion_lines (fragment : Text) (session : Session Text) :
    (Bridge.sendRegion (Sender.lines : Sender Text ε) normalizer fragment).run.run session =
      (.ok (normalizer fragment),
        if normalizer fragment = [] then session
        else ⟨session.receiver ++ normalizer fragment ++ ['\n'], session.sent + 1⟩) := by
  rw [run_sendRegion]
  split
  · next hempty => rw [hempty]
  · rfl

theorem fst_run_call (call : BridgeCall) (session : Session Text) :
    ((call.run (Sender.lines : Sender Text ε) normalizer).run.run session).1 =
      call.returned normalizer := by
  rw [BridgeCall.run_eq, BridgeCall.returned]
  cases call.fragment with
  | error cause => rfl
  | ok fragment =>
    dsimp only
    rw [run_sendRegion_lines]
    rfl

theorem fst_runAll_calls (calls : List BridgeCall) (session : Session Text) :
    (runAll (calls.map (BridgeCall.run (Sender.lines : Sender Text ε) normalizer)) session).1 =
      calls.map (BridgeCall.returned normalizer) := by
  induction calls generalizing session with
  | nil => rfl
  | cons call calls ih =>
    rw [List.map_cons, List.map_cons, ← ih, ← fst_run_call call session]
    rfl

namespace Framed

variable {results : List (Except (BridgeError ε) Text)} {session : Session Text}

theorem of_no_payload (h : Framed results session) {result : Except (BridgeError ε) Text}
    (hnone : payloads [result] = []) : Framed (results ++ [result]) session := by
  refine ⟨?_, ?_⟩
  · rw [payloads_append, hnone, List.append_nil, h.stream]
  · rw [payloads_append, hnone, List.append_nil, h.count]

theorem of_payload (h : Framed results session) {payload : Text} (hne : payload ≠ []) :
    Framed (results ++ [.ok payload])
      ⟨session.receiver ++ payload ++ ['\n'], session.sent + 1⟩ := by
  have hpayloads : payloads (results ++ [.ok payload]) = payloads results ++ [payload] := by
    rw [payloads_append, payloads_ok hne]
  refine ⟨?_, ?_⟩
  · rw [hpayloads, List.flatMap_append, ← h.stream, List.flatMap_singleton, List.append_assoc]
  · rw [hpayloads, List.length_append, ← h.count, List.length_singleton]

/-- One more call keeps the session framed, whether it fails, sends nothing or sends a line. -/
theorem run_call (h : Framed results session) (call : BridgeCall) :
    let run := (call.run (Sender.lines : Sender Text ε) normalizer).run.run session
    Framed (results ++ [run.1]) run.2 := by
  rw [BridgeCall.run_eq]
  cases call.fragment with
  | error cause => exact h.of_no_payload (payloads_error _)
  | ok fragment =>
    dsimp only
    rw [run_sendRegion_lines]
    by_cases hempty : normalizer fragment = []
    · rw [if_pos hempty, hempty]
      exact h.of_no_payload payloads_empty
    · rw [if_neg hempty]
      exact h.of_payload hempty

end Framed

theorem framed_runAll (calls : List BridgeCall) :
    let run := runAll (calls.map (BridgeCall.run (Sender.lines : Sender Text ε) normalizer)) ⟨[], 0⟩
    Framed run.1 run.2 := by
  apply runAll_induction (P := Framed)
  · exact ⟨rfl, rfl⟩
  · intro program hprogram results session h
    obtain ⟨call, -, rfl⟩ := List.mem_map.mp hprogram
    exact h.run_call call

/-! ### What can be read off it -/

/-- The payloads are the one-line forms of the fragments that hold anything outside comments. -/
theorem payloads_returned (calls : List BridgeCall) :
    payloads (calls.map (BridgeCall.returned (ε := ε) Text.normalize)) =
      ((calls.filterMap (·.fragment.toOption)).filter fun t => !(Comment.erase t).isWhite).map
        Text.normalize := by
  have hreturned (call : BridgeCall) :
      (call.returned (ε := ε) Text.normalize).toOption =
        call.fragment.toOption.map Text.normalize := by
    rw [BridgeCall.returned]
    cases call.fragment with
    | error cause => rfl
    | ok fragment => rfl
  have hempty (t : Text) : decide (Text.normalize t ≠ []) = !(Comment.erase t).isWhite := by
    simp [Text.normalize_eq_nil_iff]
  rw [payloads, List.filterMap_map]
  simp only [Function.comp_def, hreturned]
  rw [← List.map_filterMap, List.filter_map]
  simp only [Function.comp_def, hempty]

/-- **Each fragment that holds anything outside comments is one line of the stream.** -/
theorem stream_framing (calls : List BridgeCall) :
    let run := runAll (calls.map (BridgeCall.run (Sender.lines : Sender Text ε) Text.normalize))
      ⟨[], 0⟩
    run.1 = calls.map (BridgeCall.returned Text.normalize) ∧
      '\r' ∉ run.2.receiver ∧
      run.2.receiver.cutAt '\n' = payloads run.1 ++ [[]] ∧
      run.2.sent = (payloads run.1).length ∧
      payloads run.1 =
        ((calls.filterMap (·.fragment.toOption)).filter fun t => !(Comment.erase t).isWhite).map
          Text.normalize := by
  intro run
  have hreturned : run.1 = calls.map (BridgeCall.returned Text.normalize) :=
    fst_runAll_calls calls ⟨[], 0⟩
  have hframed : Framed run.1 run.2 := framed_runAll calls
  have hplain : ∀ payload ∈ payloads run.1, ∀ c ∈ payload, isLineBreak c = false := by
    intro payload hpayload c hc
    rw [hreturned, payloads_returned] at hpayload
    obtain ⟨fragment, -, rfl⟩ := List.mem_map.mp hpayload
    exact ((Text.isNormal_normalize fragment).plain c hc).1
  refine ⟨hreturned, ?_, ?_, hframed.count, ?_⟩
  · rw [hframed.stream, List.mem_flatMap]
    rintro ⟨payload, hpayload, hmem⟩
    rcases List.mem_append.mp hmem with hmem | hmem
    · exact absurd (hplain payload hpayload _ hmem) (by decide)
    · exact absurd (List.mem_singleton.mp hmem) (by decide)
  · rw [hframed.stream]
    apply Text.cutAt_flatMap
    intro payload hpayload hmem
    exact absurd (hplain payload hpayload _ hmem) (by decide)
  · rw [hreturned, payloads_returned]

end IoSource
