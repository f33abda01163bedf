import IoSource.Command.Run
import IoSource.Proofs.Files.Utf8
import IoSource.Proofs.Files.Write
import IoSource.Proofs.Run

/-!
# What a run writes

No command but a cleanup has a change in its outcome (`Task.Keeps`), and a cleanup has one only if
its source is due to be rewritten (`Run.IsDue`).  Then it is for the platform to let the file be
written, or to refuse it before or after it has been opened.  What a task says on the way has a part
in its exit code, but none in this.
-/

namespace IoSource

namespace Task

/-- A task that has no change in its outcome, if it has one. -/
def Keeps (task : Task Outcome) : Prop :=
  ∀ output outcome output', task.run.run output = (.ok outcome, output') → outcome.change? = none

theorem keeps_pure (code : Nat) : Keeps (pure ⟨code, none⟩) := by
  intro output outcome output' h
  cases h
  rfl

theorem keeps_throw (failure : Failure) : Keeps (throw failure) := by
  intro output outcome output' h
  cases h

theorem keeps_bind {α : Type} {task : Task α} {next : α → Task Outcome}
    (h : ∀ x, Keeps (next x)) : Keeps (task >>= next) := by
  intro output outcome output' hrun
  rw [run_bind] at hrun
  split at hrun
  · exact h _ _ _ _ hrun
  · cases hrun

variable [Platform]

variable (tree : FileTree) (config : Configuration)

theorem run_source? (path : Path) (output : Output) :
    (source? tree path).run.run output =
      match tree.status path with
      | .file names content => (.ok (some (.ok (names, content))), output)
      | .unreadable cause => (.ok (some (.error (.refused cause path))), output)
      | .directory =>
        (.ok none, ((log "main" .error (ReportError.message (.notAFile path))).run.run output).2)
      | .missing =>
        (.ok none, ((log "main" .error (ReportError.message (.notFound path))).run.run output).2)
      | .nameTooLong => (.error (.file (.nameTooLong path)), output)
      | .denied cause => (.error (.file (.refused cause path)), output) := by
  unfold source?
  cases tree.status path <;> rfl

/-- What a cleanup says is taken, or there is nothing to say. -/
def IsHeard (quiet : Bool) (what : String) (path : Path) : Prop :=
  quiet = true ∨ Platform.outputFault? (what.toList ++ ':' :: ' ' :: path.text ++ ['\n']) = none

instance (quiet : Bool) (what : String) (path : Path) : Decidable (IsHeard quiet what path) :=
  inferInstanceAs (Decidable (_ ∨ _))

/-- How a rewriting ends. -/
def rewritten (quiet : Bool) (path : Path) (names : List Text) (content : Utf8.Bytes) : Outcome :=
  match Platform.refusal? .write names with
  | none => ⟨if IsHeard quiet "Cleaned" path then 0 else 1, some ⟨names, content⟩⟩
  | some cause => ⟨1, cause.passed?.map fun count => ⟨names, content.take count⟩⟩

theorem run_print (t : Text) (output : Output) :
    (print t).run.run output =
      match Platform.outputFault? t with
      | some fault => (.ok (some fault), output)
      | none => (.ok none, { output with stdout := output.stdout ++ t }) := by
  unfold print
  cases Platform.outputFault? t <;> rfl

theorem exists_run_say (quiet : Bool) (what : String) (path : Path) (output : Output) :
    ∃ fault? output', (say quiet what path).run.run output = (.ok fault?, output') ∧
      output'.entries = output.entries ∧ (fault? = none ↔ IsHeard quiet what path) := by
  unfold say IsHeard
  cases quiet with
  | true => exact ⟨none, output, rfl, rfl, by simp⟩
  | false =>
    rw [if_neg (by decide), printLine, run_print]
    cases Platform.outputFault? _ with
    | none => exact ⟨none, _, rfl, rfl, by simp⟩
    | some fault => exact ⟨some fault, _, rfl, rfl, by simp⟩

theorem fst_run_report (quiet : Bool) (what : String) (path : Path) (outcome : Outcome)
    (output : Output) :
    ((report quiet what path outcome).run.run output).1 =
      .ok { outcome with code := if IsHeard quiet what path then outcome.code else 1 } := by
  obtain ⟨fault?, output', hrun, -, hheard⟩ := exists_run_say quiet what path output
  rw [report, run_bind, hrun]
  cases fault? with
  | none =>
    rw [if_pos (hheard.mp rfl)]
    rfl
  | some fault =>
    rw [if_neg fun h => Option.some_ne_none _ (hheard.mpr h)]
    rfl

theorem fst_run_rewrite (quiet : Bool) (path : Path) (names : List Text) (content : Utf8.Bytes)
    (output : Output) :
    ((rewrite quiet path names content).run.run output).1 =
      .ok (rewritten quiet path names content) := by
  unfold rewrite rewritten
  cases Platform.refusal? .write names with
  | none => exact fst_run_report _ _ _ _ _
  | some cause => rfl

/-- **What a cleanup comes to.** -/
theorem fst_run_cleanup (quiet : Bool) (path : Path) (force check : Bool) (output : Output) :
    ((cleanup tree config quiet path force check).run.run output).1 =
      match tree.status path with
      | .file names content =>
        if check || force || config.holds "strip_whitespace_on_save" then
          match Utf8.decode content with
          | .ok text =>
            .ok (if text.cleanUp = text then ⟨0, none⟩
              else if check then ⟨1, none⟩
              else rewritten quiet path names (Utf8.encode text.cleanUp))
          | .error _ => .ok ⟨1, none⟩
        else .ok ⟨0, none⟩
      | .unreadable _ =>
        .ok ⟨if check || force || config.holds "strip_whitespace_on_save" then 1 else 0, none⟩
      | .directory | .missing => .ok ⟨1, none⟩
      | .nameTooLong => .error (.file (.nameTooLong path))
      | .denied cause => .error (.file (.refused cause path)) := by
  unfold cleanup
  rw [run_bind, run_source?]
  cases tree.status path with
  | directory | missing | nameTooLong | denied => rfl
  | unreadable cause =>
    dsimp only
    cases check || force || config.holds "strip_whitespace_on_save" <;> rfl
  | file names content =>
    dsimp only
    cases check || force || config.holds "strip_whitespace_on_save" with
    | false => rfl
    | true =>
      cases Utf8.decode content with
      | error m => rfl
      | ok text =>
        dsimp only
        by_cases hclean : text.cleanUp = text
        · rw [if_pos hclean, if_pos hclean]
          rfl
        · rw [if_neg hclean, if_neg hclean]
          cases check with
          | true =>
            have hreport := fst_run_report quiet "Would clean" path ⟨1, none⟩ output
            rwa [ite_self] at hreport
          | false => exact fst_run_rewrite _ _ _ _ _

end Task

/-! ### Runs -/

namespace Run

variable [Platform] {tree : FileTree} {input : Utf8.Bytes} {arguments : List Text}
  {command : Command} {path : Path} {config? : Option Path} {volume : Volume}
  {config : Configuration} {level : Level}

theorem ending_ofCommand (h : setUp tree config? volume = .ok (config, level)) :
    (ofCommand tree input command config? volume).ending =
      ((Task.ofCommand tree config input (volume = .quiet) command).run.run {}).1.map
        Outcome.code := by
  unfold ofCommand
  rw [h]
  dsimp only
  rcases (Task.ofCommand tree config input (volume = .quiet) command).run.run {} with ⟨result, _⟩
  cases result <;> rfl

theorem tree_ofCommand (h : setUp tree config? volume = .ok (config, level)) :
    (ofCommand tree input command config? volume).tree =
      match ((Task.ofCommand tree config input (volume = .quiet) command).run.run {}).1 with
      | .ok outcome => changed tree outcome.change?
      | .error _ => tree := by
  unfold ofCommand
  rw [h]
  dsimp only
  rcases (Task.ofCommand tree config input (volume = .quiet) command).run.run {} with ⟨result, _⟩
  cases result <;> rfl

/-- A command line asks for a cleanup, the log has its level, and the source is a file that holds a
text. -/
def CleansUp (tree : FileTree) (arguments : List Text) (path : Path) (force check : Bool)
    (volume : Volume) (config : Configuration) (names : List Text) (text : Text) : Prop :=
  ∃ config? level content,
    Request.ofArguments arguments = .run (.cleanup path force check) config? volume ∧
    setUp tree config? volume = .ok (config, level) ∧
    tree.status path = .file names content ∧ Utf8.decode content = .ok text

/-- A cleanup is no check and is wanted, and the text is not clean. -/
def IsDue (tree : FileTree) (arguments : List Text) (path : Path) (volume : Volume)
    (names : List Text) (text : Text) : Prop :=
  ∃ force config, CleansUp tree arguments path force false volume config names text ∧
    text.cleanUp ≠ text ∧ (force = true ∨ config.holds "strip_whitespace_on_save" = true)

/-- A rewriting is due, and the platform lets the file be written. -/
def Rewrites (tree : FileTree) (arguments : List Text) (names : List Text) (text : Text) : Prop :=
  (∃ path volume, IsDue tree arguments path volume names text) ∧
    Platform.refusal? .write names = none

theorem ofArguments_eq (h : Request.ofArguments arguments = .run command config? volume) :
    ofArguments tree input arguments = ofCommand tree input command config? volume := by
  rw [ofArguments, h]

variable {force : Bool} {names : List Text} {text : Text}

theorem ending_of_check (h : CleansUp tree arguments path force true volume config names text)
    (input : Utf8.Bytes) :
    (ofArguments tree input arguments).ending = .ok (if text.cleanUp = text then 0 else 1) := by
  obtain ⟨config?, level, content, hrequest, hsetUp, hstatus, hdecode⟩ := h
  rw [ofArguments_eq hrequest, ending_ofCommand hsetUp, Task.ofCommand, Task.fst_run_cleanup,
    hstatus]
  simp only [Bool.true_or, if_true, hdecode, Except.map]
  split <;> rfl

/-- A rewriting that is due ends as the platform lets it. -/
theorem ofArguments_of_isDue (h : IsDue tree arguments path volume names text)
    (input : Utf8.Bytes) :
    let outcome := Task.rewritten (volume = .quiet) path names (Utf8.encode text.cleanUp)
    (ofArguments tree input arguments).ending = .ok outcome.code ∧
      (ofArguments tree input arguments).tree = changed tree outcome.change? := by
  obtain ⟨force, config, ⟨config?, level, content, hrequest, hsetUp, hstatus, hdecode⟩, hdirty,
    hwanted⟩ := h
  have hwanted : (false || force || config.holds "strip_whitespace_on_save") = true := by
    simpa using hwanted
  rw [ofArguments_eq hrequest, ending_ofCommand hsetUp, tree_ofCommand hsetUp, Task.ofCommand,
    Task.fst_run_cleanup, hstatus]
  simp only [hwanted, if_true, hdecode, if_neg hdirty]
  exact ⟨rfl, rfl⟩

theorem tree_of_isDue (h : IsDue tree arguments path volume names text)
    (hlet : Platform.refusal? .write names = none) (input : Utf8.Bytes) :
    (ofArguments tree input arguments).tree = tree.write names (Utf8.encode text.cleanUp) := by
  rw [(ofArguments_of_isDue h input).2, Task.rewritten, hlet]
  rfl

end Run

/-- A tree of one file, `a`. -/
def oneFile (t : Text) : FileTree := ⟨[], [([['a']], .file (Utf8.encode t))]⟩

open Platform.Usual in
theorem isDue_oneFile :
    Run.IsDue (oneFile ['x', ' ', '\n']) ["cleanup".toList, "a".toList] (Path.ofText ['a'])
      .asConfigured [['a']] ['x', ' ', '\n'] := by
  have hwanted : (Run.setUp (oneFile ['x', ' ', '\n']) none .asConfigured).toOption.any
      (fun settings => settings.1.holds "strip_whitespace_on_save") = true := by
    decide +kernel
  cases hsetUp : Run.setUp (oneFile ['x', ' ', '\n']) none .asConfigured with
  | error failure =>
    rw [hsetUp] at hwanted
    exact absurd hwanted (by simp [Except.toOption])
  | ok settings =>
    obtain ⟨config, level⟩ := settings
    rw [hsetUp] at hwanted
    refine ⟨false, config, ?_, by decide, Or.inr hwanted⟩
    exact ⟨none, level, Utf8.encode ['x', ' ', '\n'], by decide +kernel, hsetUp, by decide +kernel,
      by decide +kernel⟩

/-- The usual platform, but all files may only be read. -/
abbrev readOnly : Platform :=
  { Platform.Usual.platform with
    refusal? := fun
      | .write, _ => some ⟨"[Errno 13] Permission denied".toList, none⟩
      | _, _ => none }

example :
    let run := @Run.ofArguments readOnly (oneFile ['x', ' ', '\n']) []
      ["cleanup".toList, "--force".toList, "a".toList]
    run.ending.toOption = some 1 ∧ run.tree = oneFile ['x', ' ', '\n'] := by
  decide +kernel

end IoSource
