/-!
# Runs of programs

A program on a state may fail, and keeps what it has done before that.  A run is a list of such
programs on one state, and one that fails leaves its place to the next one.  What a program does is
said once for each program, by `run_bind`, and what a run keeps follows by `runAll_induction`.
-/

namespace IoSource

variable {ε σ α β : Type}

/-- Run programs one after another on one state.  One that fails does not stop those behind it. -/
def runAll : List (ExceptT ε (StateM σ) α) → σ → List (Except ε α) × σ
  | [], state => ([], state)
  | program :: programs, state =>
    let (result, state) := program.run.run state
    let (results, state) := runAll programs state
    (result :: results, state)

theorem runAll_cons (program : ExceptT ε (StateM σ) α) (programs : List (ExceptT ε (StateM σ) α))
    (state : σ) :
    runAll (program :: programs) state =
      ((program.run.run state).1 :: (runAll programs (program.run.run state).2).1,
        (runAll programs (program.run.run state).2).2) := rfl

theorem runAll_concat (programs : List (ExceptT ε (StateM σ) α)) (program : ExceptT ε (StateM σ) α)
    (state : σ) :
    runAll (programs ++ [program]) state =
      ((runAll programs state).1 ++ [(program.run.run (runAll programs state).2).1],
        (program.run.run (runAll programs state).2).2) := by
  induction programs generalizing state with
  | nil => rfl
  | cons first programs ih => rw [List.cons_append, runAll_cons, ih, runAll_cons, List.cons_append]

/-- **What each step keeps, a run keeps.**  The property may speak of the results so far. -/
theorem runAll_induction {P : List (Except ε α) → σ → Prop}
    {programs : List (ExceptT ε (StateM σ) α)} {state : σ} (start : P [] state)
    (step : ∀ program ∈ programs, ∀ results state, P results state →
      P (results ++ [(program.run.run state).1]) (program.run.run state).2) :
    P (runAll programs state).1 (runAll programs state).2 := by
  -- the induction carries the results of the programs that are done
  have hall : ∀ results : List (Except ε α), P results state →
      P (results ++ (runAll programs state).1) (runAll programs state).2 := by
    clear start
    induction programs generalizing state with
    | nil =>
      intro results h
      rwa [runAll, List.append_nil]
    | cons program programs ih =>
      intro results h
      have hfirst := step program List.mem_cons_self results state h
      have hlater := ih (fun p hp => step p (List.mem_cons_of_mem _ hp)) _ hfirst
      rwa [List.append_assoc] at hlater
  exact hall [] start

/-- The second of two programs goes on in the state that the first has left, unless that failed. -/
theorem run_bind (program : ExceptT ε (StateM σ) α) (next : α → ExceptT ε (StateM σ) β)
    (state : σ) :
    (program >>= next).run.run state =
      match program.run.run state with
      | (.ok x, state') => (next x).run.run state'
      | (.error e, state') => (.error e, state') := by
  have hbind : (program >>= next).run.run state =
      match program.run.run state with
      | (result, state') => (ExceptT.bindCont next result).run state' := rfl
  rw [hbind]
  rcases program.run.run state with ⟨result, state'⟩
  cases result with
  | ok x => rfl
  | error e => rfl

end IoSource
