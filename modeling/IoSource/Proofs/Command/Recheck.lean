import IoSource.Proofs.Cleanup.Settled
import IoSource.Proofs.Command.Writes

/-!
# Checking a rewritten file

A path that led to a file leads to it when the file has been rewritten, and the bytes there decode
to the cleaned text.  So a check tells whether another cleanup would change that text, which it
would do exactly if the first one has stranded a blank (`Text.not_tidy_cleanUp_iff`).
-/

namespace IoSource

namespace Run

variable [Platform] {tree : FileTree} {arguments checking : List Text} {names : List Text} {t : Text}
  {path : Path} {content : Utf8.Bytes} {force : Bool} {config? : Option Path} {volume : Volume}
  {config : Configuration} {level : Level}

theorem ending_of_recheck (h : Rewrites tree arguments names t) (input later : Utf8.Bytes)
    (hstatus : tree.status path = .file names content)
    (hrequest : Request.ofArguments checking = .run (.cleanup path force true) config? volume)
    (hsetUp : setUp (ofArguments tree input arguments).tree config? volume = .ok (config, level)) :
    (ofArguments (ofArguments tree input arguments).tree later checking).ending =
      .ok (if t.cleanUp.cleanUp = t.cleanUp then 0 else 1) := by
  obtain ⟨⟨path', volume', hdue⟩, hlet⟩ := h
  have htree := tree_of_isDue hdue hlet input
  have hcheck : CleansUp (ofArguments tree input arguments).tree checking path force true volume
      config names t.cleanUp := by
    refine ⟨config?, level, Utf8.encode t.cleanUp, hrequest, hsetUp, ?_, ?_⟩
    · rw [htree]
      exact FileTree.status_write hstatus _
    · exact Utf8.decode_encode _
  exact ending_of_check hcheck later

end Run

/-- **A cleanup settles a text unless it strands a blank.**  Then no line of the result ends in a
blank, and a check of the rewritten file ends well; otherwise neither is so. -/
theorem cleanup_settles_iff [Platform] (t : Text) :
    (t.cleanUp.cleanUp = t.cleanUp ↔ ¬ t.StrandsBlank) ∧ (t.cleanUp.Tidy ↔ ¬ t.StrandsBlank) ∧
    ∀ tree input arguments names, Run.Rewrites tree arguments names t →
      ∀ later checking path content force config? volume config level,
        tree.status path = .file names content →
        Request.ofArguments checking = .run (.cleanup path force true) config? volume →
        Run.setUp (Run.ofArguments tree input arguments).tree config? volume =
          .ok (config, level) →
        ((Run.ofArguments (Run.ofArguments tree input arguments).tree later checking).ending =
          .ok 0 ↔ ¬ t.StrandsBlank) := by
  have htidy : t.cleanUp.Tidy ↔ ¬ t.StrandsBlank := by
    rw [← Text.not_tidy_cleanUp_iff, not_not]
  have hsettled : t.cleanUp.cleanUp = t.cleanUp ↔ ¬ t.StrandsBlank :=
    (Text.cleanUp_cleanUp_iff_tidy t).trans htidy
  refine ⟨hsettled, htidy, ?_⟩
  intro tree input arguments names hrewrites later checking path content force config? volume config
    level hstatus hrequest hsetUp
  rw [Run.ending_of_recheck hrewrites input later hstatus hrequest hsetUp, ← hsettled]
  by_cases hclean : t.cleanUp.cleanUp = t.cleanUp
  · simp [hclean]
  · simp [hclean]

open Platform.Usual in
theorem cleanup_settles_oneFile :
    let cleaned := (Run.ofArguments (oneFile ['x', ' ', '\n']) []
      ["cleanup".toList, "a".toList]).tree
    (Run.ofArguments cleaned [] ["cleanup".toList, "--check".toList, "a".toList]).ending =
      .ok 0 := by
  intro cleaned
  obtain ⟨hsettled, -, hcheck⟩ := cleanup_settles_iff ['x', ' ', '\n']
  have hloads : (Run.setUp cleaned none .asConfigured).toOption.isSome = true := by
    decide +kernel
  cases hsetUp : Run.setUp cleaned none .asConfigured with
  | error failure =>
    rw [hsetUp] at hloads
    exact absurd hloads (by simp [Except.toOption])
  | ok settings =>
    have hstatus : (oneFile ['x', ' ', '\n']).status (Path.ofText ['a']) =
        .file [['a']] (Utf8.encode ['x', ' ', '\n']) := by
      decide +kernel
    have hrequest : Request.ofArguments ["cleanup".toList, "--check".toList, "a".toList] =
        .run (.cleanup (Path.ofText ['a']) false true) none .asConfigured := by
      decide +kernel
    exact (hcheck _ [] _ _ ⟨⟨_, _, isDue_oneFile⟩, rfl⟩ [] _ _ _ _ _ _ _ _ hstatus hrequest hsetUp).mpr
      (hsettled.mp (by decide))

open Platform.Usual in
/-- Of a blank and two carriage returns at the end of a line, the blank and one of the others stay.
Another cleanup takes the blank. -/
theorem cleanup_strands_blank :
    let t : Text := ['a', ' ', '\r', '\r', '\n']
    let cleaned := (Run.ofArguments (oneFile t) [] ["cleanup".toList, "a".toList]).tree
    t.cleanUp = ['a', ' ', '\r', '\n'] ∧ t.cleanUp.cleanUp = ['a', '\r', '\n'] ∧
      ¬ t.cleanUp.Tidy ∧ cleaned = oneFile t.cleanUp ∧
      (Run.ofArguments cleaned []
        ["cleanup".toList, "--check".toList, "a".toList]).ending.toOption = some 1 := by
  refine ⟨by decide, by decide, ?_, by decide +kernel, by decide +kernel⟩
  intro htidy
  exact absurd (htidy ' ' ['\r', '\n'] (by decide) (by decide)) (by decide)

end IoSource
