import IoSource.Proofs.Files.Stored
import IoSource.Proofs.Highlight.Precedence

/-!
# Where spans point

The spans of a file point into the text that is read from it, in which each line end is one line
feed (`spans_point_into_read_text`).  In the text that is stored, a span is a region that is read as
the text of the span, but its offsets are those of the region only as long as reading takes no
character away in front of it: behind a return with a line feed they are too small.
-/

namespace IoSource

namespace Text

/-! ### Reading line ends -/

def region (start stop : Nat) (t : Text) : Text := (t.drop start).take (stop - start)

theorem return_not_mem_unixLineEnds (t : Text) : '\r' ∉ t.unixLineEnds := by
  induction t using unixLineEnds.induct with
  | case1 => exact List.not_mem_nil
  | case2 rest ih =>
    rw [unixLineEnds, List.mem_cons]
    exact not_or.mpr ⟨by decide, ih⟩
  | case3 c rest hpair ih =>
    rw [unixLineEnds, List.mem_cons]
    · refine not_or.mpr ⟨?_, ih⟩
      split
      · decide
      · next hc => exact Ne.symm hc
    · exact hpair

/-- Reading goes on afresh behind any character, unless a line end has been parted. -/
theorem exists_unixLineEnds_eq_append {t a b : Text} (h : t.unixLineEnds = a ++ b) :
    ∃ s u, t = s ++ u ∧ s.unixLineEnds = a ∧ u.unixLineEnds = b := by
  induction t using unixLineEnds.induct generalizing a with
  | case1 =>
    obtain ⟨rfl, rfl⟩ := List.append_eq_nil_iff.mp h.symm
    exact ⟨[], [], rfl, rfl, rfl⟩
  | case2 rest ih =>
    cases a with
    | nil => exact ⟨[], _, rfl, rfl, h⟩
    | cons d a =>
      obtain ⟨rfl, hrest⟩ := List.cons.inj h
      obtain ⟨s, u, rfl, hs, hu⟩ := ih hrest
      exact ⟨'\r' :: '\n' :: s, u, rfl, congrArg (List.cons '\n') hs, hu⟩
  | case3 c rest hpair ih =>
    cases a with
    | nil => exact ⟨[], _, rfl, rfl, h⟩
    | cons d a =>
      rw [unixLineEnds] at h
      · obtain ⟨hd, hrest⟩ := List.cons.inj h
        obtain ⟨s, u, rfl, hs, hu⟩ := ih hrest
        refine ⟨c :: s, u, rfl, ?_, hu⟩
        rw [unixLineEnds, hd, hs]
        rintro later hc rfl
        exact hpair (later ++ u) hc rfl
      · exact hpair

/-- As long as no return has a line feed behind it, reading keeps the offsets. -/
theorem drop_unixLineEnds {t : Text} {n : Nat} (h : ¬ ['\r', '\n'] <:+: t.take (n + 1)) :
    t.unixLineEnds.drop n = unixLineEnds (t.drop n) := by
  induction t using unixLineEnds.induct generalizing n with
  | case1 => rw [List.drop_nil, unixLineEnds, List.drop_nil]
  | case2 rest ih =>
    cases n with
    | zero => rfl
    | succ n => exact absurd ⟨[], rest.take n, rfl⟩ h
  | case3 c rest hpair ih =>
    cases n with
    | zero => rfl
    | succ n =>
      rw [List.take_succ_cons] at h
      rw [unixLineEnds, List.drop_succ_cons, List.drop_succ_cons]
      · exact ih fun hpair => h (List.infix_cons_iff.mpr (Or.inr hpair))
      · exact hpair

theorem take_unixLineEnds {t : Text} {n : Nat} (h : '\r' ∉ t.take n) :
    t.unixLineEnds.take n = t.take n := by
  induction t using unixLineEnds.induct generalizing n with
  | case1 => rfl
  | case2 rest ih =>
    cases n with
    | zero => rfl
    | succ n => exact absurd List.mem_cons_self h
  | case3 c rest hpair ih =>
    cases n with
    | zero => rfl
    | succ n =>
      obtain ⟨hc, hrest⟩ := not_or.mp (mt List.mem_cons.mpr h)
      rw [unixLineEnds, if_neg (Ne.symm hc), List.take_succ_cons, List.take_succ_cons, ih hrest]
      exact hpair

end Text

/-! ### Spans of a file -/

theorem HighlightReport.ofFile_encode [Platform] {tree : FileTree} {path : Path}
    {names : List Text} {t : Text} (hfile : tree.status path = .file names (Utf8.encode t)) :
    HighlightReport.ofFile tree path {} = .ok ⟨path, highlight t.unixLineEnds⟩ := by
  rw [HighlightReport.ofFile, readSource_encode hfile]
  rfl

theorem exists_region_of_mem_highlight {t : Text} {span : Span}
    (hspan : span ∈ highlight t.unixLineEnds) :
    ∃ before region behind, t = before ++ region ++ behind ∧
      before.unixLineEnds.length = span.start ∧ region.unixLineEnds = span.text := by
  have hsplit : t.unixLineEnds = t.unixLineEnds.take span.start ++
      (span.text ++ (t.unixLineEnds.drop span.start).drop (span.stop - span.start)) := by
    rw [text_of_mem_highlight hspan, List.take_append_drop, List.take_append_drop]
  have hstart : span.start ≤ t.unixLineEnds.length := by
    have hlength := start_add_length hspan
    have hstop := stop_le_length hspan
    omega
  obtain ⟨before, rest, rfl, hbefore, hrest⟩ := Text.exists_unixLineEnds_eq_append hsplit
  obtain ⟨region, behind, rfl, hregion, -⟩ := Text.exists_unixLineEnds_eq_append hrest
  refine ⟨before, region, behind, (List.append_assoc ..).symm, ?_, hregion⟩
  rw [hbefore, List.length_take_of_le hstart]

/-- **Spans point into the text that is read.**  Each span of a file stands at its offsets there.  In
the text that is stored it is a region that is read as the text of the span, behind one that is read as
the characters in front of the span.  The text stands at the offsets there too if no return in front
of them has a line feed behind it and none stands between them; with a return between them it never
does. -/
theorem spans_point_into_read_text [Platform] {tree : FileTree} {path : Path}
    {names : List Text} {t : Text} (hfile : tree.status path = .file names (Utf8.encode t)) :
    ∃ report, HighlightReport.ofFile tree path {} = .ok report ∧ ∀ span ∈ report.spans,
      t.unixLineEnds.region span.start span.stop = span.text ∧
      (∃ before region behind, t = before ++ region ++ behind ∧
        before.unixLineEnds.length = span.start ∧ region.unixLineEnds = span.text) ∧
      (¬ ['\r', '\n'] <:+: t.take (span.start + 1) → '\r' ∉ t.region span.start span.stop →
        t.region span.start span.stop = span.text) ∧
      ('\r' ∈ t.region span.start span.stop → t.region span.start span.stop ≠ span.text) := by
  refine ⟨_, HighlightReport.ofFile_encode hfile, fun span hspan => ?_⟩
  have hread : span.text = t.unixLineEnds.region span.start span.stop :=
    text_of_mem_highlight hspan
  refine ⟨hread.symm, exists_region_of_mem_highlight hspan, fun hpair hnone => ?_,
    fun hmem hsame => ?_⟩
  · rw [hread, Text.region, Text.region, Text.drop_unixLineEnds hpair]
    exact (Text.take_unixLineEnds hnone).symm
  · -- what is read holds no return
    rw [hsame, hread] at hmem
    have hbehind := (List.take_sublist _ _).subset hmem
    exact Text.return_not_mem_unixLineEnds t ((List.drop_sublist _ _).subset hbehind)

open Platform.Usual in
/-- A return without a line feed in front of a comment, and one with a line feed behind it. -/
theorem spans_point_into_read_text_returns :
    let t : Text := ['x', '\r', '#', 'c', '\r', '\n']
    let tree : FileTree := ⟨[], [([['a']], .file (Utf8.encode t))]⟩
    tree.status ⟨[], [['a']]⟩ = .file [['a']] (Utf8.encode t) ∧
      ∃ report, HighlightReport.ofFile tree ⟨[], [['a']]⟩ {} = .ok report ∧
        (⟨2, 4, ['#', 'c'], .comment⟩ : Span) ∈ report.spans ∧ t.region 2 4 = ['#', 'c'] := by
  intro t tree
  have hfile : tree.status ⟨[], [['a']]⟩ = .file [['a']] (Utf8.encode t) := by decide
  obtain ⟨report, hreport, hspans⟩ := spans_point_into_read_text hfile
  have hmem : (⟨2, 4, ['#', 'c'], .comment⟩ : Span) ∈ report.spans := by
    obtain rfl := Except.ok.inj ((HighlightReport.ofFile_encode hfile).symm.trans hreport)
    decide +kernel
  refine ⟨hfile, report, hreport, hmem, ?_⟩
  exact (hspans _ hmem).2.2.1 (by decide) (by decide)

open Platform.Usual in
/-- Behind a return with a line feed, the offsets are those of the characters in front. -/
theorem span_behind_line_end :
    let t : Text := ['\r', '\n', '#']
    let tree : FileTree := ⟨[], [([['a']], .file (Utf8.encode t))]⟩
    tree.status ⟨[], [['a']]⟩ = .file [['a']] (Utf8.encode t) ∧
      ∃ report, HighlightReport.ofFile tree ⟨[], [['a']]⟩ {} = .ok report ∧
        ¬ ∀ span ∈ report.spans, t.region span.start span.stop = span.text := by
  intro t tree
  have hfile : tree.status ⟨[], [['a']]⟩ = .file [['a']] (Utf8.encode t) := by decide
  refine ⟨hfile, _, HighlightReport.ofFile_encode hfile, ?_⟩
  decide +kernel

end IoSource
