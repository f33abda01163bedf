import IoSource.Yaml.Source

/-!
# Short files

A file that is shorter than a portion is read at once: its text is the source of the document
(`Source.ofBytes_of_short`).
-/

namespace IoSource

theorem Text.unixLineEnds_of_not_mem {t : Text} (h : '\r' ∉ t) : t.unixLineEnds = t := by
  induction t using Text.unixLineEnds.induct with
  | case1 => rfl
  | case2 rest _ => exact absurd List.mem_cons_self h
  | case3 c rest hpair ih =>
    rw [Text.unixLineEnds]
    · rw [List.mem_cons, not_or] at h
      rw [if_neg (Ne.symm h.1), ih h.2]
    · exact hpair

namespace Reading

/-- All bytes have been read, and nothing waits for others. -/
structure IsExhausted (r : Reading) : Prop where
  rest : r.rest = []
  cutOff : r.cutOff = []
  atReturn : r.atReturn = false

variable {r : Reading} {t : Text}

theorem takeChunk_of_short (wanted : Nat) (hshort : r.rest.length ≤ minChunk)
    (hcut : r.cutOff = []) (hreturn : r.atReturn = false) (ht : Utf8.decode r.rest = .ok t)
    (hline : '\r' ∉ t) :
    ∃ next, r.takeChunk wanted = .ok next ∧ next.IsExhausted ∧ next.ready = t := by
  have hchunk : r.rest.take (chunkSize r.density wanted) = r.rest :=
    List.take_of_length_le (Nat.le_trans hshort (Nat.le_max_left _ _))
  have hlast : t.getLast? ≠ some '\r' := fun h => hline (List.mem_of_getLast? h)
  have hready := Text.unixLineEnds_of_not_mem hline
  have hdecode : (decodeChunk r.rest.isEmpty r.rest).mapError (·.message r.rest) = .ok (t, []) := by
    rw [decodeChunk, ht]
    rfl
  refine ⟨⟨[], [], false,
    if t.isEmpty then 0.0 else Float.ofNat r.rest.length / Float.ofNat t.length, t⟩, ?_,
    ⟨rfl, rfl, rfl⟩, rfl⟩
  simp only [takeChunk, hchunk, hcut, hreturn, List.nil_append, hdecode, bind, Except.bind,
    pure, Except.pure, Bool.false_and, Bool.not_false, hlast, decide_false,
    Bool.and_false, Bool.false_eq_true, if_false, hready, Bool.or_false, List.drop_length]

theorem takePortion_of_exhausted (h : r.IsExhausted) (fuel : Nat) (wanted : Nat)
    (hready : r.ready.length < wanted) :
    ∃ next, r.takePortion (fuel + 1) wanted = .ok (r.ready, next) ∧ next.IsExhausted ∧
      next.ready = [] := by
  have htake : r.ready.take wanted = r.ready := List.take_of_length_le (Nat.le_of_lt hready)
  have hmissing : wanted - r.ready.length ≠ 0 := Nat.sub_ne_zero_of_lt hready
  obtain ⟨next, hnext, hexhausted, hnone⟩ := takeChunk_of_short (t := [])
    (r := { r with ready := r.ready.drop wanted }) (wanted - r.ready.length)
    (by rw [h.rest]; exact Nat.zero_le _) h.cutOff h.atReturn (by rw [h.rest]; rfl)
    List.not_mem_nil
  have hdone : (r.rest.isEmpty && next.ready.isEmpty) = true := by rw [h.rest, hnone]; rfl
  refine ⟨next, ?_, hexhausted, hnone⟩
  simp only [takePortion, htake, if_neg hmissing, hnext, bind, Except.bind, pure, Except.pure,
    hdone, if_true]

theorem portion_of_short {content : Utf8.Bytes} {length : Nat} (hne : content ≠ [])
    (hshort : content.length ≤ minChunk) (ht : Utf8.decode content = .ok t) (hline : '\r' ∉ t)
    (hlength : t.length < length) :
    ∃ next, Reading.portion { rest := content } length = .ok (t, next) ∧ next.IsExhausted ∧
      next.ready = [] := by
  obtain ⟨all, hall, hexhausted, rfl⟩ := takeChunk_of_short (r := { rest := content }) length
    hshort rfl rfl ht hline
  obtain ⟨next, hnext, hexhausted', hnone⟩ :=
    takePortion_of_exhausted hexhausted (content.length + 1) length hlength
  have hmissing : length ≠ 0 := Nat.ne_zero_of_lt hlength
  have hdone : (content.isEmpty && all.ready.isEmpty) = false := by
    rw [List.isEmpty_eq_false_iff.mpr hne, Bool.false_and]
  refine ⟨next, ?_, hexhausted', hnone⟩
  rw [portion, takePortion]
  simp only [List.take_nil, List.drop_nil, List.length_nil, Nat.sub_zero,
    if_neg hmissing, hall, bind, Except.bind, pure, Except.pure, hdone, Bool.false_eq_true, if_false,
    hnext, List.nil_append]

theorem portion_of_exhausted (h : r.IsExhausted) (hnone : r.ready = []) (length : Nat)
    (hlength : 0 < length) :
    ∃ next, r.portion length = .ok ([], next) ∧ next.IsExhausted ∧ next.ready = [] := by
  obtain ⟨next, hnext, hnext'⟩ := takePortion_of_exhausted h (r.rest.length + 2) length
    (by rwa [hnone])
  rw [hnone] at hnext
  exact ⟨next, hnext, hnext'⟩

end Reading

namespace Yaml.Source

/-- **A short file** is read at once. -/
theorem ofBytes_of_short {content : Utf8.Bytes} {t : Text} (hne : content ≠ [])
    (hshort : content.length ≤ Reading.minChunk) (ht : Utf8.decode content = .ok t)
    (hline : '\r' ∉ t) (hlength : t.length < portionLength) (hallowed : t.all isAllowed = true) :
    ofBytes content = { text := t } := by
  obtain ⟨r, hr, hexhausted, hnone⟩ := Reading.portion_of_short hne hshort ht hline hlength
  obtain ⟨r', hr', hexhausted', hnone'⟩ :=
    Reading.portion_of_exhausted hexhausted hnone portionLength (by decide)
  obtain ⟨r'', hr'', -⟩ :=
    Reading.portion_of_exhausted hexhausted' hnone' portionLength (by decide)
  have hfirst : first { rest := content } = .ok (t, r') := by
    rw [first, hr]
    show ((r.portion portionLength).mapError Yaml.Error.encoding >>= fun p =>
      checked (t ++ p.1) >>= fun t => pure (t, p.2)) = .ok (t, r')
    rw [hr']
    show (checked (t ++ []) >>= fun t => pure (t, r')) = .ok (t, r')
    rw [List.append_nil, checked, if_pos hallowed]
    rfl
  have hlater : later (content.length + 1) r' = { text := [] } := by
    rw [later, hr'']
    rfl
  unfold ofBytes
  rw [hfirst]
  show ({ later (content.length + 1) r' with
    text := t ++ (later (content.length + 1) r').text } : Source) = _
  rw [hlater, List.append_nil]

end Yaml.Source

end IoSource
