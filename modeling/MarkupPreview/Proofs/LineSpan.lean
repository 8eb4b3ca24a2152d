import MarkupPreview.Proofs.FirstFault

/-!
# Where a diagnostic points

A diagnostic names a line, and the report needs the characters of that line in the source.
They are found by adding up the lengths of the lines in front of it, with one more for the
line feed behind each. The lines in front of a line, each with its line feed, are all that
stands in front of it (`Text.eq_front_append`), so the sum is where the line starts.

The line that a failed compilation names was numbered by the lexer, carried along by the
blocks and put into the error by the renderer. That it is the line the sum belongs to is the
last part of the law.

## Main results

* `spanAmong_eq` — the span of a line among lines that start somewhere.
* `spanOfLine_selects` — the span of a line selects the line, behind the last line it is
  empty, and the span of a diagnostic selects the first line of the paragraph that failed.
-/

namespace MarkupPreview

namespace Text

variable {text : Text} {index : Nat}

/-! ## The text in front of a line -/

/-- What stands in front of the line with the given index: the lines before it, each with
its line feed. -/
def front (text : Text) (index : Nat) : Text := (text.lines.take index).flatMap (· ++ ['\n'])

theorem joinLines_eq_append {lines : List Text} {line : Text} (h : lines[index]? = some line) :
    joinLines lines = (lines.take index).flatMap (· ++ ['\n']) ++ line ++
      (lines.drop (index + 1)).flatMap ('\n' :: ·) := by
  induction lines generalizing index with
  | nil => cases h
  | cons first rest ih =>
      cases index with
      | zero =>
          cases h
          rfl
      | succ index =>
          rw [List.getElem?_cons_succ] at h
          have hrest := ih h
          obtain ⟨next, others, rfl⟩ :=
            List.exists_cons_of_ne_nil (List.ne_nil_of_mem (List.mem_of_getElem? h))
          -- The line feed behind the first line stands in front of the lines that are left.
          have hjoin : joinLines (first :: next :: others) =
              first ++ ['\n'] ++ joinLines (next :: others) := by
            simp [joinLines]
          rw [hjoin, hrest, List.take_succ_cons, List.flatMap_cons,
            List.drop_succ_cons (i := index + 1)]
          simp only [List.append_assoc]

/-- A line stands behind the lines before it, and what follows it starts with a line feed
unless it is the last. -/
theorem eq_front_append {line : Text} (h : text.lines[index]? = some line) :
    text = text.front index ++ line ++ (text.lines.drop (index + 1)).flatMap ('\n' :: ·) := by
  have hjoin := joinLines_eq_append h
  rwa [joinLines_lines] at hjoin

/-! ## Spans -/

/-- The characters from the first place of a span up to the second. -/
def slice (text : Text) (span : Nat × Nat) : Text := (text.take span.2).drop span.1

theorem slice_append (before selected behind : Text) :
    (before ++ selected ++ behind).slice (before.length, before.length + selected.length) =
      selected := by
  have hlength : (before ++ selected).length = before.length + selected.length :=
    List.length_append
  rw [slice, List.take_left' hlength, List.drop_left]

/-- The span selects the line with the given index: it starts where the lines before it end,
and holds its characters. -/
structure Selects (text : Text) (index : Nat) (line : Text) (span : Nat × Nat) : Prop where
  front_eq : text.take span.1 = text.front index
  slice_eq : text.slice span = line
  start_le : span.1 ≤ span.2
  stop_le : span.2 ≤ text.length

theorem selects_of_eq {line : Text} {span : Nat × Nat} (h : text.lines[index]? = some line)
    (hspan : span = ((text.front index).length, (text.front index).length + line.length)) :
    text.Selects index line span := by
  have hsplit := eq_front_append h
  generalize hfront : text.front index = before at hsplit hspan
  generalize (text.lines.drop (index + 1)).flatMap ('\n' :: ·) = behind at hsplit
  subst hsplit hspan
  refine ⟨?_, slice_append before line behind, ?_, ?_⟩
  · rw [hfront, List.append_assoc, List.take_left]
  · exact Nat.le_add_right ..
  · simp only [List.length_append]
    omega

end Text

/-! ## Spans of lines -/

/-- Among lines that start somewhere a line starts behind those before it, each with its line
feed. -/
theorem spanAmong_eq (start index : Nat) (lines : List Text) :
    spanAmong start index lines = lines[index]?.map fun line =>
      (start + ((lines.take index).flatMap (· ++ ['\n'])).length,
        start + ((lines.take index).flatMap (· ++ ['\n'])).length + line.length) := by
  induction lines generalizing start index with
  | nil => cases index <;> rfl
  | cons first rest ih =>
      cases index with
      | zero => rfl
      | succ index =>
          have hlength : ((List.take (index + 1) (first :: rest)).flatMap (· ++ ['\n'])).length =
              first.length + 1 + ((rest.take index).flatMap (· ++ ['\n'])).length := by
            rw [List.take_succ_cons, List.flatMap_cons, List.length_append, List.length_append]
            rfl
          rw [spanAmong, ih, List.getElem?_cons_succ, hlength]
          congr 1
          funext line
          simp only [Nat.add_assoc]

variable {source : Text} {index : Nat}

theorem spanOfLine_of_getElem? {line : Text} (h : source.lines[index]? = some line) :
    spanOfLine source (some index) =
      ((source.front index).length, (source.front index).length + line.length) := by
  rw [spanOfLine, spanAmong_eq, h, Text.front]
  simp only [Option.map_some, Option.getD_some, Nat.zero_add]

/-- Behind the last line there is nothing to select. -/
theorem spanOfLine_of_length_le (h : source.lines.length ≤ index) :
    spanOfLine source (some index) = (source.length, source.length) := by
  rw [spanOfLine, spanAmong_eq, List.getElem?_eq_none h]
  rfl

theorem selects_spanOfLine {line : Text} (h : source.lines[index]? = some line) :
    source.Selects index line (spanOfLine source (some index)) :=
  Text.selects_of_eq h (spanOfLine_of_getElem? h)

/-- The span of a line of the source selects that line, in its place, and the span of any line
further down is empty and stands at the end of the source. Where compiling fails, the span of
the diagnostic's line selects the first line of the paragraph that the failure is about, which
is the first faulty one. That span lies in the source and is not empty. -/
theorem spanOfLine_selects (base : Style) (source : Text) :
    (∀ index line, source.lines[index]? = some line →
        source.Selects index line (spanOfLine source (some index))) ∧
      (∀ index, source.lines.length ≤ index →
        spanOfLine source (some index) = (source.length, source.length)) ∧
      ∀ error, compileText base source = .error error →
        let blocks := (classify base (Token.ofSource source)).blocks
        let span := spanOfLine source error.diagnostic.line
        ∃ failure block line, error = .render failure ∧ failure.IsAbout source blocks block ∧
          source.lines[block.lines.start]? = some line ∧
          source.Selects block.lines.start line span ∧ span.1 < span.2 ∧
          span.2 ≤ source.length := by
  refine ⟨fun index line h => selects_spanOfLine h, fun index h => spanOfLine_of_length_le h, ?_⟩
  intro error herror blocks span
  obtain ⟨-, failure, hfailure, rfl⟩ := compileText_eq_error_iff.mp herror
  obtain ⟨block, habout⟩ := isAbout_of_renderBlocks hfailure
  obtain ⟨line, hline, hvisible⟩ := habout.visible
  rw [habout.line_eq] at hline
  have hspan : span = spanOfLine source (some block.lines.start) := by
    show spanOfLine source (some failure.line) = _
    rw [habout.line_eq]
  have hselects : source.Selects block.lines.start line span := hspan ▸ selects_spanOfLine hline
  have hpos : 0 < line.length := by
    rw [List.length_pos_iff]
    rintro rfl
    cases hvisible
  have hlength : span.2 = span.1 + line.length := by
    rw [hspan, spanOfLine_of_getElem? hline]
  exact ⟨failure, block, line, rfl, habout, hline, hselects, by omega, hselects.stop_le⟩

/-- Letters of two bytes and a directive of two lines stand in front of the paragraph that
fails, and another paragraph behind it. -/
theorem spanOfLine_selects_umlaut :
    let source : Text := "ä\n\n#set text(\nsize: 0pt)\n= Ü\n größe\n\nb".toList
    source.Selects 4 "= Ü".toList (25, 28) ∧ spanOfLine source (some 9) = (38, 38) ∧
      ∃ failure, compileText .standard source = .error (.render failure) ∧
        spanOfLine source (CompileError.render failure).diagnostic.line = (29, 35) ∧
        source.Selects 5 " größe".toList (29, 35) := by
  intro source
  obtain ⟨hline, hbehind, hfailed⟩ := spanOfLine_selects .standard source
  have hheading : source.Selects 4 "= Ü".toList (25, 28) := hline 4 _ (by decide)
  have hend : spanOfLine source (some 9) = (38, 38) := hbehind 9 (by decide)
  have hdiagnosed : (match compileText .standard source with
      | .error error => error.diagnostic.line
      | .ok _ => none) = some 5 := by decide +kernel
  cases hcompile : compileText .standard source with
  | ok result => simp [hcompile] at hdiagnosed
  | error error =>
      simp only [hcompile] at hdiagnosed
      obtain ⟨failure, block, line, rfl, habout, hfirst, hselects, -⟩ := hfailed error hcompile
      have hspan : spanOfLine source (CompileError.render failure).diagnostic.line = (29, 35) := by
        rw [hdiagnosed]
        decide
      have hstart : block.lines.start = 5 := habout.line_eq.symm.trans (Option.some.inj hdiagnosed)
      rw [hstart] at hfirst hselects
      obtain rfl : " größe".toList = line := Option.some.inj ((by decide : _ = _).trans hfirst)
      exact ⟨hheading, hend, failure, rfl, hspan, hspan ▸ hselects⟩

end MarkupPreview
