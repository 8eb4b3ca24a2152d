import MarkupPreview.Proofs.BlankSource
import MarkupPreview.Proofs.PaddedBlock

/-!
# White space at the ends of lines

A document is compiled to the same result, or the same error, when spaces, tabs and
carriage returns are put behind its lines and lines of nothing else behind its end. In
particular it makes no difference whether a carriage return stands before each line feed.

One thing in a document can tell: a quoted string in the arguments of a directive that
changes the style. It may go on over the end of a line, and then what stands there is in
it.

## Main results

* `compileTokens_append_blank` — blank lines behind a document are nothing.
* `compileTokens_of_agrees` — documents of segments that agree are compiled alike.
* `compileText_of_repads` — the law for sources.
-/

namespace MarkupPreview

open Text

/-! ## Padded sources -/

namespace Text

/-- The other text has the lines of this one with padding behind them, and behind those
there may be lines of padding alone. -/
def Repads (source padded : Text) : Prop :=
  ∃ front more, padded.lines = front ++ more ∧ List.Forall₂ Pads source.lines front ∧
    ∀ line ∈ more, IsPadding line

/-- The text with a carriage return before each line feed. -/
def crlf (source : Text) : Text :=
  source.flatMap fun c => if c = '\n' then ['\r', '\n'] else [c]

theorem forall₂_pads_crlf (source : Text) : List.Forall₂ Pads source.lines source.crlf.lines := by
  induction source with
  | nil => exact .cons ⟨[], List.forall_mem_nil _, rfl⟩ .nil
  | cons c rest ih =>
      by_cases hc : c = '\n'
      · subst hc
        have hlines : crlf ('\n' :: rest) = '\r' :: '\n' :: crlf rest := rfl
        have hreturn : lines ('\r' :: '\n' :: crlf rest) = ['\r'] :: lines (crlf rest) := rfl
        rw [hlines, hreturn, lines_newline]
        exact .cons ⟨['\r'], by decide, rfl⟩ ih
      · have hcrlf : crlf (c :: rest) = c :: crlf rest := by simp [crlf, hc]
        rw [hcrlf]
        simp only [lines, splitLines, hc, if_false] at ih ⊢
        cases ih with
        | cons hfirst hrest =>
            obtain ⟨pad, hpad, hfirst⟩ := hfirst
            exact .cons ⟨pad, hpad, by rw [hfirst]; rfl⟩ hrest

theorem repads_crlf (source : Text) : source.Repads source.crlf :=
  ⟨source.crlf.lines, [], (List.append_nil _).symm, forall₂_pads_crlf source, List.forall_mem_nil _⟩

theorem isBlank_iff_lines (text : Text) :
    text.isBlank = true ↔ ∀ line ∈ text.lines, line.isBlank = true := by
  refine ⟨fun h line => isBlank_of_mem_lines h, fun h => ?_⟩
  rw [← joinLines_lines text, isBlank_iff]
  intro c hc
  rw [lines, joinLines, List.mem_append, List.mem_flatMap] at hc
  obtain ⟨hfirst, hrest⟩ := List.forall_mem_cons.mp h
  rcases hc with hc | ⟨line, hline, hc⟩
  · exact isBlank_iff.mp hfirst c hc
  · rcases List.mem_cons.mp hc with rfl | hc
    · rfl
    · exact isBlank_iff.mp (hrest line hline) c hc

theorem Repads.isBlank_eq {source padded : Text} (h : source.Repads padded) :
    padded.isBlank = source.isBlank := by
  obtain ⟨front, more, hlines, hfront, hmore⟩ := h
  have hblank : ∀ line ∈ more, line.isBlank = true := fun line hline => (hmore line hline).isBlank
  rw [Bool.eq_iff_iff, isBlank_iff_lines, isBlank_iff_lines, hlines, List.forall_mem_append,
    and_iff_left hblank]
  clear hlines
  generalize source.lines = before at hfront ⊢
  induction hfront with
  | nil => rfl
  | cons hline _ ih =>
      obtain ⟨pad, hpad, rfl⟩ := hline
      rw [List.forall_mem_cons, List.forall_mem_cons, ih, isBlank_append, hpad.isBlank,
        Bool.and_true]

end Text

/-! ## Blank lines at the end -/

theorem lineBalance_of_blank {tokens : List Token} (h : LineRole.of tokens = .blank) :
    lineBalance tokens = 0 := by
  have hblank := LineRole.of_eq_blank_iff.mp h
  rw [lineBalance, ArgToken.balance_eq_scan]
  generalize hkept : tokens.filter _ = kept
  have hsigns : ∀ c ∈ spelling kept, c ∉ ArgToken.signs := by
    intro c hc
    obtain ⟨token, htoken, hc⟩ := List.mem_flatMap.mp hc
    rw [← hkept] at htoken
    have htext := (Bool.and_eq_true_iff.mp (hblank token (List.mem_of_mem_filter htoken))).2
    exact Text.notMem_of_class (by decide) (isBlank_iff.mp htext c hc)
  have hscan := ArgToken.scan_append_of_notMem_signs hsigns []
  rwa [List.append_nil, ArgToken.scan_nil] at hscan

/-- Blank lines close no group. -/
theorem linesToClose?_of_blank {more : List (List Token)}
    (hmore : ∀ tokens ∈ more, LineRole.of tokens = .blank) {depth : Int} (hdepth : 0 < depth) :
    linesToClose? depth more = none := by
  induction more with
  | nil => rfl
  | cons line rest ih =>
      obtain ⟨hline, hrest⟩ := List.forall_mem_cons.mp hmore
      rw [linesToClose?, lineBalance_of_blank hline, Int.add_zero,
        if_neg (Int.not_le.mpr hdepth), ih hrest]
      rfl

theorem linesToClose?_append_blank {more : List (List Token)}
    (hmore : ∀ tokens ∈ more, LineRole.of tokens = .blank) {depth : Int} (hdepth : 0 < depth)
    (following : List (List Token)) :
    linesToClose? depth (following ++ more) = linesToClose? depth following := by
  induction following generalizing depth with
  | nil => exact linesToClose?_of_blank hmore hdepth
  | cons line rest ih =>
      rw [List.cons_append, linesToClose?, linesToClose?]
      by_cases hclosed : depth + lineBalance line ≤ 0
      · rw [if_pos hclosed, if_pos hclosed]
      · rw [if_neg hclosed, if_neg hclosed, ih (Int.not_le.mp hclosed)]

theorem takeWhile_isContent_append_blank {more : List (List Token)}
    (hmore : ∀ tokens ∈ more, LineRole.of tokens = .blank) (following : List (List Token)) :
    (following ++ more).takeWhile LineRole.isContent =
      following.takeWhile LineRole.isContent := by
  induction following with
  | nil =>
      cases more with
      | nil => rfl
      | cons line rest =>
          have hline := LineRole.isContent_of_blank (hmore line List.mem_cons_self)
          rw [List.nil_append, List.takeWhile_cons_of_neg (by simp [hline]), List.takeWhile_nil]
  | cons line rest ih => rw [List.cons_append, List.takeWhile_cons, List.takeWhile_cons, ih]

theorem extentsStay_append_blank {more : List (List Token)}
    (hmore : ∀ tokens ∈ more, LineRole.of tokens = .blank) (lines : List (List Token)) :
    ExtentsStay lines more := by
  intro _ _ line following _
  cases LineRole.of line with
  | directive keyword arguments =>
      rw [LineRole.extent, LineRole.extent, continuation, continuation]
      by_cases hclosed : lineBalance arguments ≤ 0
      · rw [if_pos hclosed, if_pos hclosed]
      · rw [if_neg hclosed, if_neg hclosed,
          linesToClose?_append_blank hmore (Int.not_le.mp hclosed)]
  | content => exact congrArg List.length (takeWhile_isContent_append_blank hmore following)
  | _ => rfl

theorem segments_of_blank {more : List (List Token)}
    (hmore : ∀ tokens ∈ more, LineRole.of tokens = .blank) : segments more = [] := by
  rw [List.eq_nil_iff_forall_not_mem]
  intro segment hmem
  obtain ⟨line, hline, hkind⟩ := ((tiles_segments more).fits_of_mem hmem).opened
  rw [hmore line (List.mem_of_getElem? hline)] at hkind
  cases hkind

/-- Blank lines behind a document are nothing. -/
theorem compileTokens_append_blank {more : List (List Token)}
    (hmore : ∀ tokens ∈ more, LineRole.of tokens = .blank) (base : Style)
    (lines : List (List Token)) :
    compileTokens base (lines ++ more) = compileTokens base lines := by
  have hsegments : segments (lines ++ more) = segments lines := by
    rw [segments_append (extentsStay_append_blank hmore lines), segments_of_blank hmore,
      List.map_nil, List.append_nil]
  rw [compileTokens, compileTokens, classify, classify, hsegments]

/-! ## Documents -/

theorem styled_of_agrees {found others : List Segment}
    (h : List.Forall₂ Segment.Agrees found others) (style : Style) :
    renderBlocks (styled style others).blocks = renderBlocks (styled style found).blocks ∧
      (styled style others).style = (styled style found).style := by
  induction h generalizing style with
  | nil => exact ⟨rfl, rfl⟩
  | @cons segment other rest later hagrees _ ih =>
      obtain ⟨hrule, hrender⟩ := hagrees
      have heffect : other.effect style = segment.effect style := by
        rw [Segment.effect, Segment.effect, hrule]
      obtain ⟨hblocks, hstyle⟩ := ih (segment.effect style)
      simp only [styled, heffect, renderBlocks, hrender, hblocks, hstyle, and_self]

/-- Documents of segments that agree are compiled alike. -/
theorem compileTokens_of_agrees {lines others : List (List Token)}
    (h : List.Forall₂ Segment.Agrees (segments lines) (segments others)) (base : Style) :
    compileTokens base others = compileTokens base lines := by
  obtain ⟨hblocks, hstyle⟩ := styled_of_agrees h base
  simp only [compileTokens, classify, render, hblocks, hstyle]

theorem forall₂_pads_mapIdx {lines front : List Text} (h : List.Forall₂ Text.Pads lines front) :
    List.Forall₂ Token.Pads (lines.mapIdx Token.ofLine) (front.mapIdx Token.ofLine) := by
  rw [List.forall₂_iff_get] at h ⊢
  obtain ⟨hlength, hline⟩ := h
  refine ⟨by simpa using hlength, fun i hi hi' => ?_⟩
  rw [List.length_mapIdx] at hi hi'
  obtain ⟨pad, hpad, hpads⟩ := hline i hi hi'
  rw [List.get_eq_getElem, List.get_eq_getElem, List.getElem_mapIdx, List.getElem_mapIdx]
  refine ⟨pad, hpad, ?_⟩
  rw [List.get_eq_getElem, List.get_eq_getElem] at hpads
  rw [hpads]
  exact Token.padsTo_ofLine hpad i lines[i]

/-- No quoted string of a directive that changes the style goes on over the end of a line. -/
def StringsOnLines (source : Text) : Prop :=
  ∀ segment ∈ segments (Token.ofSource source), segment.StringsOnLines

theorem compileTokens_of_pads {lines padded : List (List Token)}
    (h : List.Forall₂ Token.Pads lines padded)
    (hstrings : ∀ segment ∈ segments lines, segment.StringsOnLines) (base : Style) :
    compileTokens base padded = compileTokens base lines := by
  refine compileTokens_of_agrees ?_ base
  have halike := alike_segmentsFrom 0 lines h
  exact ((List.forall₂_and_left ..).mpr ⟨hstrings, halike⟩).imp fun _ _ h => h.2.agrees h.1

instance (segment : Segment) : Decidable segment.StringsOnLines :=
  inferInstanceAs (Decidable
    (∀ source ∈ segment.setSource?, ∀ token ∈ ArgToken.tokens source, token.OnOneLine))

instance : DecidablePred StringsOnLines := fun source =>
  inferInstanceAs (Decidable (∀ segment ∈ segments (Token.ofSource source), segment.StringsOnLines))

/-- Take a source in which no quoted string of a directive that changes the style goes on over
the end of a line. With padding behind any of its lines and lines of padding behind its end,
and with carriage returns before its line feeds, it is compiled to what it is compiled to
without: the same nodes on the same lines and the same style, or the same error. -/
theorem compileText_of_repads {source : Text} (h : StringsOnLines source) (base : Style) :
    (∀ padded, source.Repads padded → compileText base padded = compileText base source) ∧
      compileText base source.crlf = compileText base source := by
  have hpadded : ∀ padded, source.Repads padded →
      compileText base padded = compileText base source := by
    intro padded hpads
    have hblank := hpads.isBlank_eq
    obtain ⟨front, more, hlines, hfront, hmore⟩ := hpads
    cases hsource : source.isBlank with
    | true => rw [compileText_blank hsource, compileText_blank (hblank.trans hsource)]
    | false =>
        rw [compileText_of_not_isBlank base hsource,
          compileText_of_not_isBlank base (hblank.trans hsource), Token.ofSource, hlines,
          List.mapIdx_append, compileTokens_append_blank, compileTokens_of_pads _ h, Token.ofSource]
        · exact forall₂_pads_mapIdx hfront
        · intro tokens htokens
          obtain ⟨i, hi, rfl⟩ := List.mem_mapIdx.mp htokens
          rw [LineRole.of_ofLine_eq_blank_iff]
          exact (hmore _ (List.getElem_mem hi)).isBlank
  exact ⟨hpadded, hpadded _ (repads_crlf source)⟩

/-- A directive of two lines, a heading, a formula and a paragraph that ends in a comment, with
padding behind each line and two lines behind the last. -/
theorem compileText_of_repads_directive :
    let source : Text := "#set text(\n font: \"A\")\n= B\n$ x $\n\nc *d* // e".toList
    let padded : Text :=
      "#set text( \n font: \"A\")\t\r\n= B \n$ x $\r\n  \nc *d* // e \n\n\t ".toList
    StringsOnLines source ∧ source.Repads padded ∧ padded ≠ source.crlf ∧
      compileText .standard padded = compileText .standard source ∧
      compileText .standard source.crlf = compileText .standard source := by
  intro source padded
  have hstrings : StringsOnLines source := by decide +kernel
  have hpads : source.Repads padded := by
    refine ⟨["#set text( ", " font: \"A\")\t\r", "= B ", "$ x $\r", "  ", "c *d* // e "].map
      String.toList, [[], "\t ".toList], by decide, ?_, by decide⟩
    have hlines : source.lines =
        ["#set text(", " font: \"A\")", "= B", "$ x $", "", "c *d* // e"].map String.toList := by
      decide
    rw [hlines]
    exact .cons ⟨[' '], by decide, rfl⟩ (.cons ⟨['\t', '\r'], by decide, rfl⟩
      (.cons ⟨[' '], by decide, rfl⟩ (.cons ⟨['\r'], by decide, rfl⟩
        (.cons ⟨[' ', ' '], by decide, rfl⟩ (.cons ⟨[' '], by decide, rfl⟩ .nil)))))
  have hsame := compileText_of_repads hstrings .standard
  exact ⟨hstrings, hpads, by decide, hsame.1 padded hpads, hsame.2⟩

end MarkupPreview
