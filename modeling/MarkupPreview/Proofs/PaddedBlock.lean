import Mathlib.Data.List.Forall2
import MarkupPreview.Compile
import MarkupPreview.Proofs.DocumentParts
import MarkupPreview.Proofs.PaddedLine
import MarkupPreview.Proofs.StyleFold

/-!
# Blocks of padded lines

A document whose lines have got padding has segments of the same kinds on the same lines,
made of the padded lines: the roles of the lines are the same, and how far a line goes on
is found by counting brackets, where padding does not count. Such a segment is rendered to
the same node, because every text that is shown is trimmed at the end of its line, and it
states the same set rule unless one of its strings goes on over the end of a line.

## Main results

* `InlineDraft.addLine_of_padsTo` — the inline nodes of a padded line are those of the line.
* `alike_segmentsFrom` — padded lines have the segments of the lines.
* `Segment.Alike.agrees` — such segments do the same to a document.
-/

namespace MarkupPreview

open Text

variable {pad : Text}

/-! ## Inline nodes -/

namespace InlineDraft

theorem extend_append (nodes : List InlineNode) (front back : Text) :
    extend nodes (front ++ back) = extend (extend nodes front) back := by
  unfold extend
  split
  · simp
  · rfl

theorem trimLatest_extend (nodes : List InlineNode) {blank : Text} (h : blank.isBlank = true) :
    trimLatest (extend nodes blank) = trimLatest nodes := by
  unfold extend
  split
  · rw [trimLatest, trimLatest, trimEnd_append_of_isBlank _ h]
  · rename_i hother
    have hnil : trimEnd blank = [] := trimEnd_append_of_isBlank [] h
    have hnodes : trimLatest nodes = nodes := by
      unfold trimLatest
      split
      · exact absurd rfl (hother _ _)
      · rfl
    rw [trimLatest, hnil, hnodes]
    rfl

theorem trimLatest_spaced (draft : InlineDraft) :
    trimLatest draft.spaced.latestFirst = trimLatest draft.latestFirst := by
  rw [spaced]
  split
  · exact trimLatest_extend _ (by decide)
  · rfl

theorem addText_of_isBlank {draft : InlineDraft} (hfresh : draft.fresh = true) {text : Text}
    (h : text.isBlank = true) : draft.addText text = draft := by
  simp [addText, hfresh, trimStart_eq_nil_iff.mpr h]

theorem closeLine_addText_of_fresh {draft : InlineDraft} (hfresh : draft.fresh = true) {text : Text}
    (h : text.isBlank = false) :
    (draft.addText text).closeLine =
      ⟨trimLatest (extend draft.spaced.latestFirst (trimStart text)), true, true⟩ := by
  have hne : trimStart text ≠ [] := by
    rw [Ne, trimStart_eq_nil_iff, h]
    exact Bool.false_ne_true
  simp [addText, hfresh, hne, closeLine, spaced]

theorem closeLine_addText_of_not_fresh {draft : InlineDraft} (hfresh : draft.fresh = false)
    (text : Text) :
    (draft.addText text).closeLine =
      ⟨trimLatest (extend draft.spaced.latestFirst text), true, true⟩ := by
  by_cases hnil : text = []
  · rw [hnil, trimLatest_extend _ isBlank_nil, trimLatest_spaced]
    simp [addText, hfresh, closeLine]
  · simp [addText, hfresh, hnil, closeLine, spaced]

/-- White space at the end of a text is lost when the line ends. -/
theorem closeLine_addText_append (draft : InlineDraft) (text : Text) {blank : Text}
    (h : blank.isBlank = true) :
    (draft.addText (text ++ blank)).closeLine = (draft.addText text).closeLine := by
  cases hfresh : draft.fresh with
  | true =>
      cases htext : text.isBlank with
      | true =>
          have hall : (text ++ blank).isBlank = true := by
            rw [isBlank_append, htext, h, Bool.and_self]
          rw [addText_of_isBlank hfresh hall, addText_of_isBlank hfresh htext]
      | false =>
          have hall : (text ++ blank).isBlank = false := by
            rw [isBlank_append, htext, Bool.false_and]
          rw [closeLine_addText_of_fresh hfresh hall, closeLine_addText_of_fresh hfresh htext,
            trimStart_append_of_not_isBlank htext, extend_append, trimLatest_extend _ h]
  | false =>
      rw [closeLine_addText_of_not_fresh hfresh, closeLine_addText_of_not_fresh hfresh,
        extend_append, trimLatest_extend _ h]

theorem add_of_takesPadding (draft : InlineDraft) {token : Token}
    (h : token.kind.takesPadding = true) : draft.add token = draft.addText token.text := by
  have hemphasis : token.kind ≠ .emphasisMarkup := by
    intro hkind
    rw [hkind] at h
    cases h
  have hmath : token.kind ≠ .mathInline := by
    intro hkind
    rw [hkind] at h
    cases h
  rw [add, InlineNode.ofToken_content hemphasis hmath]

/-- A padded line adds the inline nodes of the line. -/
theorem addLine_of_padsTo {tokens padded : List Token} (h : Token.PadsTo pad tokens padded)
    (hpad : IsPadding pad) (draft : InlineDraft) : draft.addLine padded = draft.addLine tokens := by
  rw [addLine, addLine]
  induction h generalizing draft with
  | nil => rfl
  | @blank token hkind htext =>
      have htakes : token.kind.takesPadding = true := by rw [hkind]; rfl
      have hempty : draft.addText [] = draft := by
        rw [addText]
        split <;> rfl
      rw [List.foldl_cons, List.foldl_nil, List.foldl_nil, add_of_takesPadding draft htakes, htext,
        ← List.nil_append pad, closeLine_addText_append draft [] hpad.isBlank, hempty]
  | last htakes =>
      simp only [List.foldl_cons, List.foldl_nil]
      rw [add_of_takesPadding draft htakes, add_of_takesPadding]
      · exact closeLine_addText_append draft _ hpad.isBlank
      · exact htakes
  | cons token _ ih => exact ih (draft.add token)

end InlineDraft

/-! ## Lines -/

namespace Token

/-- The tokens with some padding behind them. -/
def Pads (tokens padded : List Token) : Prop := ∃ pad, IsPadding pad ∧ PadsTo pad tokens padded

end Token

theorem inlineNodes_of_pads {lines padded : List (List Token)}
    (h : List.Forall₂ Token.Pads lines padded) : inlineNodes padded = inlineNodes lines := by
  have hfold (draft : InlineDraft) :
      padded.foldl InlineDraft.addLine draft = lines.foldl InlineDraft.addLine draft := by
    induction h generalizing draft with
    | nil => rfl
    | cons hline _ ih =>
        obtain ⟨pad, hpad, hline⟩ := hline
        rw [List.foldl_cons, List.foldl_cons, InlineDraft.addLine_of_padsTo hline hpad, ih]
  rw [inlineNodes, inlineNodes, hfold]

theorem find?_flatten_of_pads {lines padded : List (List Token)}
    (h : List.Forall₂ Token.Pads lines padded) {kind : TokenKind}
    (hkind : kind.takesPadding = false) :
    padded.flatten.find? (·.kind == kind) = lines.flatten.find? (·.kind == kind) := by
  induction h with
  | nil => rfl
  | cons hline _ ih =>
      obtain ⟨pad, -, hline⟩ := hline
      rw [List.flatten_cons, List.flatten_cons, List.find?_append, List.find?_append, ih,
        hline.find?_kind hkind]

theorem headingParts_text_append (h : IsPadding pad) (text : Text) :
    (headingParts (text ++ pad)).2 = (headingParts text).2 := by
  have hsign : pad.Stops (· == '=') := h.breaks.stops (by decide)
  rw [headingParts_text, headingParts_text, dropWhile_append_of_stops text hsign,
    trim_append_of_isBlank _ h.isBlank]

/-! ## Extents -/

theorem linesToClose?_of_pads {following padded : List (List Token)}
    (h : List.Forall₂ Token.Pads following padded) (depth : Int) :
    linesToClose? depth padded = linesToClose? depth following := by
  induction h generalizing depth with
  | nil => rfl
  | cons hline _ ih =>
      obtain ⟨pad, hpad, hline⟩ := hline
      rw [linesToClose?, linesToClose?, hline.lineBalance_eq hpad, ih]

namespace LineRole

theorem kind?_of_pads {tokens padded : List Token} (h : Token.Pads tokens padded) :
    (of padded).kind? = (of tokens).kind? := by
  obtain ⟨pad, hpad, h⟩ := h
  exact (alike_of h hpad).kind?_eq

theorem isContent_of_pads {tokens padded : List Token} (h : Token.Pads tokens padded) :
    isContent padded = isContent tokens := by
  obtain ⟨pad, hpad, h⟩ := h
  have halike := alike_of h hpad
  unfold isContent
  generalize of tokens = role at halike ⊢
  generalize of padded = other at halike ⊢
  cases halike <;> rfl

theorem length_takeWhile_isContent_of_pads {following padded : List (List Token)}
    (h : List.Forall₂ Token.Pads following padded) :
    (padded.takeWhile isContent).length = (following.takeWhile isContent).length := by
  induction h with
  | nil => rfl
  | cons hline _ ih =>
      rw [List.takeWhile_cons, List.takeWhile_cons, isContent_of_pads hline]
      split
      · rw [List.length_cons, List.length_cons, ih]
      · rfl

/-- Padded lines go on as far as the lines. -/
theorem extent_of_pads {tokens padded : List Token} (h : Token.Pads tokens padded)
    {following later : List (List Token)} (hfollowing : List.Forall₂ Token.Pads following later) :
    (of padded).extent later = (of tokens).extent following := by
  obtain ⟨pad, hpad, h⟩ := h
  have halike := alike_of h hpad
  generalize of tokens = role at halike ⊢
  generalize of padded = other at halike ⊢
  cases halike with
  | same hrole =>
      cases role with
      | directive => exact absurd rfl hrole
      | content => exact length_takeWhile_isContent_of_pads hfollowing
      | _ => rfl
  | directive keyword harguments =>
      rw [extent, extent, continuation, continuation, harguments.lineBalance_eq hpad,
        linesToClose?_of_pads hfollowing]

end LineRole

/-! ## Segments -/

namespace Segment

/-- The segments are of one kind and lie on the same lines, and the lines of the second are
padded. -/
structure Alike (segment padded : Segment) : Prop where
  kind : padded.kind = segment.kind
  lines : padded.lines = segment.lines
  tokens : List.Forall₂ Token.Pads segment.tokens padded.tokens
  /-- A heading is one line. -/
  single : ∀ level, segment.kind = .heading level → ∃ line, segment.tokens = [line]

/-- The joined argument text of a directive that changes the style. -/
def setSource? (segment : Segment) : Option Text :=
  match segment.tokens with
  | [] => none
  | line :: continued =>
      match LineRole.of line with
      | .directive keyword arguments =>
          if keyword = setKeyword then some (directiveSource arguments continued) else none
      | _ => none

/-- No quoted string of a directive that changes the style goes on over the end of a line. -/
def StringsOnLines (segment : Segment) : Prop :=
  ∀ source ∈ segment.setSource?, ∀ token ∈ ArgToken.tokens source, token.OnOneLine

/-- The segments do the same to a document: they set the same rule, and in any style they are
rendered to the same node. -/
def Agrees (segment other : Segment) : Prop :=
  other.setRule? = segment.setRule? ∧
    ∀ style, renderBlock { other with style } = renderBlock { segment with style }

end Segment

open Segment

/-- Padded lines have the segments of the lines. -/
theorem alike_segmentsFrom (index : Nat) (lines : List (List Token)) :
    ∀ {padded : List (List Token)}, List.Forall₂ Token.Pads lines padded →
      List.Forall₂ Alike (segmentsFrom index lines) (segmentsFrom index padded) := by
  fun_induction segmentsFrom index lines with
  | case1 index =>
      rintro _ ⟨⟩
      rw [segmentsFrom]
      exact .nil
  | case2 index line following more others kind hkind =>
      rename_i ih
      rintro _ (_ | @⟨_, padded, _, later, hline, hfollowing⟩)
      have hextent := LineRole.extent_of_pads hline hfollowing
      rw [segmentsFrom_of_kind? ((LineRole.kind?_of_pads hline).trans hkind), hextent]
      refine .cons ⟨rfl, rfl, .cons hline (List.forall₂_take _ hfollowing), ?_⟩
        (ih (List.forall₂_drop _ hfollowing))
      rintro level rfl
      have hmore : more = 0 := LineRole.extent_eq_zero hkind (by simp) (by simp) following
      exact ⟨line, by rw [hmore]; rfl⟩
  | case3 index line following more others hkind =>
      rename_i ih
      rintro _ (_ | @⟨_, padded, _, later, hline, hfollowing⟩)
      have hblank := LineRole.eq_blank_of_kind? hkind
      have hother := LineRole.eq_blank_of_kind? ((LineRole.kind?_of_pads hline).trans hkind)
      have hmore : more = 0 := by simp only [more, hblank, LineRole.extent]
      rw [segmentsFrom_of_blank hother]
      simp only [hmore, List.drop_zero, Nat.add_zero, others] at ih ⊢
      exact ih hfollowing

theorem pads_withoutComments {lines padded : List (List Token)}
    (h : List.Forall₂ Token.Pads lines padded) :
    List.Forall₂ Text.Pads (lines.map withoutComments) (padded.map withoutComments) := by
  rw [List.forall₂_map_left_iff, List.forall₂_map_right_iff]
  refine h.imp ?_
  rintro tokens more ⟨pad, hpad, hline⟩
  exact hline.pads_withoutComments hpad

/-- Sources with the same tokens are read as the same rule, or neither is read. -/
theorem SetRule.toOption_parse_of_tokens {source other : Text}
    (h : ArgToken.tokens other = ArgToken.tokens source) :
    (parse other).toOption = (parse source).toOption := by
  have hiff (rule : SetRule) (text : Text) :
      (parse text).toOption = some rule ↔ Derives (ArgToken.tokens text) rule := by
    rw [← parse_eq_ok_iff_derives]
    cases parse text <;> simp [Except.toOption]
  ext rule
  rw [hiff, hiff, h]

namespace Segment

variable {segment padded : Segment}

theorem setRule?_eq_bind (segment : Segment) :
    segment.setRule? = segment.setSource?.bind fun source => (SetRule.parse source).toOption := by
  unfold setRule? setSource?
  cases segment.tokens with
  | nil => rfl
  | cons line continued =>
      simp only
      cases LineRole.of line with
      | directive keyword arguments =>
          simp only
          split <;> rfl
      | _ => rfl

/-- The argument text of a padded directive is that of the directive, with padding at the ends
of its lines. -/
theorem Alike.setSource?_cases (h : Alike segment padded) :
    (segment.setSource? = none ∧ padded.setSource? = none) ∨
      ∃ lines others, segment.setSource? = some (joinLines lines) ∧
        padded.setSource? = some (joinLines others) ∧ List.Forall₂ Text.Pads lines others := by
  have htokens := h.tokens
  unfold setSource?
  generalize segment.tokens = lines at htokens ⊢
  generalize padded.tokens = others at htokens ⊢
  cases htokens with
  | nil => exact .inl ⟨rfl, rfl⟩
  | @cons line other continued later hline hcontinued =>
      obtain ⟨pad, hpad, hline⟩ := hline
      have halike := LineRole.alike_of hline hpad
      simp only
      generalize LineRole.of line = role at halike ⊢
      generalize LineRole.of other = role' at halike ⊢
      cases halike with
      | same hrole =>
          cases role with
          | directive => exact absurd rfl hrole
          | _ => exact .inl ⟨rfl, rfl⟩
      | directive keyword harguments =>
          simp only
          by_cases hset : keyword = setKeyword
          · rw [if_pos hset, if_pos hset]
            exact .inr ⟨_, _, rfl, rfl, .cons (harguments.pads_withoutComments hpad)
              (pads_withoutComments hcontinued)⟩
          · rw [if_neg hset, if_neg hset]
            exact .inl ⟨rfl, rfl⟩

theorem Alike.setRule?_eq (h : Alike segment padded) (hstrings : segment.StringsOnLines) :
    padded.setRule? = segment.setRule? := by
  rw [setRule?_eq_bind, setRule?_eq_bind]
  rcases h.setSource?_cases with ⟨hnone, hnone'⟩ | ⟨lines, others, hsource, hother, hpads⟩
  · rw [hnone, hnone']
  · have htokens := ArgToken.tokens_joinLines_of_pads hpads (hstrings _ hsource)
    rw [hsource, hother]
    exact SetRule.toOption_parse_of_tokens htokens

/-- The text of a heading is trimmed at its end. -/
theorem headingText_of_pads (h : List.Forall₂ Token.Pads segment.tokens padded.tokens)
    {line : List Token} (hline : segment.tokens = [line]) :
    headingText padded = headingText segment := by
  unfold headingText allTokens
  rw [hline] at h ⊢
  generalize padded.tokens = others at h ⊢
  cases h with
  | cons hpads hrest =>
      cases hrest
      obtain ⟨pad, hpad, hpads⟩ := hpads
      rw [List.flatten_singleton, List.flatten_singleton]
      cases hpads with
      | nil => rfl
      | blank hkind htext =>
          have hnothing := headingParts_text_append hpad []
          rw [List.nil_append, ← htext] at hnothing
          exact hnothing
      | last htakes => exact headingParts_text_append hpad _
      | cons token _ => rfl

theorem mathContent_of_pads (h : List.Forall₂ Token.Pads segment.tokens padded.tokens) :
    mathContent padded = mathContent segment := by
  have hmath : TokenKind.mathInline.takesPadding = false := rfl
  rw [mathContent, mathContent, allTokens, allTokens, find?_flatten_of_pads h hmath]

theorem Alike.renderBlock_eq (h : Alike segment padded) (style : Style) :
    renderBlock { padded with style } = renderBlock { segment with style } := by
  obtain ⟨hkind, hlines, htokens, hsingle⟩ := h
  unfold renderBlock
  simp only [hkind, hlines]
  cases hsegment : segment.kind with
  | directive => rfl
  | heading level =>
      obtain ⟨line, hline⟩ := hsingle level hsegment
      simp only [headingText_of_pads htokens hline]
  | mathBlock => simp only [mathContent_of_pads htokens]
  | paragraph => simp only [inlineNodes_of_pads htokens]

/-- Padding at the ends of the lines of a segment makes no difference to a document. -/
theorem Alike.agrees (h : Alike segment padded) (hstrings : segment.StringsOnLines) :
    Agrees segment padded :=
  ⟨h.setRule?_eq hstrings, h.renderBlock_eq⟩

end Segment

end MarkupPreview
