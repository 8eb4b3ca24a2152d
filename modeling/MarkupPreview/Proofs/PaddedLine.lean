import MarkupPreview.Block.Segment
import MarkupPreview.Proofs.Padding

/-!
# Lines with padding at their ends

Padding behind a line is lexed into plain text at its end, and into nothing else: no rule
finds a lexeme in it, and no lexeme in front gets longer by it, but for a comment, which
takes all there is. `Piece.padded` says what becomes of the pieces and `Token.PadsTo` what
becomes of the tokens. What the structure of a document is made of can then be read off
tokens with padding behind them as before: the role of the line, the brackets it leaves
open, and the text it contributes to a directive.

## Main results

* `Rule.cut?_append_padding` — a rule leaves the padding behind its lexeme.
* `Piece.ofLine_append_padding` — the last piece of a line takes the padding, or leaves it.
* `LineRole.alike_of` — a padded line means what the line means.
* `Token.PadsTo.lineBalance_eq` — and it leaves the same groups open.
-/

namespace MarkupPreview

open Lexeme Text

variable {pad : Text}

/-! ## Rules -/

namespace Rule

/-- No rule finds a lexeme in padding. -/
theorem cut?_of_isPadding (rule : Rule) (h : IsPadding pad) : rule.cut? pad = none := by
  have hstops : pad.Stops startsLexeme := fun c hc =>
    not_startsLexeme_of_isSpace (isBlank_iff.mp h.isBlank c (List.mem_of_mem_head? hc))
  exact cut?_eq_none_iff.mpr (unclaimed_of_stops hstops rule)

theorem marked?_append_padding {mark : Char} (hmark : mark ∉ separators) (h : IsPadding pad)
    (text : Text) :
    marked? mark (text ++ pad) = (marked? mark text).map fun cut => (cut.1, cut.2 ++ pad) := by
  rw [marked?, marked?, enclosed?_append_of_notMem text (h.notMem hmark), Option.map_map,
    Option.map_map]
  rfl

theorem call?_append_padding (h : IsPadding pad) (text : Text) :
    call? (text ++ pad) = (call? text).map fun cut => (cut.1, cut.2 ++ pad) := by
  have hlower : pad.Stops Char.isLower := h.breaks.stops (by decide)
  simp only [call?, takeWhile_append_of_stops text hlower, dropWhile_append_of_stops text hlower]
  generalize text.dropWhile Char.isLower = after
  rw [List.dropWhile_append, List.takeWhile_append]
  cases hrest : after.dropWhile isSpace with
  | nil =>
      -- Nothing but white space follows the name, so no parenthesis does.
      have hpad : pad.dropWhile isSpace = [] := trimStart_eq_nil_iff.mpr h.isBlank
      simp [hpad]
  | cons c rest =>
      have hlength : (after.takeWhile isSpace).length ≠ after.length := by
        intro hall
        have hself := (List.takeWhile_prefix isSpace).eq_of_length hall
        have hsplit := List.takeWhile_append_dropWhile (p := isSpace) (l := after)
        rw [hself, hrest] at hsplit
        simp at hsplit
      have hhead : (c :: rest ++ pad).head? = (c :: rest).head? := rfl
      have hcons : ¬ (c :: rest).isEmpty = true := Bool.false_ne_true
      rw [if_neg hlength, if_neg hcons, hhead]
      split <;> rfl

theorem emphasis?_append_padding (h : IsPadding pad) (c : Char) (rest : Text) :
    emphasis? (c :: rest ++ pad) =
      (emphasis? (c :: rest)).map fun cut => (cut.1, cut.2 ++ pad) := by
  by_cases hmark : isEmphasisMark c = true
  · have hseparator : c ∉ separators := by
      simp only [isEmphasisMark, Bool.or_eq_true, beq_iff_eq] at hmark
      rcases hmark with rfl | rfl <;> decide
    have hmarked := marked?_append_padding hseparator h (c :: rest)
    cases rest with
    | nil =>
        -- A mark alone encloses nothing, whatever comes next.
        have halone : marked? c [c] = none := by simp [marked?, enclosed?]
        rw [halone] at hmarked
        rw [List.cons_append, List.nil_append] at hmarked ⊢
        rw [emphasis?, emphasis?, hmarked, halone, Option.map_none, ite_self, ite_self,
          Option.map_none]
    | cons d rest =>
        have hhead : (d :: rest ++ pad).head? = (d :: rest).head? := rfl
        rw [List.cons_append, emphasis?, emphasis?, hhead]
        split
        · exact hmarked
        · rfl
  · simp [emphasis?, hmark]

/-- A rule other than that for comments cuts the same lexeme off a line with padding behind
it, and leaves the padding. -/
theorem cut?_append_padding {rule : Rule} (hrule : rule ≠ comment) (h : IsPadding pad)
    (text : Text) :
    rule.cut? (text ++ pad) = (rule.cut? text).map fun cut => (cut.1, cut.2 ++ pad) := by
  cases text with
  | nil =>
      rw [List.nil_append, cut?_of_isPadding rule h, cut?_of_isPadding rule (List.forall_mem_nil _)]
      rfl
  | cons c rest =>
      cases rule with
      | comment => exact absurd rfl hrule
      | math => exact marked?_append_padding (by decide) h _
      | keyword =>
          have hword : pad.Stops isWord := h.breaks.stops (by decide)
          by_cases hc : c = '#'
          · subst hc
            simp only [cut?, List.cons_append, keyword?, takeWhile_append_of_stops rest hword,
              dropWhile_append_of_stops rest hword]
            split <;> rfl
          · simp [cut?, keyword?, hc]
      | reference =>
          by_cases hc : c = '#'
          · subst hc
            simp only [cut?, List.cons_append, reference?, name?_of_breaks rest h.breaks,
              Option.map_map]
            rfl
          · simp [cut?, reference?, hc]
      | call => exact call?_append_padding h _
      | quotation =>
          by_cases hc : isQuote c = true
          · have hmark := ArgToken.notMem_separators_of_isQuote hc
            simp only [cut?, List.cons_append, quotation?, if_pos hc]
            exact marked?_append_padding hmark h (c :: rest)
          · simp [cut?, quotation?, hc]
      | number =>
          simp only [cut?, number?, quantity?_of_breaks _ h.breaks, Option.map_map]
          rfl
      | emphasis => exact emphasis?_append_padding h c rest

end Rule

theorem Rule.comment?_eq_none_iff {text : Text} :
    comment? text = none ↔ ¬ ['/', '/'] <+: text := by
  constructor
  · rintro hnone ⟨body, rfl⟩
    cases hnone
  · intro hslashes
    unfold comment?
    split
    · rename_i body
      exact absurd ⟨body, rfl⟩ hslashes
    · rfl

/-- Where no comment starts, the padding behind a line changes nothing at its front. -/
theorem firstRule?_append_padding (h : IsPadding pad) {text : Text}
    (hcomment : ¬ ['/', '/'] <+: text) :
    firstRule? (text ++ pad) =
      (firstRule? text).map fun cut => (cut.1, cut.2.1, cut.2.2 ++ pad) := by
  have hlonger : ¬ ['/', '/'] <+: text ++ pad := by
    rwa [← List.isPrefixOf_iff_prefix, isPrefixOf_of_breaks rfl text h.breaks,
      List.isPrefixOf_iff_prefix]
  have hrule : ∀ rule : Rule, rule.cut? (text ++ pad) =
      (rule.cut? text).map fun cut => (cut.1, cut.2 ++ pad) := by
    intro rule
    by_cases hkind : rule = .comment
    · subst hkind
      have hnone : Rule.comment.cut? text = none := Rule.comment?_eq_none_iff.mpr hcomment
      rw [hnone]
      exact Rule.comment?_eq_none_iff.mpr hlonger
    · exact Rule.cut?_append_padding hkind h text
  simp only [firstRule?, hrule, List.map_findSome?, Option.map_map, Function.comp_def]

/-! ## Pieces -/

/-- The kinds of pieces that go on to the end of the line. -/
def TokenKind.takesPadding (kind : TokenKind) : Bool :=
  kind == .plainText || kind == .comment || kind == .heading

theorem Rule.takesPadding_of_ne_comment {rule : Rule} (h : rule ≠ comment) :
    rule.kind.takesPadding = false := by
  revert h
  cases rule <;> decide

namespace Piece

/-- The pieces of a line with padding behind it. The last piece takes the padding if its kind
does; otherwise the padding is a piece by itself, unless there is none. -/
def padded (pad : Text) : List Piece → List Piece
  | [] => if pad = [] then [] else [⟨.plainText, pad⟩]
  | [last] =>
      if last.kind.takesPadding then [⟨last.kind, last.text ++ pad⟩] else last :: padded pad []
  | piece :: next :: rest => piece :: padded pad (next :: rest)

theorem padded_cons {piece : Piece} (h : piece.kind.takesPadding = false) (rest : List Piece) :
    padded pad (piece :: rest) = piece :: padded pad rest := by
  cases rest with
  | nil => simp [padded, h]
  | cons next rest => rfl

/-- Plain text in front runs into the padding as it does into the line. -/
theorem joinPlain_padded (c : Char) (found : List Piece) :
    joinPlain ⟨.plainText, [c]⟩ (padded pad found) =
      padded pad (joinPlain ⟨.plainText, [c]⟩ found) := by
  rcases found with _ | ⟨last, _ | ⟨next, rest⟩⟩
  · by_cases hpad : pad = []
    · simp [padded, joinPlain, hpad]
    · simp [padded, joinPlain, hpad, TokenKind.takesPadding]
  · by_cases hplain : last.kind = .plainText
    · simp [padded, joinPlain, hplain, TokenKind.takesPadding]
    · by_cases htakes : last.kind.takesPadding = true
      · simp [padded, joinPlain, hplain, htakes]
      · simp [padded, joinPlain, hplain, htakes]
  · by_cases hplain : last.kind = .plainText
    · simp [padded, joinPlain, hplain]
    · simp [padded, joinPlain, hplain]

theorem mergePlain_pieces_padding (h : IsPadding pad) :
    mergePlain (pieces pad) = padded pad [] := by
  induction pad with
  | nil => simp [pieces, mergePlain, padded]
  | cons c rest ih =>
      have hunclaimed : Unclaimed (c :: rest) := fun rule =>
        Rule.cut?_eq_none_iff.mp (rule.cut?_of_isPadding h)
      rw [pieces_of_unclaimed hunclaimed, mergePlain_cons, ih (List.forall_mem_cons.mp h).2]
      by_cases hrest : rest = []
      · simp [padded, joinPlain, hrest]
      · simp [padded, joinPlain, hrest]

theorem mergePlain_pieces_append (h : IsPadding pad) (text : Text) :
    mergePlain (pieces (text ++ pad)) = padded pad (mergePlain (pieces text)) := by
  fun_induction pieces text with
  | case1 => exact mergePlain_pieces_padding h
  | case2 c rest kind lexeme after hfirst ih =>
      by_cases hcomment : ['/', '/'] <+: c :: rest
      · -- The comment takes the padding, and nothing is behind either of the two.
        obtain ⟨body, hbody⟩ := hcomment
        rw [← hbody] at hfirst
        cases hfirst
        have hpieces : pieces (['/', '/'] ++ body ++ pad) = _ :: pieces [] :=
          pieces_of_takes (Rule.takes_comment (body ++ pad))
        rw [← hbody, hpieces, pieces]
        rfl
      · have hlonger := firstRule?_append_padding h hcomment
        rw [hfirst] at hlonger
        obtain ⟨rule, rfl, htakes⟩ := firstRule?_eq_some_iff.mp hlonger
        have hplain := rule.kind_ne_plainText
        have hkind : rule.kind.takesPadding = false := by
          refine rule.takesPadding_of_ne_comment ?_
          rintro rfl
          obtain ⟨⟨body, rfl⟩, -⟩ := htakes.accepts
          exact hcomment ⟨body ++ after, (firstRule?_append hfirst).1⟩
        rw [pieces_of_takes htakes, mergePlain_cons, mergePlain_cons, ih,
          joinPlain_of_kind_ne hplain, joinPlain_of_kind_ne hplain, padded_cons hkind]
  | case3 c rest hfirst ih =>
      have hcomment : ¬ ['/', '/'] <+: c :: rest := by
        rintro ⟨body, hbody⟩
        rw [← hbody] at hfirst
        cases hfirst
      have hlonger := firstRule?_append_padding h hcomment
      rw [hfirst] at hlonger
      have hunclaimed : Unclaimed (c :: (rest ++ pad)) := firstRule?_eq_none_iff.mp hlonger
      rw [List.cons_append, pieces_of_unclaimed hunclaimed, mergePlain_cons, mergePlain_cons, ih,
        joinPlain_padded]

theorem ofLine_of_head?_ne {line : Text} (h : line.head? ≠ some '=') :
    ofLine line = mergePlain (pieces line) := by
  unfold ofLine
  split
  · exact absurd rfl h
  · rfl

/-- The last piece of a line takes the padding behind the line, or leaves it. -/
theorem ofLine_append_padding (h : IsPadding pad) (line : Text) :
    ofLine (line ++ pad) = padded pad (ofLine line) := by
  by_cases hheading : line.head? = some '='
  · obtain ⟨tail, rfl⟩ := List.head?_eq_some_iff.mp hheading
    rfl
  · have hlonger : (line ++ pad).head? ≠ some '=' := by
      cases line with
      | nil =>
          intro hhead
          exact absurd (h.breaks '=' hhead) (by decide)
      | cons c rest => exact hheading
    rw [ofLine_of_head?_ne hheading, ofLine_of_head?_ne hlonger, mergePlain_pieces_append h]

end Piece

/-! ## Tokens -/

namespace Token

/-- The tokens with padding behind them: a blank token, or a last token that has taken it. -/
inductive PadsTo (pad : Text) : List Token → List Token → Prop
  | nil : PadsTo pad [] []
  | blank {token : Token} (hkind : token.kind = .plainText) (htext : token.text = pad) :
    PadsTo pad [] [token]
  | last {token : Token} (htakes : token.kind.takesPadding = true) :
    PadsTo pad [token] [{ token with text := token.text ++ pad }]
  | cons (token : Token) {tokens padded : List Token} (h : PadsTo pad tokens padded) :
    PadsTo pad (token :: tokens) (token :: padded)

theorem padsTo_stamp (pad : Text) (line column : Nat) (pieces : List Piece) :
    PadsTo pad (Piece.stamp line column pieces)
      (Piece.stamp line column (Piece.padded pad pieces)) := by
  fun_induction Piece.padded pad pieces generalizing column with
  | case1 hpad => exact .nil
  | case2 hpad => exact .blank rfl rfl
  | case3 last htakes => exact .last htakes
  | case4 last htakes ih => exact .cons _ (ih _)
  | case5 piece next rest ih => exact .cons _ (ih _)

theorem padsTo_ofLine (h : IsPadding pad) (index : Nat) (line : Text) :
    PadsTo pad (ofLine index line) (ofLine index (line ++ pad)) := by
  rw [ofLine, ofLine, Piece.ofLine_append_padding h]
  exact padsTo_stamp pad index 0 _

namespace PadsTo

variable {tokens padded : List Token}

theorem isBlank_append (hpad : IsPadding pad) (token : Token) :
    isBlank { token with text := token.text ++ pad } = token.isBlank := by
  simp [isBlank, isPlain, hpad.isBlank]

theorem isBlank_of_text {token : Token} (hpad : IsPadding pad) (hkind : token.kind = .plainText)
    (htext : token.text = pad) : token.isBlank = true := by
  simp [isBlank, isPlain, hkind, htext, hpad.isBlank]

theorem all_isBlank (h : PadsTo pad tokens padded) (hpad : IsPadding pad) :
    padded.all isBlank = tokens.all isBlank := by
  induction h with
  | nil => rfl
  | blank hkind htext => simp [isBlank_of_text hpad hkind htext]
  | last => rw [List.all_cons, List.all_cons, isBlank_append hpad]
  | cons token _ ih => rw [List.all_cons, List.all_cons, ih]

/-- What comes after the blank tokens at the front is padded too. -/
theorem dropWhile_isBlank (h : PadsTo pad tokens padded) (hpad : IsPadding pad) :
    PadsTo pad (tokens.dropWhile isBlank) (padded.dropWhile isBlank) := by
  induction h with
  | nil => exact .nil
  | blank hkind htext =>
      rw [List.dropWhile_cons, if_pos (isBlank_of_text hpad hkind htext)]
      exact .nil
  | @last token htakes =>
      rw [List.dropWhile_cons, List.dropWhile_cons, isBlank_append hpad]
      cases token.isBlank with
      | true => exact .nil
      | false => exact .last htakes
  | cons token h ih =>
      rw [List.dropWhile_cons, List.dropWhile_cons]
      cases token.isBlank with
      | true => exact ih
      | false => exact .cons token h

/-- Tokens chosen by their kinds spell what they spelled before, with padding behind it. -/
theorem pads_spelling_filter (h : PadsTo pad tokens padded) (hpad : IsPadding pad)
    (keeps : TokenKind → Bool) :
    Pads (spelling (tokens.filter fun token => keeps token.kind))
      (spelling (padded.filter fun token => keeps token.kind)) := by
  induction h with
  | nil => exact ⟨[], List.forall_mem_nil _, rfl⟩
  | @blank token _ htext =>
      cases hkeep : keeps token.kind with
      | true => exact ⟨pad, hpad, by simp [hkeep, htext]⟩
      | false => exact ⟨[], List.forall_mem_nil _, by simp [hkeep]⟩
  | @last token _ =>
      cases hkeep : keeps token.kind with
      | true => exact ⟨pad, hpad, by simp [hkeep]⟩
      | false => exact ⟨[], List.forall_mem_nil _, by simp [hkeep]⟩
  | cons token _ ih =>
      obtain ⟨more, hmore, hspelling⟩ := ih
      refine ⟨more, hmore, ?_⟩
      cases hkeep : keeps token.kind with
      | true => simp [hkeep, hspelling]
      | false => simp [hkeep, hspelling]

theorem lineBalance_eq (h : PadsTo pad tokens padded) (hpad : IsPadding pad) :
    lineBalance padded = lineBalance tokens := by
  obtain ⟨more, hmore, hspelling⟩ := h.pads_spelling_filter hpad
    fun kind => kind != .comment && kind != .stringLiteral
  rw [lineBalance, hspelling, ArgToken.balance_append_padding _ hmore]
  rfl

theorem pads_withoutComments (h : PadsTo pad tokens padded) (hpad : IsPadding pad) :
    Pads (withoutComments tokens) (withoutComments padded) :=
  h.pads_spelling_filter hpad (· != .comment)

/-- A token of a kind that takes no padding is found as before. -/
theorem find?_kind (h : PadsTo pad tokens padded) {kind : TokenKind}
    (hkind : kind.takesPadding = false) :
    padded.find? (·.kind == kind) = tokens.find? (·.kind == kind) := by
  have hne {token : Token} (htakes : token.kind.takesPadding = true) :
      (token.kind == kind) = false := by
    rw [beq_eq_false_iff_ne]
    rintro rfl
    rw [htakes] at hkind
    cases hkind
  induction h with
  | nil => rfl
  | blank hplain =>
      have hother := hne (by rw [hplain]; rfl)
      rw [List.find?_cons, hother]
  | last htakes => simp [hne htakes]
  | cons token _ ih => rw [List.find?_cons, List.find?_cons, ih]

end PadsTo

end Token

/-! ## Roles -/

theorem headingParts_level_append (h : IsPadding pad) (text : Text) :
    (headingParts (text ++ pad)).1 = (headingParts text).1 := by
  have hsign : pad.Stops (· == '=') := h.breaks.stops (by decide)
  rw [headingParts_level, headingParts_level, takeWhile_append_of_stops text hsign]

namespace LineRole

/-- The roles are the same but for padding behind the arguments of a directive. -/
inductive Alike (pad : Text) : LineRole → LineRole → Prop
  | same {role : LineRole} (h : role.kind? ≠ some .directive) : Alike pad role role
  | directive (keyword : Text) {arguments padded : List Token}
    (h : Token.PadsTo pad arguments padded) :
    Alike pad (.directive keyword arguments) (.directive keyword padded)

theorem Alike.kind?_eq {role other : LineRole} (h : Alike pad role other) :
    other.kind? = role.kind? := by
  cases h <;> rfl

/-- Padding behind a line makes no difference to what the line means. -/
theorem alike_of {tokens padded : List Token} (h : Token.PadsTo pad tokens padded)
    (hpad : IsPadding pad) : Alike pad (of tokens) (of padded) := by
  have hlead := h.dropWhile_isBlank hpad
  have hhead := List.head?_dropWhile_not Token.isBlank padded
  unfold of
  generalize tokens.dropWhile Token.isBlank = rest at hlead ⊢
  generalize padded.dropWhile Token.isBlank = more at hlead hhead ⊢
  cases hlead with
  | nil => exact .same (by nofun)
  | blank hkind htext =>
      -- A blank token is no lead.
      have hblank := Token.PadsTo.isBlank_of_text hpad hkind htext
      simp [hblank] at hhead
  | @last token htakes =>
      obtain ⟨kind, text, line, column⟩ := token
      cases kind with
      | heading =>
          simp only [headingParts_level_append hpad]
          exact .same (by nofun)
      | plainText | comment => exact .same (by nofun)
      | _ => cases htakes
  | @cons token after padded hafter =>
      obtain ⟨kind, text, line, column⟩ := token
      cases kind with
      | keyword =>
          simp only
          split
          · exact .directive text hafter
          · exact .same (by nofun)
      | mathInline =>
          simp only [hafter.all_isBlank hpad]
          split <;> exact .same (by nofun)
      | _ => exact .same (by nofun)

end LineRole

end MarkupPreview
