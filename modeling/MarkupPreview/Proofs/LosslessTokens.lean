import Mathlib.Data.List.Chain
import MarkupPreview.Proofs.LineGrammar

/-!
# Tokens lose nothing

The tokens of a source are its text cut into pieces: line by line, from left to
right, without a gap and without an overlap. That no character is lost is said by
`joinLines_ofSource`; here the places come in. The column of a token is the number
of characters before it, whichever way the tokens before it came about, since
`stamp` counts off the finished pieces.

The cut is canonical: no token is empty, and plain text is one token up to the
next lexeme.

## Main results

* `Token.ofSource_lossless` — the lines of a source, the places of their tokens and
  that no two plain tokens touch.
-/

namespace MarkupPreview

/-! ## Lines -/

namespace Text

theorem length_lines (text : Text) : text.lines.length = text.count '\n' + 1 := by
  induction text with
  | nil => rfl
  | cons c rest ih =>
      by_cases hc : c = '\n'
      · subst hc
        rw [lines_newline, List.length_cons, ih, List.count_cons_self]
      · have hlines : (lines (c :: rest)).length = (lines rest).length := by
          simp [lines, splitLines, hc]
        rw [hlines, ih, List.count_cons_of_ne hc]

end Text

/-! ## Pieces -/

namespace Piece

theorem Scan.text_ne_nil {text : Text} {found : List Piece} (h : Scan text found) {piece : Piece}
    (hmem : piece ∈ found) : piece.text ≠ [] := by
  induction h with
  | done => cases hmem
  | lexeme htakes _ ih =>
      rcases List.mem_cons.mp hmem with rfl | hmem
      · exact htakes.ne_nil
      · exact ih hmem
  | plain hrun _ _ _ ih =>
      rcases List.mem_cons.mp hmem with rfl | hmem
      · exact hrun
      · exact ih hmem

/-- Plain text is never followed by plain text. -/
theorem Scan.isChain {text : Text} {found : List Piece} (h : Scan text found) :
    found.IsChain fun a b => ¬ (a.kind = .plainText ∧ b.kind = .plainText) := by
  induction h with
  | done => exact .nil
  | @lexeme rule _ _ _ _ _ _ ih =>
      refine List.isChain_cons.mpr ⟨fun next _ hplain => ?_, ih⟩
      exact rule.kind_ne_plainText hplain.1
  | plain _ _ hend hrest ih =>
      refine List.isChain_cons.mpr ⟨fun next hnext hplain => ?_, ih⟩
      -- Behind a run there is a lexeme or nothing.
      rw [hrest.eq_mergePlain] at hnext
      exact head?_mergePlain_of_claimed hend next hnext hplain.2

theorem text_ne_nil_of_mem_ofLine {line : Text} {piece : Piece} (h : piece ∈ ofLine line) :
    piece.text ≠ [] := by
  unfold ofLine at h
  split at h
  · rw [List.mem_singleton.mp h]
    exact List.cons_ne_nil _ _
  · exact (scan_mergePlain _).text_ne_nil h

theorem isChain_ofLine (line : Text) :
    (ofLine line).IsChain fun a b => ¬ (a.kind = .plainText ∧ b.kind = .plainText) := by
  unfold ofLine
  split
  · exact .singleton _
  · exact (scan_mergePlain _).isChain

/-- Pieces are placed one after the other: each starts where those before it
end. -/
theorem column_of_stamp {line column : Nat} {pieces : List Piece} {front back : List Token}
    {token : Token} (h : stamp line column pieces = front ++ token :: back) :
    token.column = column + (spelling front).length := by
  induction front generalizing column pieces with
  | nil =>
      cases pieces with
      | nil => cases h
      | cons piece rest =>
          obtain ⟨rfl, -⟩ := List.cons.inj h
          rfl
  | cons first front ih =>
      cases pieces with
      | nil => cases h
      | cons piece rest =>
          obtain ⟨rfl, hrest⟩ := List.cons.inj h
          rw [ih hrest, spelling_cons, List.length_append, Nat.add_assoc]

end Piece

/-! ## Tokens -/

namespace Token

theorem text_ne_nil_of_mem_ofLine {index : Nat} {line : Text} {token : Token}
    (h : token ∈ ofLine index line) : token.text ≠ [] :=
  Piece.text_ne_nil_of_mem_ofLine (piece_mem_ofLine h)

theorem isChain_ofLine (index : Nat) (line : Text) :
    (ofLine index line).IsChain fun a b => ¬ (a.isPlain = true ∧ b.isPlain = true) := by
  have hpieces := Piece.isChain_ofLine line
  rw [← map_piece_ofLine index, List.isChain_map] at hpieces
  simpa [isPlain, piece] using hpieces

theorem map_spelling_ofSource (source : Text) : (ofSource source).map spelling = source.lines := by
  apply List.ext_getElem
  · simp [ofSource]
  · intro i _ _
    simp [ofSource, spelling_ofLine]

theorem getElem?_ofSource {source : Text} {i : Nat} {tokens : List Token}
    (h : (ofSource source)[i]? = some tokens) :
    ∃ line, source.lines[i]? = some line ∧ tokens = ofLine i line := by
  rw [ofSource, List.getElem?_mapIdx, Option.map_eq_some_iff] at h
  obtain ⟨line, hline, rfl⟩ := h
  exact ⟨line, hline, rfl⟩

/-- The tokens of a source are its lines, as many as it has line feeds and one
more, and joined they are the source. In each line the tokens know their line and
the number of characters before them; none is empty, and no two that touch are
both plain text. -/
theorem ofSource_lossless (source : Text) :
    (ofSource source).length = source.count '\n' + 1 ∧
      Text.joinLines ((ofSource source).map spelling) = source ∧
      ∀ i tokens, (ofSource source)[i]? = some tokens →
        '\n' ∉ spelling tokens ∧
        (∀ front token back, tokens = front ++ token :: back →
          token.line = i ∧ token.text ≠ [] ∧ token.column = (spelling front).length) ∧
        tokens.IsChain fun a b => ¬ (a.isPlain = true ∧ b.isPlain = true) := by
  refine ⟨?_, joinLines_ofSource source, fun i tokens htokens => ?_⟩
  · rw [← Text.length_lines, ofSource, List.length_mapIdx]
  · obtain ⟨line, hline, rfl⟩ := getElem?_ofSource htokens
    refine ⟨?_, fun front token back hsplit => ?_, isChain_ofLine i line⟩
    · rw [spelling_ofLine]
      exact Text.newline_notMem_of_mem_lines (List.mem_of_getElem? hline)
    · have hmem : token ∈ ofLine i line := by
        rw [hsplit]
        simp
      have hcolumn := Piece.column_of_stamp hsplit
      exact ⟨line_of_mem_ofLine hmem, text_ne_nil_of_mem_ofLine hmem, by simpa using hcolumn⟩

end Token

end MarkupPreview
