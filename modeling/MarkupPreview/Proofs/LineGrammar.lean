import MarkupPreview.Proofs.RuleLanguage
import MarkupPreview.Token.Line

/-!
# The grammar of a line

`Scan` says what the tokens of a line are without saying how they are found. A
line is read from the left. Where a rule matches, the first that does takes its
longest lexeme, and the reading goes on behind it. Where none matches, a run of
characters is plain, as long as no rule matches at any of them, and the run ends
only at a lexeme or with the line.

The lexer cuts plain text character by character and joins it afterwards. Both
directions are needed to see that it does the same: what it finds is a reading
(`scan_mergePlain`), and a line has no other (`Scan.eq_mergePlain`).

## Main results

* `Piece.scan_iff` — the pieces the lexer makes are the one reading of a text.
* `Token.ofLine_grammar` — the tokens of a line: a comment or a heading as a
  whole, and otherwise the reading by the ordered rules.
-/

namespace MarkupPreview

/-! ## Where a lexeme can start -/

/-- The signs that a lexeme can start with. -/
def lexemeSigns : List Char := ['/', '$', '#', '"', '\x27', '-', '*', '_']

/-- The characters that a lexeme can start with. -/
def startsLexeme (c : Char) : Bool := c.isLower || c.isDigit || lexemeSigns.contains c

theorem not_startsLexeme_of_isSpace {c : Char} (h : isSpace c = true) : startsLexeme c = false := by
  have hrange := h
  simp only [isSpace, spaceRanges, List.any_cons, List.any_nil, Bool.or_false, Bool.or_eq_true,
    Bool.and_eq_true, decide_eq_true_eq, Char.toNat] at hrange
  have hdigit : c.isDigit = false := by
    simp only [Char.isDigit, Bool.and_eq_false_iff, decide_eq_false_iff_not, ge_iff_le,
      UInt32.le_iff_toNat_le]
    have h0 : '0'.val.toNat = 48 := rfl
    have h9 : '9'.val.toNat = 57 := rfl
    omega
  have hsign : lexemeSigns.contains c = false := by
    rw [List.contains_eq_mem, decide_eq_false_iff_not]
    exact Text.notMem_of_class (by decide) h
  rw [startsLexeme, Rule.not_isLower_of_isSpace h, hdigit, hsign]
  rfl

namespace Rule

theorem Accepts.exists_start {rule : Rule} {lexeme rest : Text} (h : rule.Accepts lexeme rest) :
    ∃ c tail, lexeme = c :: tail ∧ startsLexeme c = true := by
  cases rule with
  | comment =>
      obtain ⟨⟨body, rfl⟩, -⟩ := h
      exact ⟨_, _, rfl, by decide⟩
  | math =>
      obtain ⟨body, -, rfl⟩ := h
      exact ⟨_, _, rfl, by decide⟩
  | keyword =>
      obtain ⟨⟨word, -, rfl⟩, -⟩ := h
      exact ⟨_, _, rfl, by decide⟩
  | reference =>
      obtain ⟨first, others, -, -, rfl⟩ := h
      exact ⟨_, _, rfl, by decide⟩
  | call =>
      obtain ⟨⟨name, hname, blank, -, rfl⟩, -⟩ := h
      have hne : name ≠ [] := by
        rintro rfl
        exact absurd hname (by decide)
      obtain ⟨c, tail, rfl⟩ := List.exists_cons_of_ne_nil hne
      exact ⟨c, _, rfl, by simp [startsLexeme, isLower_of_mem_builtinNames hname c (by simp)]⟩
  | quotation =>
      obtain ⟨quote, body, hquote, -, rfl⟩ := h
      refine ⟨_, _, rfl, ?_⟩
      simp only [Lexeme.isQuote, Bool.or_eq_true, beq_iff_eq] at hquote
      rcases hquote with rfl | rfl <;> decide
  | number =>
      obtain ⟨_, unit, ⟨sign, digits, fraction, hsign, hdigits, -, rfl⟩, rfl⟩ := h
      obtain ⟨c, tail, rfl⟩ := List.exists_cons_of_ne_nil hdigits.1
      rcases hsign with rfl | rfl
      · exact ⟨c, _, rfl, by simp [startsLexeme, hdigits.2 c (by simp)]⟩
      · exact ⟨'-', _, rfl, by decide⟩
  | emphasis =>
      obtain ⟨mark, body, hmark, -, -, rfl⟩ := h
      refine ⟨_, _, rfl, ?_⟩
      simp only [isEmphasisMark, Bool.or_eq_true, beq_iff_eq] at hmark
      rcases hmark with rfl | rfl <;> decide

theorem kind_ne_plainText (rule : Rule) : rule.kind ≠ .plainText := by
  cases rule <;> decide

theorem kind_ne_heading (rule : Rule) : rule.kind ≠ .heading := by
  cases rule <;> decide

/-- Only references and calls make tokens of one kind. -/
theorem eq_of_kind {rule other : Rule} (h : rule.kind = other.kind)
    (hcall : other.kind ≠ .functionCall) : rule = other := by
  cases rule <;> cases other <;> first | rfl | exact absurd rfl hcall | cases h

theorem Longest.ne_nil {rule : Rule} {text lexeme rest : Text}
    (h : rule.Longest text lexeme rest) : lexeme ≠ [] :=
  (cut?_append (cut?_eq_some_iff.mpr h)).2

theorem Longest.matches {rule : Rule} {text lexeme rest : Text}
    (h : rule.Longest text lexeme rest) : rule.Matches text :=
  ⟨lexeme, rest, h.split, h.accepts⟩

/-- A comment takes all of a text that starts with two slashes. -/
theorem takes_comment (body : Text) :
    comment.Takes ('/' :: '/' :: body) ('/' :: '/' :: body) [] where
  split := List.append_nil _
  accepts := ⟨⟨body, rfl⟩, rfl⟩
  longest other after hsplit _ := by
    rw [← hsplit, List.length_append]
    exact Nat.le_add_right ..
  first := ⟨[], _, rfl, by simp⟩

end Rule

/-- No rule matches where no lexeme can start. -/
theorem unclaimed_of_stops {text : Text} (h : text.Stops startsLexeme) : Unclaimed text := by
  rintro rule ⟨lexeme, rest, rfl, haccepts⟩
  obtain ⟨c, tail, rfl, hc⟩ := haccepts.exists_start
  rw [h c rfl] at hc
  cases hc

/-- No rule matches at white space. -/
theorem unclaimed_of_isBlank {run : Text} (hrun : run ≠ []) (h : run.isBlank = true) (rest : Text) :
    Unclaimed (run ++ rest) := by
  obtain ⟨c, more, rfl⟩ := List.exists_cons_of_ne_nil hrun
  have hspace : isSpace c = true := Text.isBlank_iff.mp h c List.mem_cons_self
  exact unclaimed_of_stops (Text.stops_cons.mpr (not_startsLexeme_of_isSpace hspace))

namespace Piece

/-! ## Readings -/

/-- The reading of a text by the ordered rules. -/
inductive Scan : Text → List Piece → Prop
  | done : Scan [] []
  /-- The first rule that matches takes its longest lexeme. -/
  | lexeme {rule : Rule} {text lexeme rest : Text} {pieces : List Piece}
      (htakes : rule.Takes text lexeme rest) (hrest : Scan rest pieces) :
      Scan text (⟨rule.kind, lexeme⟩ :: pieces)
  /-- Plain text has no lexeme at any of its characters, and goes on up to the
  next lexeme. -/
  | plain {run rest : Text} {pieces : List Piece} (hrun : run ≠ [])
      (hplain : ∀ back, back ≠ [] → back <:+ run → Unclaimed (back ++ rest))
      (hend : rest = [] ∨ ¬ Unclaimed rest) (hrest : Scan rest pieces) :
      Scan (run ++ rest) (⟨.plainText, run⟩ :: pieces)

/-! ## What the lexer cuts -/

theorem pieces_of_takes {rule : Rule} {text lexeme rest : Text}
    (h : rule.Takes text lexeme rest) : pieces text = ⟨rule.kind, lexeme⟩ :: pieces rest := by
  have hfirst : firstRule? text = some (rule.kind, lexeme, rest) :=
    firstRule?_eq_some_iff.mpr ⟨rule, rfl, h⟩
  cases text with
  | nil => exact absurd (List.append_eq_nil_iff.mp h.split).1 h.ne_nil
  | cons c tail =>
      rw [pieces]
      split
      · rename_i hfound
        rw [hfirst] at hfound
        cases hfound
        rfl
      · rename_i hfound
        rw [hfirst] at hfound
        cases hfound

theorem pieces_of_unclaimed {c : Char} {rest : Text} (h : Unclaimed (c :: rest)) :
    pieces (c :: rest) = ⟨.plainText, [c]⟩ :: pieces rest := by
  rw [pieces]
  split
  · rename_i hfound
    rw [firstRule?_eq_none_iff.mpr h] at hfound
    cases hfound
  · rfl

theorem mergePlain_cons (piece : Piece) (pieces : List Piece) :
    mergePlain (piece :: pieces) = joinPlain piece (mergePlain pieces) := rfl

theorem joinPlain_of_kind_ne {piece : Piece} (h : piece.kind ≠ .plainText) (pieces : List Piece) :
    joinPlain piece pieces = piece :: pieces := by
  unfold joinPlain
  split <;> simp [h]

theorem joinPlain_of_head?_ne {piece : Piece} {pieces : List Piece}
    (h : ∀ next ∈ pieces.head?, next.kind ≠ .plainText) :
    joinPlain piece pieces = piece :: pieces := by
  unfold joinPlain
  split
  · rfl
  · rename_i next rest
    simp [h next rfl]

/-! ## The lexer reads by the rules -/

theorem Scan.cons_plain {c : Char} {rest : Text} {pieces : List Piece}
    (hclaim : Unclaimed (c :: rest)) (h : Scan rest pieces) :
    Scan (c :: rest) (joinPlain ⟨.plainText, [c]⟩ pieces) := by
  have hsingle : ∀ back, back ≠ [] → back <:+ [c] → Unclaimed (back ++ rest) := by
    intro back hne hsuffix
    rcases List.suffix_cons_iff.mp hsuffix with rfl | hnil
    · exact hclaim
    · exact absurd (List.suffix_nil.mp hnil) hne
  cases h with
  | done =>
      show Scan ([c] ++ []) _
      exact .plain (List.cons_ne_nil _ _) hsingle (.inl rfl) .done
  | @lexeme rule _ lexeme after _ htakes hrest =>
      -- The lexeme behind the character ends the run.
      have hends : ¬ Unclaimed rest := fun h => h rule htakes.matches
      rw [joinPlain_of_head?_ne (by simp [rule.kind_ne_plainText])]
      show Scan ([c] ++ rest) _
      exact .plain (List.cons_ne_nil _ _) hsingle (.inr hends) (.lexeme htakes hrest)
  | @plain run after _ hrun hplain hend hrest =>
      show Scan (c :: run ++ after) _
      refine .plain (List.cons_ne_nil _ _) ?_ hend hrest
      intro back hne hsuffix
      rcases List.suffix_cons_iff.mp hsuffix with rfl | hback
      · exact hclaim
      · exact hplain back hne hback

theorem scan_mergePlain (text : Text) : Scan text (mergePlain (pieces text)) := by
  fun_induction pieces text with
  | case1 => exact .done
  | case2 c rest kind lexeme after h ih =>
      obtain ⟨rule, rfl, htakes⟩ := firstRule?_eq_some_iff.mp h
      rw [mergePlain_cons, joinPlain_of_kind_ne rule.kind_ne_plainText]
      exact .lexeme htakes ih
  | case3 c rest h ih =>
      rw [mergePlain_cons]
      exact ih.cons_plain (firstRule?_eq_none_iff.mp h)

/-! ## There is no other reading -/

theorem head?_mergePlain_of_claimed {rest : Text} (h : rest = [] ∨ ¬ Unclaimed rest) :
    ∀ next ∈ (mergePlain (pieces rest)).head?, next.kind ≠ .plainText := by
  rcases h with rfl | hclaimed
  · simp [pieces, mergePlain]
  · rw [← firstRule?_eq_none_iff] at hclaimed
    obtain ⟨⟨kind, lexeme, after⟩, hfound⟩ := Option.ne_none_iff_exists'.mp hclaimed
    obtain ⟨rule, rfl, htakes⟩ := firstRule?_eq_some_iff.mp hfound
    rw [pieces_of_takes htakes, mergePlain_cons, joinPlain_of_kind_ne rule.kind_ne_plainText]
    simp [rule.kind_ne_plainText]

/-- A run without a lexeme in it, up to a lexeme or the end, becomes one piece. -/
theorem mergePlain_pieces_run {run rest : Text} (hrun : run ≠ [])
    (hplain : ∀ back, back ≠ [] → back <:+ run → Unclaimed (back ++ rest))
    (hend : rest = [] ∨ ¬ Unclaimed rest) :
    mergePlain (pieces (run ++ rest)) = ⟨.plainText, run⟩ :: mergePlain (pieces rest) := by
  induction run with
  | nil => exact absurd rfl hrun
  | cons c more ih =>
      have hhead : Unclaimed (c :: (more ++ rest)) :=
        hplain _ (List.cons_ne_nil _ _) List.suffix_rfl
      rw [List.cons_append, pieces_of_unclaimed hhead, mergePlain_cons]
      -- The last character of the run stands before no plain piece; every other one
      -- joins the piece that the run behind it has become.
      cases more with
      | nil => exact joinPlain_of_head?_ne (head?_mergePlain_of_claimed hend)
      | cons d others =>
          rw [ih (List.cons_ne_nil _ _) fun back hne h =>
            hplain back hne (h.trans (List.suffix_cons ..))]
          simp [joinPlain]

theorem Scan.eq_mergePlain {text : Text} {found : List Piece} (h : Scan text found) :
    found = mergePlain (pieces text) := by
  induction h with
  | done => simp [pieces, mergePlain]
  | @lexeme rule _ _ _ _ htakes _ ih =>
      rw [pieces_of_takes htakes, mergePlain_cons, joinPlain_of_kind_ne rule.kind_ne_plainText, ih]
  | plain hrun hplain hend _ ih => rw [mergePlain_pieces_run hrun hplain hend, ih]

theorem scan_iff {text : Text} {found : List Piece} :
    Scan text found ↔ mergePlain (pieces text) = found :=
  ⟨fun h => h.eq_mergePlain.symm, fun h => h ▸ scan_mergePlain text⟩

/-! ## What a reading holds -/

theorem Scan.textOf_eq {text : Text} {found : List Piece} (h : Scan text found) :
    textOf found = text := by
  rw [h.eq_mergePlain, textOf_mergePlain, textOf_pieces]

/-- The first piece is plain, or what the first rule takes; the others read what
comes behind it. -/
theorem Scan.of_cons {text : Text} {piece : Piece} {later : List Piece}
    (h : Scan text (piece :: later)) :
    ∃ rest, text = piece.text ++ rest ∧ Scan rest later ∧ (piece.kind ≠ .plainText →
      ∃ rule : Rule, rule.kind = piece.kind ∧ rule.Takes text piece.text rest) := by
  cases h with
  | @lexeme rule _ _ rest _ htakes hrest =>
      exact ⟨rest, htakes.split.symm, hrest, fun _ => ⟨rule, rfl, htakes⟩⟩
  | @plain _ rest _ _ _ _ hrest => exact ⟨rest, rfl, hrest, fun hkind => absurd rfl hkind⟩

/-- The last pieces read what the first ones leave. -/
theorem Scan.of_append {text : Text} {front back : List Piece} (h : Scan text (front ++ back)) :
    ∃ rest, text = textOf front ++ rest ∧ Scan rest back := by
  induction front generalizing text with
  | nil => exact ⟨text, rfl, h⟩
  | cons piece front ih =>
      obtain ⟨behind, rfl, hbehind, -⟩ := h.of_cons
      obtain ⟨rest, rfl, hrest⟩ := ih hbehind
      exact ⟨rest, (List.append_assoc ..).symm, hrest⟩

/-- A piece that is not plain is a lexeme of a rule of its kind. -/
theorem Scan.accepts_of_mem {text : Text} {found : List Piece} (h : Scan text found)
    {piece : Piece} (hmem : piece ∈ found) (hkind : piece.kind ≠ .plainText) :
    ∃ (rule : Rule) (rest : Text), rule.kind = piece.kind ∧ rule.Accepts piece.text rest := by
  induction found generalizing text with
  | nil => cases hmem
  | cons first later ih =>
      obtain ⟨rest, -, hrest, hfirst⟩ := h.of_cons
      rcases List.mem_cons.mp hmem with rfl | hmem
      · obtain ⟨rule, hrule, htakes⟩ := hfirst hkind
        exact ⟨rule, rest, hrule, htakes.accepts⟩
      · exact ih hrest hmem

/-- A character that no lexeme starts with begins a plain piece. -/
theorem Scan.exists_plain_of_head {text : Text} {found : List Piece} (h : Scan text found)
    {c : Char} (hhead : text.head? = some c) (hc : startsLexeme c = false) :
    ∃ run later, found = ⟨.plainText, c :: run⟩ :: later := by
  have hstops : text.Stops startsLexeme := by simpa [Text.Stops, hhead] using hc
  cases h with
  | done => cases hhead
  | lexeme htakes _ => exact absurd htakes.matches (unclaimed_of_stops hstops _)
  | @plain run _ later hrun _ _ _ =>
      obtain ⟨d, more, rfl⟩ := List.exists_cons_of_ne_nil hrun
      rw [List.cons_append, List.head?_cons, Option.some.injEq] at hhead
      exact ⟨more, later, by rw [hhead]⟩

/-- Behind the name of a call its parenthesis is plain text. -/
theorem Scan.plain_after_call {text : Text} {front back : List Piece} {name : Text}
    (h : Scan text (front ++ ⟨.functionCall, name⟩ :: back)) (hname : name.head? ≠ some '#') :
    ∃ run later, back = ⟨.plainText, '(' :: run⟩ :: later := by
  obtain ⟨calling, -, hcalling⟩ := h.of_append
  obtain ⟨rest, -, hrest, hcall⟩ := hcalling.of_cons
  obtain ⟨rule, hrule, htakes⟩ := hcall (by simp)
  have haccepts := htakes.accepts
  cases rule with
  | reference =>
      obtain ⟨first, others, -, -, rfl⟩ := haccepts
      exact absurd rfl hname
  | call => exact hrest.exists_plain_of_head haccepts.2 (by decide)
  | _ => cases hrule

end Piece

/-! ## The tokens of a line -/

/-- A token without its place. -/
def Token.piece (token : Token) : Piece := ⟨token.kind, token.text⟩

theorem Piece.textOf_map_piece (tokens : List Token) :
    textOf (tokens.map Token.piece) = spelling tokens :=
  List.flatMap_map ..

theorem Piece.map_piece_stamp (line column : Nat) (pieces : List Piece) :
    (stamp line column pieces).map Token.piece = pieces := by
  induction pieces generalizing column with
  | nil => rfl
  | cons piece rest ih => simp [stamp, Token.piece, ih]

namespace Token

theorem map_piece_ofLine (index : Nat) (line : Text) :
    (ofLine index line).map piece = Piece.ofLine line :=
  Piece.map_piece_stamp ..

theorem piece_mem_ofLine {index : Nat} {line : Text} {token : Token}
    (h : token ∈ ofLine index line) : token.piece ∈ Piece.ofLine line := by
  rw [← map_piece_ofLine index]
  exact List.mem_map_of_mem h

/-- A line that is no heading is read by the rules. -/
theorem scan_ofLine (index : Nat) {line : Text} (h : line.head? ≠ some '=') :
    Piece.Scan line ((ofLine index line).map piece) := by
  rw [map_piece_ofLine]
  unfold Piece.ofLine
  split
  · exact absurd rfl h
  · exact Piece.scan_mergePlain _

/-- A heading token is its whole line. -/
theorem ofLine_eq_of_heading {index : Nat} {line : Text} {token : Token}
    (h : token ∈ ofLine index line) (hkind : token.kind = .heading) :
    line.head? = some '=' ∧ ofLine index line = [⟨.heading, line, index, 0⟩] := by
  have hhead : line.head? = some '=' := by
    by_contra hhead
    obtain ⟨rule, rest, hrule, -⟩ := (scan_ofLine index hhead).accepts_of_mem
      (List.mem_map_of_mem h) (by simp [piece, hkind])
    exact rule.kind_ne_heading (hrule.trans hkind)
  obtain ⟨tail, rfl⟩ := List.head?_eq_some_iff.mp hhead
  exact ⟨hhead, rfl⟩

/-- The tokens of a line. Two slashes at its start make it one comment, an equals
sign one heading. Any other line is read from the left: its pieces, in their
order, are the one sequence in which the first rule that matches takes its longest
lexeme and a character is plain where the reading comes to it and no rule matches.
In particular the parenthesis of a call is plain. -/
theorem ofLine_grammar (index : Nat) (line : Text) :
    (['/', '/'] <+: line → ofLine index line = [⟨.comment, line, index, 0⟩]) ∧
      (['='] <+: line → ofLine index line = [⟨.heading, line, index, 0⟩]) ∧
      (¬ ['/', '/'] <+: line → ¬ ['='] <+: line →
        (∀ pieces, (ofLine index line).map piece = pieces ↔ Piece.Scan line pieces) ∧
        ∀ front name back,
          (ofLine index line).map piece = front ++ ⟨.functionCall, name⟩ :: back →
          name.head? ≠ some '#' → ∃ run later, back = ⟨.plainText, '(' :: run⟩ :: later) := by
  refine ⟨?_, ?_, fun _ hheading => ?_⟩
  · rintro ⟨body, rfl⟩
    have hscan : Piece.Scan (['/', '/'] ++ body) [⟨.comment, ['/', '/'] ++ body⟩] :=
      .lexeme (Rule.takes_comment body) .done
    have hpieces : Piece.ofLine (['/', '/'] ++ body) = [⟨.comment, ['/', '/'] ++ body⟩] :=
      (Piece.scan_iff.mp hscan)
    rw [ofLine, hpieces]
    rfl
  · rintro ⟨body, rfl⟩
    rfl
  · have hhead : line.head? ≠ some '=' := by
      intro h
      obtain ⟨tail, rfl⟩ := List.head?_eq_some_iff.mp h
      exact hheading ⟨tail, rfl⟩
    have hscan := scan_ofLine index hhead
    refine ⟨fun pieces => ⟨fun h => h ▸ hscan, fun h => ?_⟩, fun front name back h hname => ?_⟩
    · rw [hscan.eq_mergePlain, h.eq_mergePlain]
    · exact (h ▸ hscan).plain_after_call hname

end Token

end MarkupPreview
