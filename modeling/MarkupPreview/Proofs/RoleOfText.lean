import MarkupPreview.Proofs.BlockCover

/-!
# The role of a line, read off its text

The role of a line is decided on its tokens, and yet a reader can tell it without a
lexer: by the equals signs at its start, by the keyword behind its leading white space,
or by the two dollar signs around it.

The tie between the two is the lead. White space never begins a lexeme, so it is one
plain token, and the lead of a line stands exactly where the white space ends
(`Token.takes_of_lead`, `Token.exists_lead_of_takes`). Which rule takes a lexeme there is
settled by the first character alone for keywords and for math: no rule that is tried
before them starts with the same sign.

## Main results

* `LineRole.of_ofLine_eq_heading_iff`, `of_ofLine_eq_directive_iff`,
  `of_ofLine_eq_mathBlock_iff` — each role as a shape of the text.
* `LineRole.of_ofLine_iff` — the role of a line is the one its text asks for.
-/

namespace MarkupPreview

open Text

/-! ## Shapes of a line -/

namespace Text

/-- The line starts with so many equals signs, at least one, and no more. -/
def HasLevel (line : Text) (level : Nat) : Prop :=
  0 < level ∧ ∃ rest, line = List.replicate level '=' ++ rest ∧ rest.head? ≠ some '='

/-- Behind its leading white space the line starts with the keyword, and no word goes on
behind that. -/
def LeadsWith (line keyword : Text) : Prop :=
  ∃ rest, line.trimStart = keyword ++ rest ∧ rest.Stops Lexeme.isWord

/-- Up to the white space around it the line is a formula between two dollar signs, with
white space at both ends of the formula. -/
def IsDisplayMath (line : Text) : Prop :=
  ∃ body, line.trim = '$' :: body ++ ['$'] ∧ '$' ∉ body ∧
    (∃ c ∈ body.head?, isSpace c = true) ∧ ∃ c ∈ body.getLast?, isSpace c = true

end Text

/-! ## Leads -/

/-- White space in front of a lexeme is plain. -/
theorem Piece.Scan.blank_append {blank rest : Text} {found : List Piece}
    (hblank : blank.isBlank = true) (hclaimed : ¬ Unclaimed rest) (h : Scan rest found) :
    ∃ front, (∀ piece ∈ front, piece.kind = .plainText ∧ piece.text.isBlank = true) ∧
      Scan (blank ++ rest) (front ++ found) := by
  by_cases hne : blank = []
  · exact ⟨[], by simp, by rwa [hne]⟩
  · refine ⟨[⟨.plainText, blank⟩], by simp [hblank], .plain hne ?_ (.inr hclaimed) h⟩
    intro back hback hsuffix
    refine unclaimed_of_isBlank hback ?_ rest
    rw [isBlank_iff] at hblank ⊢
    exact fun c hc => hblank c (hsuffix.subset hc)

/-- A text that a rule takes a lexeme off does not start with white space. -/
theorem Rule.Longest.stops_isSpace {rule : Rule} {text lexeme rest : Text}
    (h : rule.Longest text lexeme rest) : text.Stops isSpace := by
  intro c hc
  by_contra hspace
  have hstops : text.Stops startsLexeme := by
    intro d hd
    have heq : c = d := Option.mem_unique hc hd
    exact heq ▸ not_startsLexeme_of_isSpace (by simpa using hspace)
  exact unclaimed_of_stops hstops rule h.matches

namespace Token

/-- The lead of a line is what the first rule takes behind the leading white space, and
the tokens after it read what is left. -/
theorem takes_of_lead {index : Nat} {line : Text} {before after : List Token} {lead : Token}
    (hsplit : ofLine index line = before ++ lead :: after)
    (hbefore : ∀ token ∈ before, token.isBlank = true) (hplain : lead.kind ≠ .plainText)
    (hheading : lead.kind ≠ .heading) :
    ∃ (rule : Rule) (rest : Text), rule.kind = lead.kind ∧
      rule.Takes line.trimStart lead.text rest ∧ Piece.Scan rest (after.map piece) := by
  have hhead : line.head? ≠ some '=' := by
    intro hhead
    obtain ⟨tail, rfl⟩ := List.head?_eq_some_iff.mp hhead
    have hlead : lead ∈ ofLine index ('=' :: tail) := by
      rw [hsplit]
      simp
    exact hheading (congrArg Token.kind (List.mem_singleton.mp hlead))
  have hscan := scan_ofLine index hhead
  rw [hsplit, List.map_append, List.map_cons] at hscan
  obtain ⟨found, hline, hfound⟩ := hscan.of_append
  obtain ⟨rest, -, hrest, htaken⟩ := hfound.of_cons
  obtain ⟨rule, hrule, htakes⟩ := htaken hplain
  have htrim : line.trimStart = found := by
    rw [hline, Piece.textOf_map_piece,
      trimStart_append_of_isBlank (isBlank_spelling_of_forall hbefore)]
    exact dropWhile_of_stops htakes.stops_isSpace
  exact ⟨rule, rest, hrule, htrim ▸ htakes, hrest⟩

/-- What the first rule takes behind the leading white space is the lead of the line. -/
theorem exists_lead_of_takes (index : Nat) {line lexeme rest : Text} {rule : Rule}
    (h : rule.Takes line.trimStart lexeme rest) :
    ∃ before lead after, ofLine index line = before ++ lead :: after ∧
      (∀ token ∈ before, token.isBlank = true) ∧ lead.kind = rule.kind ∧ lead.text = lexeme ∧
        Piece.Scan rest (after.map piece) := by
  obtain ⟨blank, hblank, hline⟩ := exists_blank_append_trimStart line
  have hhead : line.head? ≠ some '=' := by
    intro hhead
    obtain ⟨tail, rfl⟩ := List.head?_eq_some_iff.mp hhead
    -- No rule takes a lexeme at an equals sign.
    have hstops : Stops startsLexeme ('=' :: tail) := stops_cons.mpr (by decide)
    have hsame : trimStart ('=' :: tail) = '=' :: tail :=
      dropWhile_of_stops (stops_cons.mpr (by decide))
    exact unclaimed_of_stops hstops rule (hsame ▸ h.matches)
  have hclaimed : ¬ Unclaimed line.trimStart := fun hclaim => hclaim rule h.matches
  obtain ⟨front, hfront, hscan⟩ :=
    (Piece.Scan.lexeme h (Piece.scan_mergePlain rest)).blank_append hblank hclaimed
  have hpieces : (ofLine index line).map piece =
      front ++ ⟨rule.kind, lexeme⟩ :: Piece.mergePlain (Piece.pieces rest) := by
    rw [← hline] at hscan
    rw [(scan_ofLine index hhead).eq_mergePlain, hscan.eq_mergePlain]
  obtain ⟨before, tail, hsplit, rfl, htail⟩ := List.map_eq_append_iff.mp hpieces
  obtain ⟨lead, after, rfl, hlead, hafter⟩ := List.map_eq_cons_iff.mp htail
  refine ⟨before, lead, after, hsplit, fun token hmem => ?_, congrArg Piece.kind hlead,
    congrArg Piece.text hlead, hafter ▸ Piece.scan_mergePlain rest⟩
  obtain ⟨hkind, htext⟩ := hfront token.piece (List.mem_map_of_mem hmem)
  exact Bool.and_eq_true_iff.mpr ⟨beq_iff_eq.mpr hkind, htext⟩

end Token

/-! ## Keywords and math -/

namespace Rule

/-- At a number sign no rule comes before the keywords. -/
theorem takes_keyword {lexeme rest : Text} (h : keyword.Accepts lexeme rest) :
    keyword.Takes (lexeme ++ rest) lexeme rest := by
  have hlongest : keyword.Longest (lexeme ++ rest) lexeme rest :=
    cut?_eq_some_iff.mp (keyword?_eq_some_iff.mpr ⟨rfl, h⟩)
  obtain ⟨⟨word, -, rfl⟩, -⟩ := h
  have hcomment : ¬ comment.Matches ('#' :: word ++ rest) := cut?_eq_none_iff.mp rfl
  have hmath : ¬ math.Matches ('#' :: word ++ rest) :=
    cut?_eq_none_iff.mp (by simp [cut?, marked?, Lexeme.enclosed?])
  have hearlier : ∀ other ∈ [comment, math], ¬ other.Matches ('#' :: word ++ rest) :=
    List.forall_mem_cons.mpr ⟨hcomment, List.forall_mem_singleton.mpr hmath⟩
  exact { hlongest with first := ⟨[comment, math], _, rfl, hearlier⟩ }

/-- At a dollar sign no rule comes before math. -/
theorem takes_math {lexeme rest : Text} (h : math.Accepts lexeme rest) :
    math.Takes (lexeme ++ rest) lexeme rest := by
  have hlongest : math.Longest (lexeme ++ rest) lexeme rest :=
    cut?_eq_some_iff.mp (marked?_eq_some_iff.mpr ⟨rfl, h⟩)
  obtain ⟨body, -, rfl⟩ := h
  have hcomment : ¬ comment.Matches ('$' :: body ++ ['$'] ++ rest) := cut?_eq_none_iff.mp rfl
  exact { hlongest with first := ⟨[comment], _, rfl, List.forall_mem_singleton.mpr hcomment⟩ }

end Rule

/-! ## Equals signs -/

theorem Text.stops_sign {rest : Text} (h : rest.head? ≠ some '=') : rest.Stops (· == '=') := by
  intro c hc
  rw [beq_eq_false_iff_ne]
  exact fun hsign => h (hsign ▸ hc)

theorem Text.HasLevel.headingParts_level_eq {line : Text} {level : Nat} (h : line.HasLevel level) :
    (headingParts line).1 = level := by
  obtain ⟨-, rest, rfl, hrest⟩ := h
  have hsigns : ∀ c ∈ List.replicate level '=', (c == '=') = true := by simp
  rw [headingParts_level, takeWhile_run hsigns (stops_sign hrest), List.length_replicate]

theorem Text.hasLevel_headingParts {line : Text} (h : line.head? = some '=') :
    line.HasLevel (headingParts line).1 := by
  obtain ⟨tail, rfl⟩ := List.head?_eq_some_iff.mp h
  refine ⟨by simp [headingParts_level], ('=' :: tail).dropWhile (· == '='), ?_, ?_⟩
  · have hsigns : ('=' :: tail).takeWhile (· == '=') =
        List.replicate (headingParts ('=' :: tail)).1 '=' :=
      List.eq_replicate_iff.mpr ⟨rfl, fun c hc => by simpa using mem_takeWhile hc⟩
    rw [← hsigns, List.takeWhile_append_dropWhile]
  · intro hhead
    have hother := stops_dropWhile ('=' :: tail) '=' hhead
    simp at hother

/-! ## Display math -/

/-- Trimming takes off the white space behind a text that ends in something else. -/
theorem Text.trim_eq_of_trimStart {line blank front : Text} {c : Char}
    (h : line.trimStart = front ++ [c] ++ blank) (hblank : blank.isBlank = true)
    (hc : isSpace c = false) : line.trim = front ++ [c] := by
  have hlast : isBlank [c] = false := by simp [isBlank, hc]
  rw [trim, h, trimEnd_append_of_isBlank _ hblank, trimEnd_append_of_not_isBlank _ hlast]
  simp [trimEnd, hc]

theorem isSpacedInside_iff {body : Text} :
    isSpacedInside ('$' :: body ++ ['$']) = true ↔
      (∃ c ∈ body.head?, isSpace c = true) ∧ ∃ c ∈ body.getLast?, isSpace c = true := by
  rw [isSpacedInside, interior_marked, Bool.and_eq_true, Option.any_eq_true, Option.any_eq_true]
  rfl

/-- The line is a spaced formula and white space. -/
theorem Text.isDisplayMath_iff {line : Text} :
    line.IsDisplayMath ↔
      ∃ lexeme rest, line.trimStart = lexeme ++ rest ∧ Rule.math.Accepts lexeme rest ∧
        rest.isBlank = true ∧ isSpacedInside lexeme = true := by
  constructor
  · intro h
    obtain ⟨body, htrim, hbody, hspaced⟩ := h
    obtain ⟨rest, hrest, hsplit⟩ := exists_trimEnd_append_blank line.trimStart
    have hlexeme : line.trimStart.trimEnd = '$' :: body ++ ['$'] := htrim
    rw [hlexeme] at hsplit
    exact ⟨_, rest, hsplit, ⟨body, hbody, rfl⟩, hrest, isSpacedInside_iff.mpr hspaced⟩
  · intro h
    obtain ⟨lexeme, rest, hsplit, ⟨body, hbody, rfl⟩, hrest, hspaced⟩ := h
    have htrim := trim_eq_of_trimStart hsplit hrest (by decide)
    exact ⟨body, htrim, hbody, isSpacedInside_iff.mp hspaced⟩

/-! ## Roles -/

namespace LineRole

variable (index : Nat) {line : Text}

theorem of_ofLine_eq_heading_iff {level : Nat} :
    of (Token.ofLine index line) = heading level ↔ line.HasLevel level := by
  constructor
  · intro h
    obtain ⟨before, lead, after, hsplit, -, hkind, rfl⟩ := of_eq_heading_iff.mp h
    have hlead : lead ∈ Token.ofLine index line := by
      rw [hsplit]
      simp
    obtain ⟨hhead, hline⟩ := Token.ofLine_eq_of_heading hlead hkind
    rw [hline, List.mem_singleton] at hlead
    rw [hlead]
    exact hasLevel_headingParts hhead
  · intro h
    have hlevel := h.headingParts_level_eq
    obtain ⟨hpos, rest, hline, -⟩ := h
    obtain ⟨more, rfl⟩ := Nat.exists_eq_succ_of_ne_zero hpos.ne'
    have hsigns : line = '=' :: (List.replicate more '=' ++ rest) := hline
    rw [← hlevel, hsigns]
    rfl

/-- The five keywords of directives are reserved words. -/
theorem exists_word_of_mem {keyword : Text} (h : keyword ∈ directiveKeywords) :
    ∃ word ∈ reservedWords, keyword = '#' :: word := by
  revert keyword
  decide

theorem of_ofLine_eq_directive_iff {keyword : Text} :
    (∃ arguments, of (Token.ofLine index line) = directive keyword arguments) ↔
      keyword ∈ directiveKeywords ∧ line.LeadsWith keyword := by
  constructor
  · intro h
    obtain ⟨arguments, hrole⟩ := h
    obtain ⟨before, lead, hsplit, hbefore, hkind, rfl, hmem⟩ := of_eq_directive_iff.mp hrole
    obtain ⟨rule, rest, hrule, htakes, -⟩ :=
      Token.takes_of_lead hsplit hbefore (by simp [hkind]) (by simp [hkind])
    obtain rfl : rule = .keyword := Rule.eq_of_kind (hrule.trans hkind) (by decide)
    exact ⟨hmem, rest, htakes.split.symm, htakes.accepts.2⟩
  · intro h
    obtain ⟨hmem, rest, htrim, hstops⟩ := h
    have htakes := Rule.takes_keyword ⟨exists_word_of_mem hmem, hstops⟩
    rw [← htrim] at htakes
    obtain ⟨before, lead, after, hsplit, hbefore, hkind, htext, -⟩ :=
      Token.exists_lead_of_takes index htakes
    exact ⟨after, of_eq_directive_iff.mpr ⟨before, lead, hsplit, hbefore, hkind, htext, hmem⟩⟩

theorem of_ofLine_eq_mathBlock_iff :
    of (Token.ofLine index line) = mathBlock ↔ line.IsDisplayMath := by
  rw [isDisplayMath_iff]
  constructor
  · intro h
    obtain ⟨before, lead, after, hsplit, hbefore, hafter, hkind, hspaced⟩ :=
      of_eq_mathBlock_iff.mp h
    obtain ⟨rule, rest, hrule, htakes, hrest⟩ :=
      Token.takes_of_lead hsplit hbefore (by simp [hkind]) (by simp [hkind])
    obtain rfl : rule = .math := Rule.eq_of_kind (hrule.trans hkind) (by decide)
    have hblank : rest.isBlank = true := (Token.forall_isBlank_iff hrest).mp hafter
    exact ⟨lead.text, rest, htakes.split.symm, htakes.accepts, hblank, hspaced⟩
  · intro h
    obtain ⟨lexeme, rest, htrim, haccepts, hrest, hspaced⟩ := h
    have htakes := Rule.takes_math haccepts
    rw [← htrim] at htakes
    obtain ⟨before, lead, after, hsplit, hbefore, hkind, rfl, hscan⟩ :=
      Token.exists_lead_of_takes index htakes
    have hafter := (Token.forall_isBlank_iff hscan).mpr hrest
    exact of_eq_mathBlock_iff.mpr ⟨before, lead, after, hsplit, hbefore, hafter, hkind, hspaced⟩

/-- The role of a line can be read off its text. It is blank if all of it is white space,
a heading by the equals signs at its very start, a directive by the keyword behind its
leading white space, display math by the dollar signs around it, and content if it has
none of these shapes. The number of the line does not matter. -/
theorem of_ofLine_iff (index : Nat) (line : Text) :
    (of (Token.ofLine index line) = blank ↔ line.isBlank = true) ∧
      (∀ level, of (Token.ofLine index line) = heading level ↔ line.HasLevel level) ∧
      (∀ keyword, (∃ arguments, of (Token.ofLine index line) = directive keyword arguments) ↔
        keyword ∈ directiveKeywords ∧ line.LeadsWith keyword) ∧
      (of (Token.ofLine index line) = mathBlock ↔ line.IsDisplayMath) ∧
      (of (Token.ofLine index line) = content ↔
        line.isBlank = false ∧ (∀ level, ¬ line.HasLevel level) ∧
          (∀ keyword ∈ directiveKeywords, ¬ line.LeadsWith keyword) ∧ ¬ line.IsDisplayMath) := by
  refine ⟨of_ofLine_eq_blank_iff index line, fun level => of_ofLine_eq_heading_iff index,
    fun keyword => of_ofLine_eq_directive_iff index, of_ofLine_eq_mathBlock_iff index, ?_⟩
  constructor
  · intro h
    refine ⟨?_, fun level hlevel => ?_, fun keyword hmem hleads => ?_, fun hmath => ?_⟩
    · rw [← Bool.not_eq_true, ← of_ofLine_eq_blank_iff index, h]
      exact nofun
    · rw [← of_ofLine_eq_heading_iff index, h] at hlevel
      cases hlevel
    · obtain ⟨arguments, hrole⟩ := (of_ofLine_eq_directive_iff index).mpr ⟨hmem, hleads⟩
      rw [h] at hrole
      cases hrole
    · rw [← of_ofLine_eq_mathBlock_iff index, h] at hmath
      cases hmath
  · intro h
    obtain ⟨hblank, hheading, hdirective, hmath⟩ := h
    cases hrole : of (Token.ofLine index line) with
    | blank => simp [(of_ofLine_eq_blank_iff index line).mp hrole] at hblank
    | heading level => exact absurd ((of_ofLine_eq_heading_iff index).mp hrole) (hheading level)
    | directive keyword arguments =>
        obtain ⟨hmem, hleads⟩ := (of_ofLine_eq_directive_iff index).mp ⟨arguments, hrole⟩
        exact absurd hleads (hdirective keyword hmem)
    | mathBlock => exact absurd ((of_ofLine_eq_mathBlock_iff index).mp hrole) hmath
    | content => rfl

end LineRole

end MarkupPreview
