import MarkupPreview.Proofs.ArgumentGrammar
import MarkupPreview.Proofs.ArgumentPatterns

/-!
# Padding at the ends of lines

*Padding* is spaces, tabs and carriage returns. Whatever is read from a text without
crossing a separator is read in the same way when something that starts with a separator
is put behind the text, and is then followed by that as well. This is shown once for each
shape of lexeme, with the text behind arbitrary, so that it serves a line that gets padding
at its end and an argument list that gets padding in the middle.

Only a string reads on over separators. An argument list with padding at the ends of its
lines has the tokens it had before if its strings end on the lines they start on.

## Main results

* `name?_of_breaks`, `quantity?_of_breaks`, `enclosed?_append_of_notMem` — lexemes do not
  see what is behind a separator.
* `scan_append_padding` — padding does not count as a bracket.
* `tokens_insert`, `tokens_joinLines_of_pads` — nor does it make a token.
-/

namespace MarkupPreview

open Lexeme

/-! ## Separators behind a text -/

namespace Text

variable {p : Char → Bool} {front back : Text}

/-- Spaces, tabs and carriage returns only. -/
def IsPadding (text : Text) : Prop := ∀ c ∈ text, c = ' ' ∨ c = '\t' ∨ c = '\r'

instance : DecidablePred IsPadding := fun text =>
  decidable_of_iff (text.all fun c => c == ' ' || (c == '\t' || c == '\r')) (by
    simp [IsPadding])

/-- The line with padding behind it. -/
def Pads (line padded : Text) : Prop := ∃ pad, IsPadding pad ∧ padded = line ++ pad

/-- The text starts with a separator if it starts with anything. -/
def Breaks (text : Text) : Prop := ∀ c ∈ text.head?, c ∈ separators

/-- A line ends before the text: a line feed comes, or nothing. -/
def EndsLine (text : Text) : Prop := ∀ c ∈ text.head?, c = '\n'

theorem EndsLine.breaks (h : EndsLine back) : Breaks back := fun c hc => by
  rw [h c hc]
  decide

theorem IsPadding.mem_separators {pad : Text} (h : IsPadding pad) {c : Char} (hc : c ∈ pad) :
    c ∈ separators := by
  rcases h c hc with rfl | rfl | rfl <;> decide

theorem IsPadding.breaks_append {pad : Text} (h : IsPadding pad) (hback : Breaks back) :
    Breaks (pad ++ back) := by
  cases pad with
  | nil => exact hback
  | cons c rest =>
      rintro d ⟨⟩
      exact h.mem_separators List.mem_cons_self

theorem IsPadding.breaks {pad : Text} (h : IsPadding pad) : Breaks pad := fun _ hc =>
  h.mem_separators (List.mem_of_mem_head? hc)

theorem IsPadding.notMem {pad : Text} (h : IsPadding pad) {c : Char} (hc : c ∉ separators) :
    c ∉ pad := fun hmem => hc (h.mem_separators hmem)

theorem IsPadding.isBlank {pad : Text} (h : IsPadding pad) : pad.isBlank = true :=
  isBlank_iff.mpr fun c hc => by rcases h c hc with rfl | rfl | rfl <;> decide

/-- Where a separator comes, no character comes of a class that has no separator in it. -/
theorem Breaks.stops (h : Breaks back) (hp : separators.all (!p ·) = true) : back.Stops p :=
  fun c hc => by simpa using List.all_eq_true.mp hp c (h c hc)

theorem takeWhile_append_of_stops (front : Text) (h : Stops p back) :
    (front ++ back).takeWhile p = front.takeWhile p := by
  induction front with
  | nil => exact takeWhile_of_stops h
  | cons c rest ih => simp only [List.cons_append, List.takeWhile_cons, ih]

theorem dropWhile_append_of_stops (front : Text) (h : Stops p back) :
    (front ++ back).dropWhile p = front.dropWhile p ++ back := by
  induction front with
  | nil => exact dropWhile_of_stops h
  | cons c rest ih =>
      simp only [List.cons_append, List.dropWhile_cons, ih]
      split <;> rfl

end Text

open Text

/-! ## Lexemes before a separator -/

namespace Lexeme

variable {front back : Text}

theorem name?_of_breaks (front : Text) (h : Breaks back) :
    name? (front ++ back) = (name? front).map fun cut => (cut.1, cut.2 ++ back) := by
  cases front with
  | nil =>
      cases back with
      | nil => rfl
      | cons c rest =>
          have hc : isNameStart c = false := stops_cons.mp (h.stops (by decide))
          simp [name?, hc]
  | cons c rest =>
      have hpart : back.Stops isNamePart := h.stops (by decide)
      rw [List.cons_append, name?, name?, takeWhile_append_of_stops rest hpart,
        dropWhile_append_of_stops rest hpart]
      split <;> rfl

theorem splitSign_of_breaks (front : Text) (h : Breaks back) :
    splitSign (front ++ back) = ((splitSign front).1, (splitSign front).2 ++ back) := by
  cases front with
  | nil =>
      rw [List.nil_append]
      unfold splitSign
      split
      · exact absurd (h '-' rfl) (by decide)
      · rfl
  | cons c rest =>
      by_cases hc : c = '-'
      · rw [hc]
        rfl
      · simp [splitSign, hc]

theorem splitFraction_of_breaks (front : Text) (h : Breaks back) :
    splitFraction (front ++ back) = ((splitFraction front).1, (splitFraction front).2 ++ back) := by
  cases front with
  | nil =>
      rw [List.nil_append]
      unfold splitFraction
      split
      · exact absurd (h '.' rfl) (by decide)
      · rfl
  | cons c rest =>
      have hdigit : back.Stops Char.isDigit := h.stops (by decide)
      by_cases hc : c = '.'
      · rw [hc, List.cons_append, splitFraction, splitFraction,
          takeWhile_append_of_stops rest hdigit, dropWhile_append_of_stops rest hdigit]
        split <;> rfl
      · simp [splitFraction, hc]

theorem numeral?_of_breaks (front : Text) (h : Breaks back) :
    numeral? (front ++ back) = (numeral? front).map fun cut => (cut.1, cut.2 ++ back) := by
  have hdigit : back.Stops Char.isDigit := h.stops (by decide)
  simp only [numeral?, splitSign_of_breaks front h, takeWhile_append_of_stops _ hdigit,
    dropWhile_append_of_stops _ hdigit, splitFraction_of_breaks _ h]
  split <;> rfl

/-- A text without separators is found in front of one, or not at all. -/
theorem isPrefixOf_of_breaks {text : Text} (htext : text.all (!separators.contains ·) = true)
    (front : Text) (h : Breaks back) : text.isPrefixOf (front ++ back) = text.isPrefixOf front := by
  induction text generalizing front with
  | nil => rw [List.isPrefixOf_nil_left, List.isPrefixOf_nil_left]
  | cons c rest ih =>
      obtain ⟨hc, hrest⟩ := Bool.and_eq_true_iff.mp htext
      cases front with
      | nil =>
          cases back with
          | nil => rfl
          | cons d later =>
              have hne : c ≠ d := by
                rintro rfl
                simp [h c rfl] at hc
              simp [List.isPrefixOf, hne]
      | cons d later => simp only [List.cons_append, List.isPrefixOf, ih hrest]

theorem suffix_without_separators (unit : LengthUnit) :
    unit.suffix.all (!separators.contains ·) = true := by
  cases unit <;> rfl

theorem split?_of_breaks (front : Text) (h : Breaks back) :
    LengthUnit.split? (front ++ back) =
      (LengthUnit.split? front).map fun cut => (cut.1, cut.2 ++ back) := by
  have hfind : ∀ unit : LengthUnit,
      unit.suffix.isPrefixOf (front ++ back) = unit.suffix.isPrefixOf front := fun unit =>
    isPrefixOf_of_breaks (suffix_without_separators unit) front h
  simp only [LengthUnit.split?, hfind, Option.map_map]
  cases hunit : LengthUnit.all.find? (·.suffix.isPrefixOf front) with
  | none => rfl
  | some unit =>
      have hprefix : unit.suffix <+: front := by simpa using List.find?_some hunit
      simp [List.drop_append_of_le_length hprefix.length_le]

theorem quantity?_of_breaks (front : Text) (h : Breaks back) :
    quantity? (front ++ back) =
      (quantity? front).map fun cut => (cut.1, cut.2.1, cut.2.2 ++ back) := by
  rw [quantity?, quantity?, numeral?_of_breaks front h, Option.map_map, Option.map_map]
  congr 1
  funext cut
  simp only [Function.comp_apply, split?_of_breaks cut.2 h]
  cases LengthUnit.split? cut.2 <;> rfl

theorem enclosed?_append_of_eq_some {delimiter : Char} {body after : Text}
    (h : enclosed? delimiter front = some (body, after)) (back : Text) :
    enclosed? delimiter (front ++ back) = some (body, after ++ back) := by
  have hfront := enclosed?_append h
  have hshape : front ++ back = delimiter :: (body ++ delimiter :: (after ++ back)) := by
    simp [← hfront]
  rw [hshape]
  exact Rule.enclosed?_of_notMem (enclosed?_notMem h)

theorem enclosed?_append_of_notMem {delimiter : Char} (front : Text) (h : delimiter ∉ back) :
    enclosed? delimiter (front ++ back) =
      (enclosed? delimiter front).map fun cut => (cut.1, cut.2 ++ back) := by
  cases hfound : enclosed? delimiter front with
  | some cut => exact enclosed?_append_of_eq_some hfound back
  | none =>
      rw [Option.map_none]
      cases front with
      | nil =>
          cases back with
          | nil => rfl
          | cons c rest => simp [enclosed?, Ne.symm (List.ne_of_not_mem_cons h)]
      | cons c rest =>
          by_cases hc : c = delimiter
          · subst hc
            rw [Rule.enclosed?_cons_eq_none_iff] at hfound
            rw [List.cons_append, Rule.enclosed?_cons_eq_none_iff, List.mem_append, not_or]
            exact ⟨hfound, h⟩
          · simp [enclosed?, hc]

end Lexeme

namespace ArgToken

variable {front pad back : Text}

/-! ## Brackets -/

theorem scan_of_isPadding (h : IsPadding pad) : scan pad = 0 := by
  have hsigns : ∀ c ∈ pad, c ∉ signs := fun c hc =>
    notMem_signs_of_isSeparator (isSeparator_iff.mpr (h.mem_separators hc))
  have happend := scan_append_of_notMem_signs hsigns []
  rwa [List.append_nil, scan_nil] at happend

theorem notMem_separators_of_isQuote {c : Char} (h : isQuote c = true) : c ∉ separators :=
  notMem_of_class (by decide) h

theorem scan_append_padding (text : Text) (h : IsPadding pad) : scan (text ++ pad) = scan text := by
  fun_induction scan text with
  | case1 => exact scan_of_isPadding h
  | case2 c rest hquote body after henclosed ih =>
      rw [List.cons_append, scan_quote hquote, ← List.cons_append,
        enclosed?_append_of_eq_some henclosed]
      exact ih
  | case3 c rest hquote hopen =>
      rw [List.cons_append, scan_quote hquote, ← List.cons_append,
        enclosed?_append_of_notMem _ (h.notMem (notMem_separators_of_isQuote hquote)), hopen]
      rfl
  | case4 c rest hquote ih =>
      rw [List.cons_append, scan_cons (by simpa using hquote), ih]

theorem balance_append_padding (text : Text) (h : IsPadding pad) :
    balance (text ++ pad) = balance text := by
  rw [balance_eq_scan, balance_eq_scan, scan_append_padding text h]

/-! ## Tokens -/

/-- The token is no string that goes on over the end of a line. -/
def OnOneLine : ArgToken → Prop
  | text body => '\n' ∉ body
  | _ => True

instance : DecidablePred OnOneLine
  | text body => inferInstanceAs (Decidable ('\n' ∉ body))
  | name _ | number _ | length _ | openParen | closeParen | openBracket | closeBracket | colon
  | comma | other => .isTrue trivial

/-- Where a text starts makes no difference to its tokens. -/
theorem map_token_lexFrom (start : Nat) (source : Text) :
    (lexFrom start source).map (·.token) = tokens source := by
  suffices h : ∀ other, (lexFrom other source).map (·.token) =
      (lexFrom start source).map (·.token) from (h 0).symm
  fun_induction lexFrom start source with
  | case1 start => intro other; rw [lexFrom]
  | case2 start c rest hseparator ih =>
      intro other
      rw [lexFrom, if_pos hseparator, ih]
  | case3 start c rest hseparator lexeme ih =>
      intro other
      rw [lexFrom, if_neg hseparator, List.map_cons, List.map_cons, ih]

theorem tokens_separator {c : Char} (h : isSeparator c = true) (rest : Text) :
    tokens (c :: rest) = tokens rest := by
  rw [tokens, lex, lexFrom, if_pos h, map_token_lexFrom]

theorem tokens_cons {c : Char} (h : isSeparator c = false) (rest : Text) :
    tokens (c :: rest) = (cut c rest).1 :: tokens (cut c rest).2.2 := by
  rw [tokens, lex, lexFrom, if_neg (by simp [h]), List.map_cons, map_token_lexFrom]

theorem tokens_padding_append (h : IsPadding pad) (back : Text) :
    tokens (pad ++ back) = tokens back := by
  induction pad with
  | nil => rfl
  | cons c rest ih =>
      have hc : isSeparator c = true := isSeparator_iff.mpr (h.mem_separators List.mem_cons_self)
      rw [List.cons_append, tokens_separator hc, ih fun d hd => h d (List.mem_cons_of_mem c hd)]

/-- A token is cut off in front of a separator as if nothing came behind it, unless it is a
string that is not closed before. -/
theorem cut_of_breaks {c : Char} (h : Breaks back)
    (hclosed : isQuote c = true → enclosed? c (c :: front) ≠ none) :
    cut c (front ++ back) = ((cut c front).1, (cut c front).2.1, (cut c front).2.2 ++ back) := by
  unfold cut cutQuoted
  rw [← List.cons_append, name?_of_breaks _ h, quantity?_of_breaks _ h]
  cases name? (c :: front) with
  | some found => rfl
  | none =>
      by_cases hquote : isQuote c = true
      · obtain ⟨⟨body, after⟩, hfound⟩ := Option.ne_none_iff_exists'.mp (hclosed hquote)
        simp only [Option.map_none, if_pos hquote, hfound, enclosed?_append_of_eq_some hfound]
      · simp only [Option.map_none, if_neg hquote]
        rcases quantity? (c :: front) with _ | ⟨numeral, _ | unit, after⟩ <;> rfl

/-- A string that is open at the end of a line, and may not go on over it, is never
closed. -/
theorem notMem_of_open {c : Char} (hquote : isQuote c = true) (hopen : c ∉ front)
    (hback : EndsLine back) (hline : (cut c (front ++ back)).1.OnOneLine) : c ∉ back := by
  intro hmem
  obtain ⟨outside, after, rfl, houtside⟩ := List.eq_append_cons_of_mem hmem
  have hbody : c ∉ front ++ outside := by
    rw [List.mem_append, not_or]
    exact ⟨hopen, houtside⟩
  have hfound : enclosed? c (c :: (front ++ outside ++ c :: after)) =
      some (front ++ outside, after) := Rule.enclosed?_of_notMem hbody
  rw [← List.append_assoc, cut_quote hquote, cutQuoted, hfound] at hline
  -- The line feed between the two quotes is in the string, unless it is the quote.
  cases outside with
  | nil =>
      rw [hback c rfl] at hquote
      exact absurd hquote (by decide)
  | cons d outside =>
      refine hline (List.mem_append_right front ?_)
      rw [hback d rfl]
      exact List.mem_cons_self

/-- Padding at the end of a line makes no difference to the tokens if no string goes on over
the end of a line. -/
theorem tokens_insert (hpad : IsPadding pad) (hback : EndsLine back)
    (h : ∀ token ∈ tokens (front ++ back), token.OnOneLine) :
    tokens (front ++ pad ++ back) = tokens (front ++ back) := by
  rw [List.append_assoc]
  have hbreaks : Breaks (pad ++ back) := hpad.breaks_append hback.breaks
  fun_induction lexFrom 0 front with
  | case1 => exact tokens_padding_append hpad back
  | case2 start c rest hseparator ih =>
      rw [List.cons_append, tokens_separator hseparator] at h ⊢
      rw [List.cons_append, tokens_separator hseparator, ih h]
  | case3 start c rest hseparator lexeme ih =>
      rw [Bool.not_eq_true] at hseparator
      rw [List.cons_append, tokens_cons hseparator] at h ⊢
      rw [List.cons_append, tokens_cons hseparator]
      by_cases hclosed : isQuote c = true → enclosed? c (c :: rest) ≠ none
      · rw [cut_of_breaks hback.breaks hclosed] at h ⊢
        rw [cut_of_breaks hbreaks hclosed, ih (List.forall_mem_cons.mp h).2]
      · -- Everything from the quote on is one token, in both texts.
        simp only [Classical.not_imp, not_not, Rule.enclosed?_cons_eq_none_iff] at hclosed
        obtain ⟨hquote, hopen⟩ := hclosed
        have hbehind : c ∉ back := notMem_of_open hquote hopen hback (h _ List.mem_cons_self)
        have hpadding : c ∉ pad := hpad.notMem (notMem_separators_of_isQuote hquote)
        have hnone : enclosed? c (c :: (rest ++ back)) = none :=
          Rule.enclosed?_cons_eq_none_iff.mpr (by simp [hopen, hbehind])
        have hnone' : enclosed? c (c :: (rest ++ (pad ++ back))) = none :=
          Rule.enclosed?_cons_eq_none_iff.mpr (by simp [hopen, hpadding, hbehind])
        simp only [cut_quote hquote, cutQuoted, hnone, hnone']

theorem endsLine_flatMap (rest : List Text) : EndsLine (rest.flatMap ('\n' :: ·)) := by
  cases rest with
  | nil => rintro _ ⟨⟩
  | cons line rest => rintro _ ⟨⟩; rfl

theorem tokens_flatMap_of_pads {rest padded : List Text} (hpads : List.Forall₂ Pads rest padded)
    (front : Text) (h : ∀ token ∈ tokens (front ++ rest.flatMap ('\n' :: ·)), token.OnOneLine) :
    tokens (front ++ padded.flatMap ('\n' :: ·)) = tokens (front ++ rest.flatMap ('\n' :: ·)) := by
  induction hpads generalizing front with
  | nil => rfl
  | @cons line _ rest more hline _ ih =>
      obtain ⟨pad, hpad, rfl⟩ := hline
      have hassoc : ∀ back : Text, front ++ ('\n' :: (line ++ pad) ++ back) =
          front ++ '\n' :: line ++ pad ++ back := by simp
      rw [List.flatMap_cons, ← List.append_assoc] at h
      have hinsert := tokens_insert hpad (endsLine_flatMap rest) h
      rw [List.flatMap_cons, List.flatMap_cons, hassoc, ih _ (hinsert ▸ h), hinsert,
        List.append_assoc]

/-- Lines with padding at their ends have the tokens of the lines, if no string goes on over
the end of a line. -/
theorem tokens_joinLines_of_pads {lines padded : List Text} (hpads : List.Forall₂ Pads lines padded)
    (h : ∀ token ∈ tokens (joinLines lines), token.OnOneLine) :
    tokens (joinLines padded) = tokens (joinLines lines) := by
  cases hpads with
  | nil => rfl
  | @cons line _ rest more hline hrest =>
      obtain ⟨pad, hpad, rfl⟩ := hline
      have hinsert := tokens_insert hpad (endsLine_flatMap rest) h
      rw [joinLines, joinLines, tokens_flatMap_of_pads hrest _ (hinsert ▸ h), hinsert]

end ArgToken

end MarkupPreview
