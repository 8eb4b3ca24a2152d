import Mathlib.Data.List.TakeWhile
import MarkupPreview.Directive.ArgToken
import MarkupPreview.Proofs.RuleLanguage

/-!
# The patterns of argument tokens

The tokens of an argument list are given by patterns, and the lexer is to take the longest
text that any of them matches. `Spells` writes the patterns down by their shape. The lexer
does not compare them: `cut` looks at the first character, which leaves one pattern, or the
two of numbers and lengths, and then scans greedily. So it has to be shown that no pattern
goes on beyond what is cut off, whichever it is.

The token `other` has no pattern. It is what is left: the one character where no pattern
matches, or a quote without a partner together with all that is behind it.

## Main results

* `Spells.cut_eq` — a text that spells a token is cut off as a whole, so it spells no other.
* `Spells.length_le_cut` — no prefix that spells a token is longer than what is cut off.
* `cut_cases` — what is cut off spells the token, or the token is `other`.
* `reads_cut`, `Reads.cut_eq` — the token at the front of a text is the one the patterns ask
  for.
-/

namespace MarkupPreview

open Lexeme

/-! ## First characters -/

namespace Text

/-- The characters that separate the tokens of an argument list. -/
def separators : Text := [' ', '\t', '\r', '\n']

theorem isSeparator_iff {c : Char} : ArgToken.isSeparator c = true ↔ c ∈ separators := by
  simp [ArgToken.isSeparator, separators, or_assoc]

end Text

namespace Lexeme

theorem not_isAlpha_of_isDigit {c : Char} (h : c.isDigit = true) : c.isAlpha = false := by
  simp only [Char.isDigit, Bool.and_eq_true, decide_eq_true_eq, ge_iff_le,
    UInt32.le_iff_toNat_le] at h
  have hnine : '9'.val.toNat = 57 := rfl
  have hupper : 'A'.val.toNat = 65 := rfl
  have hlower : 'a'.val.toNat = 97 := rfl
  show (decide (c.val ≥ 'A'.val ∧ c.val ≤ 'Z'.val) ||
    (decide (c.val ≥ 'a'.val) && decide (c.val ≤ 'z'.val))) = false
  simp only [Bool.or_eq_false_iff, Bool.and_eq_false_iff, decide_eq_false_iff_not, ge_iff_le,
    UInt32.le_iff_toNat_le]
  omega

/-- Whether a numeral can start with a character. -/
def isNumeralStart (c : Char) : Bool := c.isDigit || c == '-'

theorem not_isNameStart_of_isNumeralStart {c : Char} (h : isNumeralStart c = true) :
    isNameStart c = false := by
  simp only [isNumeralStart, Bool.or_eq_true, beq_iff_eq] at h
  rcases h with hdigit | rfl
  · have hunderscore : c ≠ '_' := by
      rintro rfl
      exact absurd hdigit (by decide)
    simp [isNameStart, not_isAlpha_of_isDigit hdigit, hunderscore]
  · decide

theorem not_isQuote_of_isNumeralStart {c : Char} (h : isNumeralStart c = true) :
    isQuote c = false := by
  by_contra hquote
  simp only [Bool.not_eq_false, isQuote, Bool.or_eq_true, beq_iff_eq] at hquote
  rcases hquote with rfl | rfl <;> exact absurd h (by decide)

end Lexeme

theorem IsNumeral.exists_start {numeral : Text} (h : IsNumeral numeral) :
    ∃ c rest, numeral = c :: rest ∧ isNumeralStart c = true := by
  obtain ⟨sign, digits, fraction, hsign, hdigits, -, rfl⟩ := h
  rcases hsign with rfl | rfl
  · obtain ⟨c, rest, rfl⟩ := List.exists_cons_of_ne_nil hdigits.1
    exact ⟨c, rest ++ fraction, rfl, by simp [isNumeralStart, hdigits.2 c]⟩
  · exact ⟨'-', digits ++ fraction, rfl, rfl⟩

/-- A numeral and its unit are read as such where nothing follows. -/
theorem IsNumeral.quantity?_eq {numeral : Text} (h : IsNumeral numeral)
    (unit : Option LengthUnit) :
    quantity? (numeral ++ unitText unit) = some (numeral, unit, []) := by
  cases unit with
  | none =>
      have hnumeral : numeral? (numeral ++ []) = some (numeral, []) :=
        Rule.numeral?_of_stops h (by simp [Text.Stops])
      simp only [quantity?, unitText, hnumeral]
      rfl
  | some unit =>
      have hnumeral := Rule.numeral?_of_stops h (Rule.stops_suffix_append unit [])
      have hunit := Rule.split?_suffix_append unit []
      rw [List.append_nil] at hnumeral hunit
      simp [quantity?, unitText, hnumeral, hunit]

namespace ArgToken

/-! ## Patterns -/

/-- The token that a text spells by one of the patterns, from its first character to its
last. -/
inductive Spells : Text → ArgToken → Prop
  | name {first : Char} {others : Text} (hfirst : isNameStart first = true)
      (hothers : ∀ c ∈ others, isNamePart c = true) :
      Spells (first :: others) (name (first :: others))
  /-- A string holds no quote of its own kind; line feeds it may hold. -/
  | text {quote : Char} {body lexeme : Text} (hquote : isQuote quote = true)
      (hmarked : IsMarked quote body lexeme) : Spells lexeme (text body)
  | number {numeral : Text} (h : IsNumeral numeral) : Spells numeral (number numeral)
  | length {numeral : Text} (h : IsNumeral numeral) (unit : LengthUnit) :
      Spells (numeral ++ unit.suffix) (length (numeral ++ unit.suffix))
  | openParen : Spells ['('] openParen
  | closeParen : Spells [')'] closeParen
  | openBracket : Spells ['['] openBracket
  | closeBracket : Spells [']'] closeBracket
  | colon : Spells [':'] colon
  | comma : Spells [','] comma

/-- The lexeme spells the token, and no longer prefix of the text spells any. -/
structure Longest (lexeme rest : Text) (token : ArgToken) : Prop where
  spells : Spells lexeme token
  longest : ∀ other after found, other ++ after = lexeme ++ rest → Spells other found →
    other.length ≤ lexeme.length

/-- No prefix of the text spells a token. -/
def Unmatched (text : Text) : Prop :=
  ∀ lexeme rest token, lexeme ++ rest = text → ¬ Spells lexeme token

/-- The token that stands at the front of a text, which it cuts into the token's characters
and the rest. -/
inductive Reads : Text → Text → ArgToken → Prop
  | pattern {lexeme rest : Text} {token : ArgToken} (h : Longest lexeme rest token) :
      Reads lexeme rest token
  /-- One character at which no pattern matches. -/
  | character {c : Char} {rest : Text} (hseparator : isSeparator c = false)
      (hquote : isQuote c = false) (h : Unmatched (c :: rest)) : Reads [c] rest other
  /-- A quote without a partner, and all that is behind it. -/
  | unclosed {quote : Char} {body : Text} (hquote : isQuote quote = true) (hbody : quote ∉ body) :
      Reads (quote :: body) [] other

/-- The token of a numeral with the unit that comes directly behind it, if there is one. -/
def ofQuantity (numeral : Text) : Option LengthUnit → ArgToken
  | none => number numeral
  | some unit => length (numeral ++ unit.suffix)

theorem spells_ofQuantity {numeral : Text} (h : IsNumeral numeral) (unit : Option LengthUnit) :
    Spells (numeral ++ unitText unit) (ofQuantity numeral unit) := by
  cases unit with
  | none =>
      rw [unitText, List.append_nil]
      exact .number h
  | some unit => exact .length h unit

theorem not_isSeparator_of_class {c : Char} {p : Char → Bool}
    (hp : Text.separators.all (!p ·) = true) (h : p c = true) : isSeparator c = false := by
  rw [← Bool.not_eq_true, Text.isSeparator_iff]
  exact Text.notMem_of_class hp h

theorem Spells.exists_start {lexeme : Text} {token : ArgToken} (h : Spells lexeme token) :
    ∃ c rest, lexeme = c :: rest ∧ isSeparator c = false := by
  cases h with
  | @name first others hfirst _ =>
      exact ⟨first, others, rfl, not_isSeparator_of_class (by decide) hfirst⟩
  | @text quote body _ hquote hmarked =>
      exact ⟨quote, body ++ [quote], hmarked.2, not_isSeparator_of_class (by decide) hquote⟩
  | number h =>
      obtain ⟨c, rest, rfl, hc⟩ := h.exists_start
      exact ⟨c, rest, rfl, not_isSeparator_of_class (by decide) hc⟩
  | length h unit =>
      obtain ⟨c, rest, rfl, hc⟩ := h.exists_start
      exact ⟨c, rest ++ unit.suffix, rfl, not_isSeparator_of_class (by decide) hc⟩
  | openParen | closeParen | openBracket | closeBracket | colon | comma =>
      exact ⟨_, [], rfl, by decide⟩

/-! ## What each pattern cuts off -/

variable {c : Char} {rest : Text}

theorem cut_nameStart (h : isNameStart c = true) (rest : Text) :
    cut c rest = (name (c :: rest.takeWhile isNamePart), c :: rest.takeWhile isNamePart,
      rest.dropWhile isNamePart) := by
  simp [cut, name?, h]

theorem cut_closed {body : Text} (hquote : isQuote c = true) (hbody : c ∉ body) (rest : Text) :
    cut c (body ++ c :: rest) = (text body, c :: body ++ [c], rest) := by
  have hfound : enclosed? c (c :: (body ++ c :: rest)) = some (body, rest) :=
    Rule.enclosed?_of_notMem hbody
  rw [cut_quote hquote, cutQuoted, hfound]

theorem cut_unclosed (hquote : isQuote c = true) (hrest : c ∉ rest) :
    cut c rest = (other, c :: rest, []) := by
  rw [cut_quote hquote, cutQuoted, Rule.enclosed?_cons_eq_none_iff.mpr hrest]

theorem cut_quantity {numeral after : Text} {unit : Option LengthUnit}
    (h : quantity? (c :: rest) = some (numeral, unit, after)) :
    cut c rest = (ofQuantity numeral unit, numeral ++ unitText unit, after) := by
  have hsplit := quantity?_append h
  obtain ⟨first, others, rfl, hfirst⟩ := (Rule.isNumeral_of_quantity? h).exists_start
  obtain rfl : first = c := by simpa using congrArg List.head? hsplit
  have hname : name? (first :: rest) = none := by
    simp [name?, not_isNameStart_of_isNumeralStart hfirst]
  cases unit <;> simp [cut, hname, not_isQuote_of_isNumeralStart hfirst, h, ofQuantity, unitText]

/-- What neither starts a name nor is a quote or the start of a numeral is cut off alone. -/
theorem cut_single (hname : isNameStart c = false) (hquote : isQuote c = false)
    (hquantity : quantity? (c :: rest) = none) :
    cut c rest = ((punctuation? c).getD other, [c], rest) := by
  simp [cut, name?, hname, hquote, hquantity]

theorem spells_of_punctuation? {token : ArgToken} (h : punctuation? c = some token) :
    Spells [c] token := by
  unfold punctuation? at h
  split at h
  · exact Option.some.inj h ▸ .openParen
  · exact Option.some.inj h ▸ .closeParen
  · exact Option.some.inj h ▸ .openBracket
  · exact Option.some.inj h ▸ .closeBracket
  · exact Option.some.inj h ▸ .colon
  · exact Option.some.inj h ▸ .comma
  · cases h

/-- What is cut off spells the token. If the token is `other`, it is a quote without a
partner and the whole rest, or a single character. -/
theorem cut_cases (c : Char) (rest : Text) :
    Spells (cut c rest).2.1 (cut c rest).1 ∨
      (isQuote c = true ∧ c ∉ rest ∧ cut c rest = (other, c :: rest, [])) ∨
      (isQuote c = false ∧ cut c rest = (other, [c], rest)) := by
  by_cases hname : isNameStart c = true
  · rw [cut_nameStart hname]
    exact .inl (.name hname fun _ hc => Text.mem_takeWhile hc)
  rw [Bool.not_eq_true] at hname
  by_cases hquote : isQuote c = true
  · by_cases hclosed : c ∈ rest
    · obtain ⟨body, after, rfl, hbody⟩ := List.eq_append_cons_of_mem hclosed
      rw [cut_closed hquote hbody]
      exact .inl (.text hquote ⟨hbody, rfl⟩)
    · exact .inr (.inl ⟨hquote, hclosed, cut_unclosed hquote hclosed⟩)
  rw [Bool.not_eq_true] at hquote
  cases hquantity : quantity? (c :: rest) with
  | some found =>
      obtain ⟨numeral, unit, after⟩ := found
      rw [cut_quantity hquantity]
      exact .inl (spells_ofQuantity (Rule.isNumeral_of_quantity? hquantity) unit)
  | none =>
      rw [cut_single hname hquote hquantity]
      cases htoken : punctuation? c with
      | some token => exact .inl (spells_of_punctuation? htoken)
      | none => exact .inr (.inr ⟨hquote, rfl⟩)

/-! ## No pattern goes further -/

/-- A numeral with or without a unit that goes on is read at least so far. -/
theorem length_le_cut_quantity {numeral after : Text} (unit : Option LengthUnit)
    (h : IsNumeral numeral) (hsplit : numeral ++ unitText unit ++ after = c :: rest) :
    (cut c rest).1 ≠ other ∧ (numeral ++ unitText unit).length ≤ (cut c rest).2.1.length := by
  have haccepts : Rule.number.Accepts (numeral ++ unitText unit) after :=
    ⟨numeral, unit, h, rfl⟩
  obtain ⟨longest, behind, hfound, hle⟩ := Rule.exists_number?_of_accepts haccepts
  rw [hsplit, Rule.number?, Option.map_eq_some_iff] at hfound
  obtain ⟨⟨numeral', unit', after'⟩, hquantity, hlongest⟩ := hfound
  cases hlongest
  rw [cut_quantity hquantity]
  exact ⟨by cases unit' <;> simp [ofQuantity], hle⟩

theorem Spells.length_le_cut {lexeme after : Text} {token : ArgToken} (h : Spells lexeme token)
    (hsplit : lexeme ++ after = c :: rest) :
    (cut c rest).1 ≠ other ∧ lexeme.length ≤ (cut c rest).2.1.length := by
  cases h with
  | @name first others hfirst hothers =>
      rw [List.cons_append] at hsplit
      obtain ⟨rfl, rfl⟩ := List.cons.inj hsplit
      rw [cut_nameStart hfirst, List.takeWhile_append_of_pos hothers]
      simp
  | @text quote body _ hquote hmarked =>
      obtain ⟨hbody, rfl⟩ := hmarked
      have hshape : quote :: body ++ [quote] ++ after = quote :: (body ++ quote :: after) := by simp
      obtain ⟨rfl, rfl⟩ := List.cons.inj (hshape.symm.trans hsplit)
      rw [cut_closed hquote hbody]
      simp
  | number h =>
      rw [← List.append_nil lexeme] at hsplit ⊢
      exact length_le_cut_quantity none h hsplit
  | length h unit => exact length_le_cut_quantity (some unit) h hsplit
  | openParen | closeParen | openBracket | closeBracket | colon | comma =>
      obtain ⟨rfl, rfl⟩ := List.cons.inj hsplit
      exact ⟨nofun, Nat.le_refl 1⟩

/-- A text that spells a token is cut off as a whole. -/
theorem Spells.cut_eq {token : ArgToken} (h : Spells (c :: rest) token) :
    cut c rest = (token, c :: rest, []) := by
  generalize hlexeme : c :: rest = lexeme at h
  cases h with
  | @name first others hfirst hothers =>
      obtain ⟨rfl, rfl⟩ := List.cons.inj hlexeme
      have htake : rest.takeWhile isNamePart = rest := List.takeWhile_eq_self_iff.mpr hothers
      have hdrop : rest.dropWhile isNamePart = [] := List.dropWhile_eq_nil_iff.mpr hothers
      rw [cut_nameStart hfirst, htake, hdrop]
  | @text quote body _ hquote hmarked =>
      obtain ⟨hbody, rfl⟩ := hmarked
      obtain ⟨rfl, rfl⟩ := List.cons.inj hlexeme
      exact cut_closed hquote hbody []
  | number h =>
      subst hlexeme
      have hquantity := h.quantity?_eq none
      rw [unitText, List.append_nil] at hquantity
      simpa [ofQuantity, unitText] using cut_quantity hquantity
  | length h unit =>
      have hquantity := h.quantity?_eq (some unit)
      rw [unitText, ← hlexeme] at hquantity
      simpa [ofQuantity, unitText] using cut_quantity hquantity
  | openParen | closeParen | openBracket | closeBracket | colon | comma =>
      obtain ⟨rfl, rfl⟩ := List.cons.inj hlexeme
      rfl

/-- A text spells one token at most. -/
theorem Spells.unique {lexeme : Text} {token token' : ArgToken} (h : Spells lexeme token)
    (h' : Spells lexeme token') : token = token' := by
  obtain ⟨c, rest, rfl, -⟩ := h.exists_start
  exact congrArg Prod.fst (h.cut_eq.symm.trans h'.cut_eq)

/-! ## Reading a token -/

theorem Reads.exists_start {lexeme rest : Text} {token : ArgToken} (h : Reads lexeme rest token) :
    ∃ c tail, lexeme = c :: tail ∧ isSeparator c = false := by
  cases h with
  | pattern h => exact h.spells.exists_start
  | @character c _ hseparator _ _ => exact ⟨c, [], rfl, hseparator⟩
  | @unclosed quote body hquote _ =>
      exact ⟨quote, body, rfl, not_isSeparator_of_class (by decide) hquote⟩

/-- What the lexer cuts off is what the patterns ask for. -/
theorem reads_cut (hseparator : isSeparator c = false) (rest : Text) :
    Reads (cut c rest).2.1 (cut c rest).2.2 (cut c rest).1 := by
  have hsplit := cut_append c rest
  rcases cut_cases c rest with hspells | ⟨hquote, hrest, hcut⟩ | ⟨hquote, hcut⟩
  · refine .pattern ⟨hspells, fun lexeme after token hother h => ?_⟩
    exact (h.length_le_cut (hother.trans hsplit)).2
  · rw [hcut]
    exact .unclosed hquote hrest
  · rw [hcut]
    refine .character hseparator hquote fun lexeme after token hother h => ?_
    exact (h.length_le_cut hother).1 (by rw [hcut])

/-- And they ask for nothing else. -/
theorem Reads.cut_eq {lexeme after : Text} {token : ArgToken} (h : Reads lexeme after token)
    (hsplit : lexeme ++ after = c :: rest) : cut c rest = (token, lexeme, after) := by
  cases h with
  | pattern h =>
      obtain ⟨hother, hle⟩ := h.spells.length_le_cut hsplit
      rcases cut_cases c rest with hspells | ⟨-, -, hcut⟩ | ⟨-, hcut⟩
      · have hcut := cut_append c rest
        have hge := h.longest _ _ _ (hcut.trans hsplit.symm) hspells
        -- Two prefixes of a text that are equally long are equal.
        obtain ⟨hlexeme, hafter⟩ := List.append_inj (hcut.trans hsplit.symm) (by omega)
        rw [hlexeme] at hspells
        have htoken : (cut c rest).1 = token := hspells.unique h.spells
        exact Prod.ext htoken (Prod.ext hlexeme hafter)
      · exact absurd (congrArg Prod.fst hcut) hother
      · exact absurd (congrArg Prod.fst hcut) hother
  | @character d _ _ hquote hunmatched =>
      obtain ⟨rfl, rfl⟩ := List.cons.inj hsplit
      rcases cut_cases d after with hspells | ⟨hquote', -, -⟩ | ⟨-, hcut⟩
      · exact absurd hspells (hunmatched _ _ _ (cut_append d after))
      · rw [hquote] at hquote'
        cases hquote'
      · exact hcut
  | unclosed hquote hbody =>
      rw [List.append_nil] at hsplit
      obtain ⟨rfl, rfl⟩ := List.cons.inj hsplit
      exact cut_unclosed hquote hbody

/-- Only one token stands at the front of a text. -/
theorem Reads.unique {lexeme after lexeme' after' : Text} {token token' : ArgToken}
    (h : Reads lexeme after token) (h' : Reads lexeme' after' token')
    (hsplit : lexeme ++ after = lexeme' ++ after') :
    lexeme = lexeme' ∧ after = after' ∧ token = token' := by
  obtain ⟨c, tail, rfl, -⟩ := h.exists_start
  have hcut : cut c (tail ++ after) = (token, c :: tail, after) := h.cut_eq rfl
  have hcut' : cut c (tail ++ after) = (token', lexeme', after') := h'.cut_eq hsplit.symm
  rw [hcut, Prod.mk.injEq, Prod.mk.injEq] at hcut'
  exact ⟨hcut'.2.1, hcut'.2.2, hcut'.1⟩

end ArgToken

end MarkupPreview
