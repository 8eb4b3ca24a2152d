import Mathlib.Data.List.TakeWhile
import MarkupPreview.Proofs.ArgumentTiling
import MarkupPreview.Proofs.InlineText

/-!
# Numeric literals

Numbers are read three times. The line lexer finds them in a line, the lexer of argument
lists finds them again in the text of a directive, and the reader of decimals computes their
value, behind which a length still has its unit. The three have grammars of their own: the
reader of decimals also takes a plus sign and a literal without digits on one side of the
point, and a length is split in front of its first letter or percent sign, wherever its
numeral ends.

On what the lexers call a number they agree. A numeral holds no character of a unit, so a
length is split behind its numeral, and the reader of decimals takes every numeral to its end.

## Main results

* `Decimal.read?_numeral` — the value of a numeral.
* `Length.parse?_numeral` — a numeral with a unit is a length in that unit.
* `numerals_agree` — a number of a line is one token of an argument list, and no number or
  length of an argument list fails to be read.
-/

namespace MarkupPreview

open Lexeme

/-! ## The value of a numeral -/

namespace Decimal

theorem signed_digits {sign digits : Text} (hsign : IsSign sign) (hdigits : IsDigits digits)
    (rest : Text) : signed (sign ++ digits ++ rest) = (sign == ['-'], digits ++ rest) := by
  obtain ⟨first, others, rfl⟩ := List.exists_cons_of_ne_nil hdigits.1
  have hfirst : first.isDigit = true := hdigits.2 first List.mem_cons_self
  rcases hsign with rfl | rfl
  · simp only [List.nil_append, List.cons_append]
    unfold signed
    split
    · rename_i heq
      obtain rfl := (List.cons.inj heq).1
      cases hfirst
    · rename_i heq
      obtain rfl := (List.cons.inj heq).1
      cases hfirst
    · rfl
  · rfl

/-- A numeral is read as the double nearest to the decimal it spells. -/
theorem read?_numeral {sign digits fraction : Text} (hsign : IsSign sign)
    (hdigits : IsDigits digits) (hfraction : IsFraction fraction) :
    read? (sign ++ digits ++ fraction) =
      some (nearest (sign == ['-'])
        (digitsValue (digits ++ fraction.drop 1) / (10 : Rat) ^ (fraction.drop 1).length)) := by
  have hstops : Text.Stops Char.isDigit fraction := by
    rcases hfraction with rfl | ⟨decimals, -, rfl⟩
    · simp [Text.Stops]
    · exact Text.stops_cons.mpr rfl
  simp only [read?, signed_digits hsign hdigits, Text.takeWhile_run hdigits.2 hstops,
    Text.dropWhile_run hdigits.2 hstops]
  rcases hfraction with rfl | ⟨decimals, hdecimals, rfl⟩
  · simp [hdigits.1]
  · have htake : decimals.takeWhile Char.isDigit = decimals :=
      List.takeWhile_eq_self_iff.mpr hdecimals.2
    have hdrop : decimals.dropWhile Char.isDigit = [] :=
      List.dropWhile_eq_nil_iff.mpr hdecimals.2
    simp [hdigits.1, htake, hdrop]

theorem exists_read? {numeral : Text} (h : IsNumeral numeral) :
    ∃ value, read? numeral = some value := by
  obtain ⟨sign, digits, fraction, hsign, hdigits, hfraction, rfl⟩ := h
  exact ⟨_, read?_numeral hsign hdigits hfraction⟩

end Decimal

/-! ## Units behind numerals -/

namespace Length

theorem not_isUnitChar_of_mem {numeral : Text} (h : IsNumeral numeral) :
    ∀ c ∈ numeral, isUnitChar c = false := by
  refine h.forall_mem (fun c hdigit => ?_) (by decide) (by decide)
  have hpercent : c ≠ '%' := by
    rintro rfl
    cases hdigit
  simp [isUnitChar, not_isAlpha_of_isDigit hdigit, hpercent]

theorem isUnitChar_of_mem_suffix (unit : LengthUnit) :
    ∀ c ∈ unit.suffix, isUnitChar c = true := by
  have hall : unit.suffix.all isUnitChar = true := by cases unit <;> rfl
  exact List.all_eq_true.mp hall

/-- A numeral does not end in a unit. -/
theorem not_suffix_of_isNumeral {numeral : Text} (h : IsNumeral numeral) (unit : LengthUnit) :
    ¬ unit.suffix <:+ numeral := by
  intro hsuffix
  have hne : unit.suffix ≠ [] := by cases unit <;> decide
  obtain ⟨c, rest, hunit⟩ := List.exists_cons_of_ne_nil hne
  have hmem : c ∈ unit.suffix := hunit ▸ List.mem_cons_self
  have hyes := isUnitChar_of_mem_suffix unit c hmem
  have hno := not_isUnitChar_of_mem h c (hsuffix.subset hmem)
  rw [hyes] at hno
  cases hno

/-- A numeral with a unit behind it is a length in that unit. -/
theorem parse?_numeral {numeral : Text} {value : Float} (h : IsNumeral numeral)
    (hvalue : Decimal.read? numeral = some value) (unit : LengthUnit) :
    parse? (numeral ++ unit.suffix) = some ⟨value, unit⟩ := by
  have hnumeral : ∀ c ∈ numeral, (!isUnitChar c) = true := by
    simpa using not_isUnitChar_of_mem h
  have hstops : Text.Stops (fun c => !isUnitChar c) unit.suffix := by
    intro c hc
    simp [isUnitChar_of_mem_suffix unit c (List.mem_of_mem_head? hc)]
  simp [parse?, Text.takeWhile_run hnumeral hstops, Text.dropWhile_run hnumeral hstops, hvalue]

end Length

/-! ## Numbers of a line -/

theorem Token.exists_numeral {index : Nat} {line : Text} {token : Token}
    (h : token ∈ ofLine index line) (hkind : token.kind = .numberLiteral) :
    ∃ numeral unit, IsNumeral numeral ∧ token.text = numeral ++ unitText unit := by
  obtain ⟨rest, haccepts⟩ := accepts_of_kind .number h hkind (by decide)
  exact haccepts

namespace ArgToken

/-- A text that spells a token is read as that token alone. -/
theorem Spells.lex_eq {lexeme : Text} {token : ArgToken} (h : Spells lexeme token) :
    lex lexeme = [⟨token, 0, lexeme.bytes⟩] := by
  obtain ⟨c, rest, rfl, hc⟩ := h.exists_start
  rw [lex, lexFrom, if_neg (by simp [hc])]
  simp [h.cut_eq, lexFrom]

/-- A token of a known kind is spelled in the source. -/
theorem exists_spells {source : Text} {located : Located} (h : located ∈ lex source)
    (hknown : located.token ≠ other) : ∃ lexeme, Spells lexeme located.token := by
  have htiling : IsTiling 0 source (lex source) := (lexFrom_eq_iff_isTiling 0 source _).mp rfl
  obtain ⟨front, lexeme, rest, -, -, -, hreads⟩ := htiling.reads located h
  generalize located.token = token at hreads hknown
  cases hreads with
  | pattern h => exact ⟨lexeme, h.spells⟩
  | character | unclosed => exact absurd rfl hknown

theorem isNumeral_of_mem_lex {source : Text} {located : Located} (h : located ∈ lex source)
    {literal : Text} (hnumber : located.token = number literal) : IsNumeral literal := by
  obtain ⟨lexeme, hspells⟩ := exists_spells h (by simp [hnumber])
  rw [hnumber] at hspells
  cases hspells with
  | number h => exact h

theorem exists_numeral_of_mem_lex {source : Text} {located : Located} (h : located ∈ lex source)
    {literal : Text} (hlength : located.token = length literal) :
    ∃ numeral unit, IsNumeral numeral ∧ literal = numeral ++ LengthUnit.suffix unit := by
  obtain ⟨lexeme, hspells⟩ := exists_spells h (by simp [hlength])
  rw [hlength] at hspells
  cases hspells with
  | @length numeral h unit => exact ⟨numeral, unit, h, rfl⟩

/-- A number that the line lexer finds is a single token of an argument list: a length if it
ends in a unit, and a number otherwise. In an argument list every length is a numeral with the
suffix of a unit behind it, and is read as a length in that unit, and every number is a numeral
and is read as one. So between parentheses neither becomes an atom of no known kind, whatever
has been read before. -/
theorem numerals_agree :
    (∀ index line, ∀ token ∈ Token.ofLine index line, token.kind = .numberLiteral →
      ((∃ unit : LengthUnit, unit.suffix <:+ token.text) →
        lex token.text = [⟨.length token.text, 0, token.text.bytes⟩]) ∧
      ((∀ unit : LengthUnit, ¬ unit.suffix <:+ token.text) →
        lex token.text = [⟨.number token.text, 0, token.text.bytes⟩])) ∧
    ∀ source, ∀ located ∈ lex source,
      (∀ literal, located.token = .length literal → ∃ numeral unit value,
        IsNumeral numeral ∧ literal = numeral ++ LengthUnit.suffix unit ∧
        Decimal.read? numeral = some value ∧ Length.parse? literal = some ⟨value, unit⟩ ∧
        ∀ frame outer, Reading.step (.arguments frame outer) located =
          .ok (.arguments (frame.addAtom (.length ⟨value, unit⟩)) outer)) ∧
      ∀ literal, located.token = .number literal → ∃ value,
        IsNumeral literal ∧ Decimal.read? literal = some value ∧
        ∀ frame outer, Reading.step (.arguments frame outer) located =
          .ok (.arguments (frame.addAtom (.number value)) outer) := by
  refine ⟨fun index line token hmem hkind => ?_, fun source located hmem => ⟨?_, ?_⟩⟩
  · obtain ⟨numeral, unit, hnumeral, htext⟩ := Token.exists_numeral hmem hkind
    rw [htext]
    cases unit with
    | none =>
        rw [unitText, List.append_nil]
        refine ⟨?_, fun _ => (Spells.number hnumeral).lex_eq⟩
        rintro ⟨unit, hsuffix⟩
        exact absurd hsuffix (Length.not_suffix_of_isNumeral hnumeral unit)
    | some unit =>
        refine ⟨fun _ => (Spells.length hnumeral unit).lex_eq, fun hnone => ?_⟩
        exact absurd (List.suffix_append numeral unit.suffix) (hnone unit)
  · intro literal htoken
    obtain ⟨numeral, unit, hnumeral, rfl⟩ := exists_numeral_of_mem_lex hmem htoken
    obtain ⟨value, hvalue⟩ := Decimal.exists_read? hnumeral
    have hparse := Length.parse?_numeral hnumeral hvalue unit
    refine ⟨numeral, unit, value, hnumeral, rfl, hvalue, hparse, fun frame outer => ?_⟩
    simp only [Reading.step, Reading.stepArguments, htoken, Atom.ofLengthLiteral, hparse]
  · intro literal htoken
    have hnumeral : IsNumeral literal := isNumeral_of_mem_lex hmem htoken
    obtain ⟨value, hvalue⟩ := Decimal.exists_read? hnumeral
    refine ⟨value, hnumeral, hvalue, fun frame outer => ?_⟩
    simp only [Reading.step, Reading.stepArguments, htoken, Atom.ofNumberLiteral, hvalue]

/-- A negative length with a fraction, and a bare number behind it. -/
theorem numerals_agree_mixed :
    let line : Text := "at -12.5pt or 3".toList
    let source : Text := "(-12.5pt, 3)".toList
    (⟨.numberLiteral, "-12.5pt".toList, 0, 3⟩ ∈ Token.ofLine 0 line ∧
      lex "-12.5pt".toList = [⟨.length "-12.5pt".toList, 0, 7⟩]) ∧
    (⟨.numberLiteral, ['3'], 0, 14⟩ ∈ Token.ofLine 0 line ∧
      lex ['3'] = [⟨.number ['3'], 0, 1⟩]) ∧
    (⟨.length "-12.5pt".toList, 1, 8⟩ ∈ lex source ∧
      ∃ value, Length.parse? "-12.5pt".toList = some ⟨value, .point⟩) ∧
    ⟨.number ['3'], 10, 11⟩ ∈ lex source ∧ ∃ value, Decimal.read? ['3'] = some value := by
  intro line source
  obtain ⟨hline, hsource⟩ := numerals_agree
  have hlong : ⟨.numberLiteral, "-12.5pt".toList, 0, 3⟩ ∈ Token.ofLine 0 line := by
    decide +kernel
  have hshort : ⟨.numberLiteral, ['3'], 0, 14⟩ ∈ Token.ofLine 0 line := by decide +kernel
  have hlength : ⟨.length "-12.5pt".toList, 1, 8⟩ ∈ lex source := by decide +kernel
  have hnumber : ⟨.number ['3'], 10, 11⟩ ∈ lex source := by decide +kernel
  refine ⟨⟨hlong, (hline 0 line _ hlong rfl).1 ⟨.point, by decide⟩⟩,
    ⟨hshort, (hline 0 line _ hshort rfl).2 fun unit => ?_⟩, ⟨hlength, ?_⟩, hnumber, ?_⟩
  · cases unit <;> decide
  · obtain ⟨numeral, unit, value, -, -, -, hparse, -⟩ := (hsource source _ hlength).1 _ rfl
    have hsuffix : unit.suffix = LengthUnit.suffix .point := Length.unit_parse? hparse
    have hunit := congrArg LengthUnit.ofSuffix? hsuffix
    rw [LengthUnit.ofSuffix?_suffix, LengthUnit.ofSuffix?_suffix] at hunit
    exact ⟨value, Option.some.inj hunit ▸ hparse⟩
  · obtain ⟨value, -, hvalue, -⟩ := (hsource source _ hnumber).2 _ rfl
    exact ⟨value, hvalue⟩

end ArgToken

end MarkupPreview
