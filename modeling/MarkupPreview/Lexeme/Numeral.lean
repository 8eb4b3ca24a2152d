import MarkupPreview.Lexeme.Basic
import MarkupPreview.Length.Unit

/-!
# Numerals

A *numeral* is an optional minus sign, digits, and optionally a point with more
digits. A point without a digit after it does not belong to the numeral, and
neither does a sign without a digit. A *quantity* is a numeral with an optional
unit directly after it; a beginning of a unit is no unit.

## Main results

* `numeral?_append`, `quantity?_append` — the parts make up the text that was
  read.
-/

namespace MarkupPreview.Lexeme

/-- A minus sign, if the text starts with one. -/
def splitSign : Text → Text × Text
  | '-' :: rest => (['-'], rest)
  | text => ([], text)

/-- A point and the digits after it, if the text starts so. -/
def splitFraction : Text → Text × Text
  | '.' :: rest =>
      if (rest.takeWhile Char.isDigit).isEmpty then ([], '.' :: rest)
      else ('.' :: rest.takeWhile Char.isDigit, rest.dropWhile Char.isDigit)
  | text => ([], text)

theorem splitSign_append (text : Text) : (splitSign text).1 ++ (splitSign text).2 = text := by
  unfold splitSign
  split <;> simp

theorem splitFraction_append (text : Text) :
    (splitFraction text).1 ++ (splitFraction text).2 = text := by
  unfold splitFraction
  split
  · split <;> simp
  · simp

/-- The longest numeral at the front of a text. -/
def numeral? (text : Text) : Option (Text × Text) :=
  let (sign, unsigned) := splitSign text
  let digits := unsigned.takeWhile Char.isDigit
  if digits.isEmpty then none
  else
    let (fraction, rest) := splitFraction (unsigned.dropWhile Char.isDigit)
    some (sign ++ digits ++ fraction, rest)

theorem numeral?_append {text numeral rest : Text} (h : numeral? text = some (numeral, rest)) :
    numeral ++ rest = text := by
  simp only [numeral?] at h
  split at h
  · simp at h
  · simp only [Option.some.injEq, Prod.mk.injEq] at h
    obtain ⟨rfl, rfl⟩ := h
    rw [List.append_assoc, splitFraction_append, List.append_assoc,
      List.takeWhile_append_dropWhile, splitSign_append]

theorem numeral?_ne_nil {text numeral rest : Text} (h : numeral? text = some (numeral, rest)) :
    numeral ≠ [] := by
  simp only [numeral?] at h
  split at h
  · simp at h
  · rename_i hdigits
    simp only [Option.some.injEq, Prod.mk.injEq] at h
    obtain ⟨rfl, rfl⟩ := h
    simp_all

/-- A numeral at the front of a text with the unit directly after it, if there
is one. -/
def quantity? (text : Text) : Option (Text × Option LengthUnit × Text) :=
  (numeral? text).map fun (numeral, after) =>
    match LengthUnit.split? after with
    | some (unit, rest) => (numeral, some unit, rest)
    | none => (numeral, none, after)

/-- The suffix of a unit that may be absent. -/
def unitText : Option LengthUnit → Text
  | some unit => unit.suffix
  | none => []

theorem quantity?_append {text numeral rest : Text} {unit : Option LengthUnit}
    (h : quantity? text = some (numeral, unit, rest)) :
    numeral ++ unitText unit ++ rest = text := by
  simp only [quantity?, Option.map_eq_some_iff] at h
  obtain ⟨⟨found, after⟩, hfound, h⟩ := h
  have happend := numeral?_append hfound
  simp only at h
  split at h
  · rename_i u tail hunit
    simp only [Prod.mk.injEq] at h
    obtain ⟨rfl, rfl, rfl⟩ := h
    rw [List.append_assoc, unitText, LengthUnit.split?_append hunit, happend]
  · simp only [Prod.mk.injEq] at h
    obtain ⟨rfl, rfl, rfl⟩ := h
    simpa [unitText] using happend

theorem quantity?_ne_nil {text numeral rest : Text} {unit : Option LengthUnit}
    (h : quantity? text = some (numeral, unit, rest)) : numeral ≠ [] := by
  simp only [quantity?, Option.map_eq_some_iff] at h
  obtain ⟨⟨found, after⟩, hfound, h⟩ := h
  have hne := numeral?_ne_nil hfound
  simp only at h
  split at h <;> simp only [Prod.mk.injEq] at h <;> exact h.1 ▸ hne

end MarkupPreview.Lexeme
