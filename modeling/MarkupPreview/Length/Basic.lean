import MarkupPreview.Decimal.Literal
import MarkupPreview.Length.Unit

/-!
# Lengths

A length is a number with a unit. Absolute units have a fixed worth in points;
the em and the percent sign are relative to the current font size.

## Main results

* `Length.unit_parse?` — a literal that is read has the unit that its suffix
  spells.
-/

namespace MarkupPreview

/-- A number with a unit. -/
structure Length where
  value : Float
  unit : LengthUnit
deriving DecidableEq, Repr

namespace Length

/-- Whether a character can be part of a unit: units begin at the first such
character of a literal. -/
def isUnitChar (c : Char) : Bool := c.isAlpha || c == '%'

/-- The length that a literal spells: a decimal, then a unit. -/
def parse? (literal : Text) : Option Length := do
  let value ← Decimal.read? (literal.takeWhile fun c => !isUnitChar c)
  let unit ← LengthUnit.ofSuffix? (literal.dropWhile fun c => !isUnitChar c)
  return ⟨value, unit⟩

/-- The length in points, where the font has the given size in points. -/
def toPoints (length : Length) (current : Float) : Float :=
  match length.unit with
  | .point => length.value
  | .millimetre => length.value * 2.83465
  | .centimetre => length.value * 28.3465
  | .inch => length.value * 72.0
  | .em => length.value * current
  | .percent => length.value / 100.0 * current

theorem unit_parse? {literal : Text} {length : Length} (h : parse? literal = some length) :
    length.unit.suffix = literal.dropWhile fun c => !isUnitChar c := by
  simp only [parse?, Option.bind_eq_bind, Option.bind_eq_some_iff] at h
  obtain ⟨value, _, unit, hunit, h⟩ := h
  have : length = ⟨value, unit⟩ := by simpa using h.symm
  subst this
  exact LengthUnit.suffix_of_ofSuffix? hunit

end Length

end MarkupPreview
