import MarkupPreview.Text.Basic

/-!
# Units of length

Six units can follow a number: points, millimetres, centimetres, inches, the
em (the current font size) and the percent sign. No suffix is the beginning of
another, so a text starts with at most one of them.

## Main results

* `ofSuffix?_suffix` — a unit is read back from its suffix.
* `LengthUnit.split?_append` — cutting a unit off loses nothing.
-/

namespace MarkupPreview

/-- A unit of length. -/
inductive LengthUnit where
  | point
  | millimetre
  | centimetre
  | inch
  | em
  | percent
deriving DecidableEq, Repr

namespace LengthUnit

/-- All units. -/
def all : List LengthUnit := [em, point, centimetre, millimetre, inch, percent]

/-- The suffix that spells a unit. -/
def suffix : LengthUnit → Text
  | point => ['p', 't']
  | millimetre => ['m', 'm']
  | centimetre => ['c', 'm']
  | inch => ['i', 'n']
  | em => ['e', 'm']
  | percent => ['%']

/-- The unit that a text spells, all of it. -/
def ofSuffix? (text : Text) : Option LengthUnit := all.find? (·.suffix == text)

@[simp] theorem ofSuffix?_suffix (unit : LengthUnit) : ofSuffix? unit.suffix = some unit := by
  cases unit <;> rfl

theorem suffix_of_ofSuffix? {text : Text} {unit : LengthUnit} (h : ofSuffix? text = some unit) :
    unit.suffix = text := by
  simpa using List.find?_some h

/-- The unit that a text starts with, and what follows its suffix. -/
def split? (text : Text) : Option (LengthUnit × Text) :=
  (all.find? (·.suffix.isPrefixOf text)).map fun unit => (unit, text.drop unit.suffix.length)

theorem split?_append {text rest : Text} {unit : LengthUnit}
    (h : split? text = some (unit, rest)) : unit.suffix ++ rest = text := by
  simp only [split?, Option.map_eq_some_iff, Prod.mk.injEq] at h
  obtain ⟨found, hfound, rfl, rfl⟩ := h
  have hprefix : found.suffix <+: text := by simpa using List.find?_some hfound
  obtain ⟨tail, rfl⟩ := hprefix
  simp

end LengthUnit

end MarkupPreview
