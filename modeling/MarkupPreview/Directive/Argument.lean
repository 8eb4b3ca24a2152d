import MarkupPreview.Length.Basic

/-!
# Arguments

An argument is a run of atoms with an optional name. An atom is a literal, a
name, a group of further arguments in parentheses, or a block of content in
brackets, of which only the presence is kept.

## Main results

* `Named.single?_eq_some_iff` — only an argument of one atom has a value to
  interpret.
-/

namespace MarkupPreview

/-- Atoms, with the name before them if there is one. -/
structure Named (α : Type) where
  name : Option Text
  atoms : List α

/-- The smallest parts of an argument. -/
inductive Atom where
  | length (value : Length)
  | number (value : Float)
  | text (value : Text)
  | ident (name : Text)
  | group (arguments : List (Named Atom))
  | content
  | other

/-- The atom of a length literal: of no known kind if it does not read. -/
def Atom.ofLengthLiteral (literal : Text) : Atom :=
  match Length.parse? literal with
  | some value => length value
  | none => other

/-- The atom of a number literal: of no known kind if it does not read. -/
def Atom.ofNumberLiteral (literal : Text) : Atom :=
  match Decimal.read? literal with
  | some value => number value
  | none => other

/-- An argument of a set rule. -/
abbrev Argument := Named Atom

/-- The atom of an argument that has just one. -/
def Named.single? {α : Type} (argument : Named α) : Option α :=
  match argument.atoms with
  | [atom] => some atom
  | _ => none

theorem Named.single?_eq_some_iff {α : Type} {argument : Named α} {atom : α} :
    argument.single? = some atom ↔ argument.atoms = [atom] := by
  unfold Named.single?
  split
  · rename_i found h
    simp [h]
  · rename_i h
    simp only [reduceCtorEq, false_iff]
    exact h atom

end MarkupPreview
