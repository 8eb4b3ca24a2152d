import MarkupPreview.Text.Blank
import MarkupPreview.Decimal.Form

/-!
# Text styles

A style is a font family and a font size in points. A document starts in a base
style; set rules change it on the way, and every block keeps the style it was
opened in.

A style can be faulty: a size that is not a positive number, or a family name
without a visible character. The size is looked at first.

## Main results

* `Style.fault?_eq_none_iff` — a style is sound exactly when its size is finite
  and positive and its family is not blank.
-/

namespace MarkupPreview

/-- A font family and a font size in points. -/
structure Style where
  fontFamily : Text
  fontSize : Float
deriving DecidableEq, Repr

/-- What can be wrong with a style. -/
inductive StyleFault where
  | fontSize (size : Float)
  | fontFamily
deriving DecidableEq, Repr

namespace Style

/-- The style a document has unless it is given another. -/
def standard : Style := ⟨['s', 'e', 'r', 'i', 'f'], 12.0⟩

/-- Whether a font can have a size: it is finite and above zero. -/
def isUsableSize (size : Float) : Bool := size.isFinite && !(size ≤ 0.0)

/-- The first fault of a style. -/
def fault? (style : Style) : Option StyleFault :=
  if !isUsableSize style.fontSize then some (.fontSize style.fontSize)
  else if style.fontFamily.isBlank then some .fontFamily
  else none

theorem fault?_eq_none_iff {style : Style} :
    style.fault? = none ↔
      isUsableSize style.fontSize = true ∧ style.fontFamily.isBlank = false := by
  unfold fault?
  cases isUsableSize style.fontSize <;> cases style.fontFamily.isBlank <;> simp

/-- Font sizes in messages and outlines are positional, and a whole size has no
point. -/
def sizeForm : Decimal.Form where
  tie := .upward
  positional := none
  keepsPoint := false
  infinity := ['i', 'n', 'f']
  negativeInfinity := ['-', 'i', 'n', 'f']
  undefined := ['N', 'a', 'N']

/-- A font size with its unit, as shown to a reader. -/
def sizeText (size : Float) : Text := sizeForm.write size ++ ['p', 't']

end Style

end MarkupPreview
