import MarkupPreview.Text.Basic
import MarkupPreview.Decimal.Nearest

/-!
# Reading decimal literals

A decimal literal is an optional sign, digits, and optionally a point with
digits; there has to be a digit somewhere, on either side of the point. Its
value is the double nearest to the rational it spells, so a literal with enough
digits before the point is infinite.
-/

namespace MarkupPreview.Decimal

/-- The number that a run of digits spells. -/
def digitsValue (digits : Text) : Nat :=
  digits.foldl (fun value c => value * 10 + (c.toNat - 48)) 0

/-- Whether the sign at the front is a minus, and what follows the sign. -/
def signed : Text → Bool × Text
  | '-' :: rest => (true, rest)
  | '+' :: rest => (false, rest)
  | text => (false, text)

/-- The double that a decimal literal spells. -/
def read? (literal : Text) : Option Float :=
  let (negative, body) := signed literal
  let whole := body.takeWhile Char.isDigit
  let (fraction, rest) : Text × Text :=
    match body.dropWhile Char.isDigit with
    | '.' :: after => (after.takeWhile Char.isDigit, after.dropWhile Char.isDigit)
    | after => ([], after)
  if rest.isEmpty && !(whole ++ fraction).isEmpty then
    some (nearest negative (digitsValue (whole ++ fraction) / (10 : Rat) ^ fraction.length))
  else none

end MarkupPreview.Decimal
