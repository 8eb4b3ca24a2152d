import MarkupPreview.Text.Basic
import MarkupPreview.Decimal.Shortest

/-!
# Written forms of numbers

How a double is written is a choice of the format it is written in: which
exponents still use positional notation, whether a whole number keeps a `.0`,
which way a tie between two shortest decimals goes, and the words for what is
not finite. `Decimal.Form` holds these choices, and `Form.write` follows them.
-/

namespace MarkupPreview.Decimal

/-- The choices of a written form. -/
structure Form where
  tie : Tie
  /-- The least and the greatest decimal exponent in positional notation; with
  none, every number is positional. -/
  positional : Option (Int × Int)
  /-- A whole number in positional notation ends in `.0`. -/
  keepsPoint : Bool
  infinity : Text
  negativeInfinity : Text
  undefined : Text

/-- The decimal digits of a natural number. -/
def natText (n : Nat) : Text := Nat.toDigits 10 n

/-- The digits of an integer, with a sign if it is negative. -/
def intText (n : Int) : Text :=
  if n < 0 then '-' :: natText n.natAbs else natText n.natAbs

/-- A decimal in positional notation. -/
def positionalText (keepsPoint : Bool) (d : Digits) : Text :=
  let digits := natText d.coefficient
  if 0 ≤ d.place then
    digits ++ List.replicate d.place.toNat '0' ++ (if keepsPoint then ['.', '0'] else [])
  else
    let places := d.place.natAbs
    if places < digits.length then
      digits.take (digits.length - places) ++ '.' :: digits.drop (digits.length - places)
    else ['0', '.'] ++ List.replicate (places - digits.length) '0' ++ digits

/-- A decimal as a number from one to ten and a power of ten with its sign. -/
def scientificText (d : Digits) : Text :=
  let digits := natText d.coefficient
  let exponent := d.place + digits.length - 1
  let tail := digits.drop 1
  digits.take 1 ++ (if tail.isEmpty then [] else '.' :: tail) ++
    'e' :: (if exponent < 0 then '-' else '+') :: natText exponent.natAbs

/-- A positive finite double in the given form. -/
def Form.writeSize (form : Form) (bits : Nat) : Text :=
  let d := (Basin.ofBits bits).shortest form.tie
  let exponent := d.place + (natText d.coefficient).length - 1
  match form.positional with
  | none => positionalText form.keepsPoint d
  | some (least, greatest) =>
      if least ≤ exponent ∧ exponent ≤ greatest then positionalText form.keepsPoint d
      else scientificText d

/-- A double in the given form. -/
def Form.write (form : Form) (x : Float) : Text :=
  let bits := x.toBits.toNat
  let negative := 1 <<< 63 ≤ bits
  let size := bits % (1 <<< 63)
  if infinityBits < size then form.undefined
  else if size = infinityBits then
    if negative then form.negativeInfinity else form.infinity
  else
    let digits := if size = 0 then positionalText form.keepsPoint ⟨0, 0⟩ else form.writeSize size
    if negative then '-' :: digits else digits

end MarkupPreview.Decimal
