import MarkupPreview.Text.Basic
import MarkupPreview.Decimal.Form

/-!
# JSON values and how they are written

A JSON value is written either on one line without spaces, or over several
lines with two spaces of indentation for each level; an empty array or object
stays on its line. The fields of an object keep their order.

In strings the quote, the backslash and the controls below the space are
escaped. Numbers that are not integers are written with the fewest digits that
read back.

## Main results

* `write_array_nil`, `write_object_nil` — what is empty is not broken over
  lines.
-/

namespace MarkupPreview

/-- A value to be written as JSON. -/
inductive Json where
  | null
  | boolean (value : Bool)
  | integer (value : Int)
  | number (value : Float)
  | string (value : Text)
  | array (items : List Json)
  | object (fields : List (String × Json))

namespace Json

/-! ## Parts -/

/-- A number has a point or an exponent: positional notation from `1e-5` below
`1e16`, and else an exponent with its sign. What is not finite is null. -/
def numberForm : Decimal.Form where
  tie := .toEven
  positional := some (-5, 15)
  keepsPoint := true
  infinity := ['n', 'u', 'l', 'l']
  negativeInfinity := ['n', 'u', 'l', 'l']
  undefined := ['n', 'u', 'l', 'l']

/-- A hexadecimal digit in lower case. -/
def hexDigit (n : Nat) : Char := (Nat.toDigits 16 (n % 16)).headD '0'

/-- A character as it stands in a string. -/
def escapedChar (c : Char) : Text :=
  match c with
  | '"' => ['\\', '"']
  | '\\' => ['\\', '\\']
  | '\n' => ['\\', 'n']
  | '\r' => ['\\', 'r']
  | '\t' => ['\\', 't']
  | '\x08' => ['\\', 'b']
  | '\x0c' => ['\\', 'f']
  | c =>
      if c.toNat < 0x20 then ['\\', 'u', '0', '0', hexDigit (c.toNat / 16), hexDigit c.toNat]
      else [c]

/-- A string with its quotes. -/
def stringText (value : Text) : Text := '"' :: value.flatMap escapedChar ++ ['"']

/-! ## Layouts -/

/-- How a value is laid out. -/
inductive Layout where
  /-- On one line, without spaces. -/
  | compact
  /-- Over several lines, at the given level. -/
  | indented (level : Nat)
deriving DecidableEq, Repr

namespace Layout

/-- The layout of what stands inside an array or an object. -/
def inner : Layout → Layout
  | compact => compact
  | indented level => indented (level + 1)

/-- What goes before an item. -/
def lineBreak : Layout → Text
  | compact => []
  | indented level => '\n' :: List.replicate (2 * level) ' '

/-- What goes between a key and its value. -/
def colon : Layout → Text
  | compact => [':']
  | indented _ => [':', ' ']

/-- Items between an opening and a closing character. -/
def enclose (layout : Layout) (opening closing : Char) : List Text → Text
  | [] => [opening, closing]
  | first :: rest =>
      opening :: (layout.inner.lineBreak ++ first ++
        rest.flatMap (fun item => ',' :: (layout.inner.lineBreak ++ item)) ++
        layout.lineBreak ++ [closing])

end Layout

/-! ## Writing -/

mutual

/-- A value in the given layout. -/
def write (layout : Layout) : Json → Text
  | null => ['n', 'u', 'l', 'l']
  | boolean true => ['t', 'r', 'u', 'e']
  | boolean false => ['f', 'a', 'l', 's', 'e']
  | integer value => Decimal.intText value
  | number value => numberForm.write value
  | string value => stringText value
  | array items => layout.enclose '[' ']' (writeItems layout.inner items)
  | object fields => layout.enclose '\x7b' '\x7d' (writeFields layout.inner fields)

/-- The items of an array. -/
def writeItems (layout : Layout) : List Json → List Text
  | [] => []
  | item :: rest => write layout item :: writeItems layout rest

/-- The fields of an object. -/
def writeFields (layout : Layout) : List (String × Json) → List Text
  | [] => []
  | (key, value) :: rest =>
      (stringText key.toList ++ layout.colon ++ write layout value) :: writeFields layout rest

end

/-- A value on one line. -/
def compact (value : Json) : Text := write .compact value

/-- A value over several lines. -/
def pretty (value : Json) : Text := write (.indented 0) value

theorem write_array_nil (layout : Layout) : write layout (array []) = ['[', ']'] := by
  simp [write, writeItems, Layout.enclose]

theorem write_object_nil (layout : Layout) : write layout (object []) = ['\x7b', '\x7d'] := by
  simp [write, writeFields, Layout.enclose]

/-! ## Small constructors -/

/-- A natural number. -/
def natural (n : Nat) : Json := integer n

/-- A word of the format itself. -/
def word (value : String) : Json := string value.toList

/-- A value, or null. -/
def nullable {α : Type} (encode : α → Json) : Option α → Json
  | some value => encode value
  | none => null

end Json

end MarkupPreview
