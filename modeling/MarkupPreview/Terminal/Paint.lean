import MarkupPreview.Decimal.Form

/-!
# Painted text

A terminal is told to paint by an escape sequence in front of a text, and to
stop by a reset behind it. A reset inside the text would end the paint too early,
so the opening sequence is written again after each one.
-/

namespace MarkupPreview.Terminal

/-- What a text can be painted as. -/
inductive Attribute where
  | bold
  | dimmed
  | italic
  | green
  | yellow
  | blue
  | magenta
  | cyan
  | brightBlack
  | brightBlue
  | brightWhite
deriving DecidableEq, Repr

/-- The number of an attribute in an escape sequence. -/
def Attribute.code : Attribute → Nat
  | bold => 1
  | dimmed => 2
  | italic => 3
  | green => 32
  | yellow => 33
  | blue => 34
  | magenta => 35
  | cyan => 36
  | brightBlack => 90
  | brightBlue => 94
  | brightWhite => 97

/-- The sequence that ends all paint. -/
def reset : Text := "\x1b[0m".toList

/-- The sequence that starts to paint with the given attributes. -/
def opening (attributes : List Attribute) : Text :=
  "\x1b[".toList ++
    List.intercalate [';'] (attributes.map fun a => Decimal.natText a.code) ++ ['m']

/-- Writes `again` after each reset in a text. -/
def repeatAfterReset (again : Text) : Text → Text
  | '\x1b' :: '[' :: '0' :: 'm' :: rest => reset ++ again ++ repeatAfterReset again rest
  | c :: rest => c :: repeatAfterReset again rest
  | [] => []

/-- A text painted with the given attributes, if colours are on and there is an
attribute. -/
def paint (colours : Bool) (attributes : List Attribute) (text : Text) : Text :=
  if colours && !attributes.isEmpty then
    opening attributes ++ repeatAfterReset (opening attributes) text ++ reset
  else text

end MarkupPreview.Terminal
