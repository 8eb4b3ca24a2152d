import MarkupPreview.Style
import MarkupPreview.Token.Basic

/-!
# Blocks

A block is a run of source lines that forms one unit of the document. A
*segment* is such a run by itself; a block is a segment with the style that was
in effect where it was opened.

## Main results

* `headingParts_level`, `headingParts_text` — the two parts of a heading line.
-/

namespace MarkupPreview

/-- Source lines from `start` on, up to `stop` and without it. -/
structure LineRange where
  start : Nat
  stop : Nat
deriving DecidableEq, Repr

/-- What a block is. -/
inductive BlockKind where
  | heading (level : Nat)
  | paragraph
  | directive
  | mathBlock
deriving DecidableEq, Repr

/-- Source lines that form one unit, with their tokens line by line. -/
structure Segment where
  kind : BlockKind
  lines : LineRange
  tokens : List (List Token)
deriving DecidableEq, Repr

/-- A segment and the style it was opened in. -/
structure Block extends Segment where
  style : Style
deriving DecidableEq, Repr

/-- The blocks of a document, and the style after the last of them. -/
structure Classification where
  blocks : List Block
  style : Style
deriving DecidableEq, Repr

/-- The level of a heading, if the kind is one. -/
def BlockKind.level? : BlockKind → Option Nat
  | heading level => some level
  | _ => none

/-- The name of a kind. -/
def BlockKind.name : BlockKind → String
  | heading _ => "heading"
  | paragraph => "paragraph"
  | directive => "directive"
  | mathBlock => "math_block"

/-- All tokens of a segment in source order. -/
def Segment.allTokens (segment : Segment) : List Token := segment.tokens.flatten

/-- The level of a heading line, which is the number of equals signs at its
front, and its text. -/
def headingParts (text : Text) : Nat × Text :=
  ((text.takeWhile (· == '=')).length, Text.trim (text.dropWhile (· == '=')))

theorem headingParts_level (text : Text) :
    (headingParts text).1 = (text.takeWhile (· == '=')).length := rfl

theorem headingParts_text (text : Text) :
    (headingParts text).2 = Text.trim (text.dropWhile (· == '=')) := rfl

end MarkupPreview
