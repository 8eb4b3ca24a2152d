import MarkupPreview.Block.LineRole
import MarkupPreview.Directive.Effect

/-!
# From lines to blocks

The lines of a document fall into segments by the roles of the lines alone: a heading and
a math block are one line, a paragraph is a maximal run of content lines, a
directive goes on while its argument list is open, and blank lines separate.

The style is threaded through the segments afterwards. A directive changes it
for the segments behind it, and every block keeps the style it was opened in, so
no change reaches back.

## Main results

* `classify_style` — the final style is the effect of the segments, one after
  the other.
* `classify_blocks_segments` — styling changes nothing about the segments.
-/

namespace MarkupPreview

/-! ## Segments -/

namespace LineRole

/-- The kind of segment that a line opens, unless it is blank. -/
def kind? : LineRole → Option BlockKind
  | blank => none
  | heading level => some (.heading level)
  | directive _ _ => some .directive
  | mathBlock => some .mathBlock
  | content => some .paragraph

/-- The number of further lines in the segment that a line opens, given the
lines that follow it. -/
def extent (role : LineRole) (following : List (List Token)) : Nat :=
  match role with
  | directive _ arguments => continuation arguments following
  | content => (following.takeWhile isContent).length
  | _ => 0

end LineRole

/-- The segments of lines that are numbered from `index` on. -/
def segmentsFrom (index : Nat) (lines : List (List Token)) : List Segment :=
  match lines with
  | [] => []
  | line :: following =>
      let more := (LineRole.of line).extent following
      let others := segmentsFrom (index + 1 + more) (following.drop more)
      match (LineRole.of line).kind? with
      | some kind => ⟨kind, ⟨index, index + 1 + more⟩, line :: following.take more⟩ :: others
      | none => others
termination_by lines.length
decreasing_by
  simp only [List.length_drop, List.length_cons]
  omega

/-- The segments of a document. -/
def segments (lines : List (List Token)) : List Segment := segmentsFrom 0 lines

/-! ## Effects -/

namespace Segment

/-- The source of a directive: what follows its keyword, line by line, without
comments. -/
def directiveSource (arguments : List Token) (continued : List (List Token)) : Text :=
  Text.joinLines (withoutComments arguments :: continued.map withoutComments)

/-- The set rule of a segment, if it is a directive with one that reads. -/
def setRule? (segment : Segment) : Option SetRule :=
  match segment.tokens with
  | [] => none
  | line :: continued =>
      match LineRole.of line with
      | .directive keyword arguments =>
          if keyword = setKeyword then
            (SetRule.parse (directiveSource arguments continued)).toOption
          else none
      | _ => none

theorem setRule?_of_directive {segment : Segment} {line arguments : List Token}
    {continued : List (List Token)} {keyword : Text} (htokens : segment.tokens = line :: continued)
    (hrole : LineRole.of line = .directive keyword arguments) :
    segment.setRule? = if keyword = setKeyword then
      (SetRule.parse (directiveSource arguments continued)).toOption else none := by
  simp only [setRule?, htokens, hrole]

/-- The style behind a segment. -/
def effect (segment : Segment) (style : Style) : Style :=
  match segment.setRule? with
  | some rule => rule.apply style
  | none => style

end Segment

/-! ## Blocks -/

/-- Gives each segment the style in effect where it starts. -/
def styled (style : Style) : List Segment → Classification
  | [] => ⟨[], style⟩
  | segment :: rest =>
      let others := styled (segment.effect style) rest
      ⟨{ segment with style } :: others.blocks, others.style⟩

/-- The blocks of a document whose base style is given. -/
def classify (base : Style) (lines : List (List Token)) : Classification :=
  styled base (segments lines)

theorem styled_style (style : Style) (segments : List Segment) :
    (styled style segments).style = segments.foldl (fun s segment => segment.effect s) style := by
  induction segments generalizing style with
  | nil => rfl
  | cons segment rest ih => simp [styled, ih]

theorem styled_segments (style : Style) (segments : List Segment) :
    (styled style segments).blocks.map Block.toSegment = segments := by
  induction segments generalizing style with
  | nil => rfl
  | cons segment rest ih => simp [styled, ih]

theorem classify_style (base : Style) (lines : List (List Token)) :
    (classify base lines).style =
      (segments lines).foldl (fun s segment => segment.effect s) base :=
  styled_style ..

theorem classify_blocks_segments (base : Style) (lines : List (List Token)) :
    (classify base lines).blocks.map Block.toSegment = segments lines :=
  styled_segments ..

theorem toSegment_mem_segments {base : Style} {lines : List (List Token)} {block : Block}
    (h : block ∈ (classify base lines).blocks) : block.toSegment ∈ segments lines := by
  rw [← classify_blocks_segments base]
  exact List.mem_map_of_mem h

end MarkupPreview
