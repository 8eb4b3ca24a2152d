import MarkupPreview.Block.Segment
import MarkupPreview.Display.Inline

/-!
# Rendering blocks

Each block but a directive becomes one node. Headings have a size by their
level, paragraphs the style of their block, and a paragraph in a faulty style
cannot be drawn: the first of them stops the rendering.
-/

namespace MarkupPreview

/-! ## Errors -/

/-- A paragraph in a faulty style, and the source line it starts on. -/
structure RenderError where
  fault : StyleFault
  line : Nat
deriving DecidableEq, Repr

namespace RenderError

/-- The error as a message; lines are counted from one there. -/
def message (error : RenderError) : Text :=
  match error.fault with
  | .fontSize size =>
      "Invalid font size ".toList ++ Style.sizeText size ++ " for block at line ".toList ++
        Decimal.natText (error.line + 1)
  | .fontFamily =>
      "Empty font family for block at line ".toList ++ Decimal.natText (error.line + 1)

end RenderError

/-! ## Headings -/

/-- The deepest level of a heading; deeper ones are shown at this level. -/
def deepestLevel : Nat := 6

/-- The level that a heading is shown at. -/
def shownLevel (level : Nat) : Nat := max 1 (min level deepestLevel)

/-- The size of a heading in points, by its level. -/
def headingSize (level : Nat) : Float :=
  match shownLevel level with
  | 1 => 26.0
  | 2 => 20.0
  | 3 => 16.0
  | 4 => 14.0
  | 5 => 12.0
  | _ => 11.0

/-! ## Nodes -/

/-- The text of a heading, from its first token. -/
def headingText (segment : Segment) : Text :=
  match segment.allTokens with
  | [] => []
  | token :: _ => (headingParts token.text).2

/-- The formula of a math block, from its first token of inline math. -/
def mathContent (segment : Segment) : Text :=
  match segment.allTokens.find? (·.kind == .mathInline) with
  | some token => Text.trim (interior token.text)
  | none => []

/-- The node of a block, if it gives one. -/
def renderBlock (block : Block) : Except RenderError (Option DisplayNode) :=
  let line := block.lines.start
  match block.kind with
  | .directive => .ok none
  | .heading level =>
      .ok (some
        (.heading (shownLevel level) (headingSize level) (headingText block.toSegment) line))
  | .mathBlock => .ok (some (.mathBlock (mathContent block.toSegment) line))
  | .paragraph =>
      match block.style.fault? with
      | some fault => .error ⟨fault, line⟩
      | none =>
          .ok (some (.paragraph block.style.fontFamily block.style.fontSize
            (inlineNodes block.tokens) block.lines))

/-- The nodes of some blocks. -/
def renderBlocks : List Block → Except RenderError (List DisplayNode)
  | [] => .ok []
  | block :: rest =>
      match renderBlock block with
      | .error error => .error error
      | .ok node => (renderBlocks rest).map (node.toList ++ ·)

/-- The display tree of some blocks, with the style at their end. -/
def render (blocks : List Block) (style : Style) : Except RenderError DisplayTree :=
  (renderBlocks blocks).map (DisplayTree.ofNodes · style)

end MarkupPreview
