import MarkupPreview.Terminal.Paint
import MarkupPreview.Token.Line
import MarkupPreview.Preview.Scheduler

/-!
# What the terminal shows

A source with its tokens painted and its lines numbered, the outline of a display
tree, diagnostics with the lines they point at, and the view of a live preview.
Each is a text whose lines all end in a line feed.
-/

namespace MarkupPreview.Terminal

/-- Lines, each with a line feed at its end. -/
def unlines (lines : List Text) : Text := lines.flatMap (· ++ ['\n'])

/-! ## Sources -/

/-- The paint of a token. -/
def tokenPaint : TokenKind → List Attribute
  | .keyword => [.bold, .magenta]
  | .functionCall => [.blue]
  | .stringLiteral => [.green]
  | .numberLiteral => [.yellow]
  | .comment => [.italic, .brightBlack]
  | .emphasisMarkup => [.bold]
  | .mathInline => [.italic, .cyan]
  | .heading => [.bold, .brightBlue]
  | .plainText => []

/-- A number, filled up with spaces on its left. -/
def rightAligned (width : Nat) (n : Nat) : Text :=
  List.replicate (width - (Decimal.natText n).length) ' ' ++ Decimal.natText n

/-- A line of a source behind its number, which starts at one. -/
def numberedLine (colours : Bool) (width index : Nat) (tokens : List Token) : Text :=
  paint colours [.dimmed] (rightAligned width (index + 1)) ++
    ' ' :: paint colours [.dimmed] ['│'] ++
    ' ' :: tokens.flatMap fun token => paint colours (tokenPaint token.kind) token.text

/-- A source with its tokens painted and its lines numbered. -/
def sourceListing (colours : Bool) (lines : List (List Token)) : Text :=
  unlines (lines.mapIdx (numberedLine colours (Decimal.natText lines.length).length))

/-! ## Outlines -/

/-- An inline node in an outline. -/
def inlineText (colours : Bool) : InlineNode → Text
  | .text content => content
  | .strong content => paint colours [.bold] content
  | .emphasis content => paint colours [.italic] content
  | .math content => paint colours [.italic, .cyan] content

/-- A node in an outline. -/
def nodeLine (colours : Bool) : DisplayNode → Text
  | .heading level size text _ =>
      paint colours [.brightBlue] (List.replicate level '=') ++ ' ' :: paint colours [.bold] text ++
        ' ' :: paint colours [.dimmed] ('(' :: Style.sizeText size ++ [')'])
  | .paragraph family size children _ =>
      paint colours [.dimmed] ('[' :: family ++ ' ' :: Style.sizeText size ++ [']']) ++
        ' ' :: children.flatMap (inlineText colours)
  | .mathBlock content _ =>
      paint colours [.cyan] ['∑'] ++ ' ' :: paint colours [.italic, .cyan] content

/-- The outline of a display tree, a line for each node. -/
def outline (colours : Bool) (tree : DisplayTree) : Text :=
  unlines (tree.nodes.map (nodeLine colours))

/-- The check mark of what went well. -/
def checkMark (colours : Bool) : Text := paint colours [.green] ['✓']

/-- The outline of a result, and how much there is of it. -/
def resultListing (colours : Bool) (result : Compilation) : Text :=
  outline colours result.tree ++
    unlines
      [[],
       checkMark colours ++ ' ' :: Decimal.natText result.tree.nodes.length ++
        " nodes, ".toList ++ Decimal.natText result.pageCount ++ " page".toList]

/-! ## Diagnostics -/

/-- A diagnostic of a document with the given name, followed by the line it
points at if it points at one. -/
def diagnosticListing (source name : Text) (diagnostic : Diagnostic) : Text :=
  let (start, stop) := spanOfLine source diagnostic.line
  unlines <|
    ("Error: ".toList ++ diagnostic.message) ::
      match diagnostic.line with
      | none => []
      | some line =>
          [name ++ ':' :: Decimal.natText (line + 1) ++ ": ".toList ++
            (source.drop start).take (stop - start)]

/-! ## The live preview -/

/-- The view of a live preview: a notice while an attempt is under way, and else
the outline below a rule, with a note if there is nothing to complain about. -/
def viewListing (colours : Bool) (view : View) : Text :=
  if view.isCompiling then unlines [paint colours [.dimmed] "📝 Compiling...".toList]
  else
    unlines [paint colours [.dimmed] (List.replicate 40 '─')] ++
      (view.tree.map (outline colours)).getD [] ++
      if view.diagnostics.isEmpty then
        unlines [checkMark colours ++ " Preview updated".toList]
      else []

/-- The complaints about a view that is not under way any more. -/
def viewComplaint (colours : Bool) (source name : Text) (view : View) : Text :=
  if view.isCompiling || view.diagnostics.isEmpty then []
  else
    view.diagnostics.flatMap (diagnosticListing source name) ++
      unlines [paint colours [.yellow] "⚠️".toList ++ " Showing last successful preview".toList]

end MarkupPreview.Terminal
