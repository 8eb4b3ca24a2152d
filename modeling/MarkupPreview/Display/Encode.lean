import MarkupPreview.Compile
import MarkupPreview.Preview.Config

/-!
# Tokens, trees and results as data

The records in which tokens, display trees and compilation results are written
for other programs. The fields have a fixed order; the kind of a node comes
first.
-/

namespace MarkupPreview

/-- A token as a record. -/
def Token.toJson (token : Token) : Json :=
  .object
    [("kind", .word token.kind.key), ("text", .string token.text),
     ("line", .natural token.line), ("column", .natural token.column)]

/-- Lexed lines as an array of arrays. -/
def linesToJson (lines : List (List Token)) : Json :=
  .array (lines.map fun tokens => .array (tokens.map Token.toJson))

/-- A range of lines as a record. -/
def LineRange.toJson (range : LineRange) : Json :=
  .object [("start", .natural range.start), ("end", .natural range.stop)]

/-- An inline node as a record. -/
def InlineNode.toJson (node : InlineNode) : Json :=
  .object [("type", .word node.typeName), ("content", .string node.content)]

/-- A display node as a record. -/
def DisplayNode.toJson : DisplayNode → Json
  | heading level size text line =>
      .object
        [("type", .word "Heading"), ("level", .natural level), ("size_pt", .number size),
         ("text", .string text), ("line", .natural line)]
  | paragraph family size children lines =>
      .object
        [("type", .word "Paragraph"), ("font_family", .string family),
         ("font_size_pt", .number size), ("children", .array (children.map InlineNode.toJson)),
         ("lines", lines.toJson)]
  | mathBlock content line =>
      .object
        [("type", .word "MathBlock"), ("content", .string content), ("line", .natural line)]

/-- A display tree as a record. -/
def DisplayTree.toJson (tree : DisplayTree) : Json :=
  .object
    [("nodes", .array (tree.nodes.map DisplayNode.toJson)),
     ("page_count", .natural tree.pageCount), ("style", tree.style.toJson)]

/-- A diagnostic as a record. -/
def Diagnostic.toJson (diagnostic : Diagnostic) : Json :=
  .object <|
    ("message", .string diagnostic.message) ::
      (diagnostic.line.map fun line => ("line", Json.natural line)).toList

/-- Diagnostics as an array. -/
def diagnosticsToJson (diagnostics : List Diagnostic) : Json :=
  .array (diagnostics.map Diagnostic.toJson)

/-- A compilation result as a record. -/
def Compilation.toJson (result : Compilation) : Json :=
  .object
    [("display_tree", result.tree.toJson), ("page_count", .natural result.pageCount),
     ("diagnostics", diagnosticsToJson result.diagnostics)]

end MarkupPreview
