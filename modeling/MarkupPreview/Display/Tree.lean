import MarkupPreview.Block.Basic

/-!
# Display trees

A display tree is what a painter draws: headings, paragraphs with their inline
content, and display math, each with the source lines it comes from. Directives
leave no node.
-/

namespace MarkupPreview

/-- The inline content of a paragraph, without its delimiters. -/
inductive InlineNode where
  | text (content : Text)
  | strong (content : Text)
  | emphasis (content : Text)
  | math (content : Text)
deriving DecidableEq, Repr

namespace InlineNode

/-- The text of an inline node. -/
def content : InlineNode → Text
  | text content => content
  | strong content => content
  | emphasis content => content
  | math content => content

/-- The name of the kind of an inline node. -/
def typeName : InlineNode → String
  | text _ => "Text"
  | strong _ => "Strong"
  | emphasis _ => "Emphasis"
  | math _ => "Math"

end InlineNode

/-- A unit of the displayed document. -/
inductive DisplayNode where
  | heading (level : Nat) (size : Float) (text : Text) (line : Nat)
  | paragraph (fontFamily : Text) (fontSize : Float) (children : List InlineNode)
    (lines : LineRange)
  | mathBlock (content : Text) (line : Nat)
deriving DecidableEq, Repr

namespace DisplayNode

/-- The source line that a node starts on. -/
def firstLine : DisplayNode → Nat
  | heading _ _ _ line => line
  | paragraph _ _ _ lines => lines.start
  | mathBlock _ line => line

/-- The visible text of a node. -/
def plainText : DisplayNode → Text
  | heading _ _ text _ => text
  | paragraph _ _ children _ => children.flatMap InlineNode.content
  | mathBlock content _ => content

end DisplayNode

/-- The nodes of a document, its number of pages, and the style at its end. -/
structure DisplayTree where
  nodes : List DisplayNode
  pageCount : Nat
  style : Style
deriving DecidableEq, Repr

/-- A tree of some nodes. Everything is drawn on one page. -/
def DisplayTree.ofNodes (nodes : List DisplayNode) (style : Style) : DisplayTree :=
  ⟨nodes, 1, style⟩

end MarkupPreview
