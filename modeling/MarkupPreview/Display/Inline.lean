import MarkupPreview.Block.LineRole
import MarkupPreview.Display.Tree

/-!
# Inline content

The lines of a paragraph are replayed token by token into inline nodes.
Emphasis and math become nodes of their own, everything else runs together as
text. White space at the start and at the end of a line goes away, and one space
joins a line to the next one that has content.

## Main results

* `InlineNode.ofToken_strong`, `InlineNode.ofToken_emphasis`, `InlineNode.ofToken_math` —
  a marked token gives what stands between its marks, a formula without the white
  space at its ends.
* `InlineNode.ofToken_content` — a token that is neither emphasis nor math
  gives its own text.
-/

namespace MarkupPreview

/-- The inline node of a token. -/
def InlineNode.ofToken (token : Token) : InlineNode :=
  match token.kind with
  | .emphasisMarkup =>
      if token.text.head? = some '*' then strong (interior token.text)
      else emphasis (interior token.text)
  | .mathInline => math (Text.trim (interior token.text))
  | _ => text token.text

namespace InlineNode

theorem ofToken_strong {token : Token} {body : Text} (hkind : token.kind = .emphasisMarkup)
    (htext : token.text = '*' :: body ++ ['*']) : ofToken token = strong body := by
  have hhead : token.text.head? = some '*' := by rw [htext]; rfl
  simp only [ofToken, hkind, if_pos hhead]
  rw [htext, interior_marked]

theorem ofToken_emphasis {token : Token} {body : Text} (hkind : token.kind = .emphasisMarkup)
    (htext : token.text = '_' :: body ++ ['_']) : ofToken token = emphasis body := by
  have hhead : token.text.head? ≠ some '*' := by rw [htext]; simp
  simp only [ofToken, hkind, if_neg hhead]
  rw [htext, interior_marked]

theorem ofToken_math {token : Token} {body : Text} (hkind : token.kind = .mathInline)
    (htext : token.text = '$' :: body ++ ['$']) : ofToken token = math (Text.trim body) := by
  simp only [ofToken, hkind]
  rw [htext, interior_marked]

theorem ofToken_content {token : Token} (hemphasis : token.kind ≠ .emphasisMarkup)
    (hmath : token.kind ≠ .mathInline) : ofToken token = text token.text := by
  unfold ofToken
  split <;> simp_all

end InlineNode

/-- Inline nodes under way. -/
structure InlineDraft where
  /-- The nodes so far, the latest first. -/
  latestFirst : List InlineNode
  /-- Nothing of the current line has been kept yet. -/
  fresh : Bool
  /-- A space is due before the next content. -/
  spaceDue : Bool
deriving DecidableEq, Repr

namespace InlineDraft

/-- Before the first line. -/
def empty : InlineDraft := ⟨[], true, false⟩

/-- Text after the latest node, or at its end if that is text. -/
def extend (nodes : List InlineNode) (added : Text) : List InlineNode :=
  match nodes with
  | .text content :: rest => .text (content ++ added) :: rest
  | _ => .text added :: nodes

/-- Content comes: a space that is due is written first. -/
def spaced (draft : InlineDraft) : InlineDraft :=
  { latestFirst :=
      if draft.spaceDue then extend draft.latestFirst [' '] else draft.latestFirst
    fresh := false
    spaceDue := false }

/-- Adds a node other than text. -/
def addNode (draft : InlineDraft) (node : InlineNode) : InlineDraft :=
  let begun := draft.spaced
  { begun with latestFirst := node :: begun.latestFirst }

/-- Adds text. At the start of a line its leading white space is dropped, and
text of which nothing is left is no content. -/
def addText (draft : InlineDraft) (added : Text) : InlineDraft :=
  let kept := if draft.fresh then Text.trimStart added else added
  if kept.isEmpty then draft
  else
    let begun := draft.spaced
    { begun with latestFirst := extend begun.latestFirst kept }

/-- Adds the node of a token. -/
def add (draft : InlineDraft) (token : Token) : InlineDraft :=
  match InlineNode.ofToken token with
  | .text added => draft.addText added
  | node => draft.addNode node

/-- Drops white space after the latest node, and the node if nothing else is in
it. -/
def trimLatest : List InlineNode → List InlineNode
  | .text content :: rest =>
      if (Text.trimEnd content).isEmpty then rest else .text (Text.trimEnd content) :: rest
  | nodes => nodes

/-- Ends a line. If it had content a space is due. -/
def closeLine (draft : InlineDraft) : InlineDraft :=
  { latestFirst := trimLatest draft.latestFirst
    fresh := true
    spaceDue := !draft.fresh || draft.spaceDue }

/-- Adds a line of tokens. -/
def addLine (draft : InlineDraft) (tokens : List Token) : InlineDraft :=
  (tokens.foldl add draft).closeLine

end InlineDraft

/-- The inline nodes of the lines of a paragraph. -/
def inlineNodes (lines : List (List Token)) : List InlineNode :=
  (lines.foldl InlineDraft.addLine .empty).latestFirst.reverse

end MarkupPreview
