import MarkupPreview.Proofs.InlineContent

/-!
# The replay of a paragraph

A draft works through the tokens of a paragraph once. It keeps its last node open for more
text, so a line goes on in a node of the line before, and at the end of a line it trims a
node that may have begun lines ago. Still its nodes come to what the lines show one by one.

A draft always holds merged nodes. Inside a line that has content there is nothing else to
know (`begun`), and between two lines only whether a space is due (`between`).

## Main results

* `InlineDraft.foldl_add_between` — a line begins with its first content.
* `InlineDraft.addLine_between` — a line adds its content, behind a space if one is due.
* `inlineNodes_replay` — a paragraph shows the contents of its lines, joined by spaces.
-/

namespace MarkupPreview

open Text
open InlineNode

namespace InlineDraft

/-! ## Drafts -/

/-- A draft with these nodes, inside a line that has content. -/
def begun (nodes : List InlineNode) : InlineDraft := ⟨(merge nodes).reverse, false, false⟩

/-- A draft with these nodes, between two lines. -/
def between (nodes : List InlineNode) (due : Bool) : InlineDraft :=
  ⟨(merge nodes).reverse, true, due⟩

theorem spaced_begun (nodes : List InlineNode) : (begun nodes).spaced = begun nodes := rfl

theorem spaced_between (nodes : List InlineNode) (due : Bool) :
    (between nodes due).spaced = begun (nodes ++ gap due) := by
  cases due with
  | true =>
      have hspace := merge_append_text nodes [' ']
      rw [gap, if_pos rfl, begun, space, hspace, List.reverse_reverse]
      rfl
  | false => rw [gap, if_neg Bool.false_ne_true, List.append_nil]; rfl

theorem addNode_of_spaced {draft : InlineDraft} {nodes : List InlineNode}
    (h : draft.spaced = begun nodes) {node : InlineNode} (hnode : node.isText = false) :
    draft.addNode node = begun (nodes ++ [node]) := by
  rw [addNode, h, begun, begun, merge_append_cons hnode, merge_nil, List.reverse_concat]

theorem extend_of_spaced {draft : InlineDraft} {nodes : List InlineNode}
    (h : draft.spaced = begun nodes) (content : Text) :
    { draft.spaced with latestFirst := extend draft.spaced.latestFirst content } =
      begun (nodes ++ [text content]) := by
  rw [h, begun, begun, merge_append_text, List.reverse_reverse]

theorem addText_begun (nodes : List InlineNode) (content : Text) :
    (begun nodes).addText content = begun (nodes ++ kept [text content]) := by
  cases content with
  | nil => rw [kept_cons_empty, kept_nil, List.append_nil]; rfl
  | cons c rest => exact extend_of_spaced (spaced_begun nodes) (c :: rest)

theorem addText_between {content : Text} (h : content.isBlank = false) (nodes : List InlineNode)
    (due : Bool) :
    (between nodes due).addText content =
      begun (nodes ++ gap due ++ [text (Text.trimStart content)]) := by
  have hne := List.isEmpty_eq_false_iff.mpr (trimStart_ne_nil h)
  rw [← extend_of_spaced (spaced_between nodes due)]
  simp [addText, between, hne]

/-- Inside a line that has content everything but empty texts is added. -/
theorem foldl_add_begun (nodes : List InlineNode) (tokens : List Token) :
    tokens.foldl add (begun nodes) = begun (nodes ++ kept (tokens.map ofToken)) := by
  induction tokens generalizing nodes with
  | nil => rw [List.map_nil, kept_nil, List.append_nil]; rfl
  | cons token rest ih =>
      have hadd : (begun nodes).add token = begun (nodes ++ kept [ofToken token]) := by
        rw [add]
        cases ofToken token with
        | text content => exact addText_begun nodes content
        | strong | emphasis | math => exact addNode_of_spaced (spaced_begun nodes) rfl
      rw [List.foldl_cons, hadd, ih, List.append_assoc, ← kept_append, List.singleton_append,
        List.map_cons]

/-- A line begins with its first content, behind a space if one is due. -/
theorem foldl_add_between (nodes : List InlineNode) (due : Bool) (tokens : List Token) :
    tokens.foldl add (between nodes due) =
      if opened tokens = [] then between nodes due
      else begun (nodes ++ gap due ++ opened tokens) := by
  induction tokens with
  | nil => rfl
  | cons token rest ih =>
      have hopened : opened (token :: rest) =
          kept (withoutLead (ofToken token :: rest.map ofToken)) := rfl
      rw [List.foldl_cons, add, hopened]
      cases ofToken token with
      | text content =>
          simp only
          cases hblank : content.isBlank with
          | true =>
              rw [addText_of_isBlank rfl hblank, withoutLead_blank hblank, ih]
              rfl
          | false =>
              have hne := text_ne_empty (trimStart_ne_nil hblank)
              rw [addText_between hblank, foldl_add_begun, withoutLead_text hblank,
                kept_cons_of_ne hne, if_neg (List.cons_ne_nil _ _), List.append_assoc,
                List.singleton_append]
      | strong | emphasis | math =>
          simp only
          rw [addNode_of_spaced (spaced_between nodes due) rfl, foldl_add_begun,
            withoutLead_of_not_isText rfl, kept_cons_of_ne (ne_empty_of_not_isText rfl),
            if_neg (List.cons_ne_nil _ _), List.append_assoc, List.singleton_append]

theorem trimLatest_reverse (nodes : List InlineNode) :
    trimLatest nodes.reverse = (withoutTrail nodes).reverse := by
  rw [withoutTrail, List.reverse_reverse]

/-- A line without content leaves nothing. -/
theorem closeLine_between {nodes : List InlineNode} (h : Closes nodes) (due : Bool) :
    (between nodes due).closeLine = between nodes due := by
  rw [closeLine, between, trimLatest_reverse, h.merge.withoutTrail_eq]
  rfl

theorem closeLine_begun (front : List InlineNode) {tokens : List Token} (hne : opened tokens ≠ []) :
    (begun (front ++ opened tokens)).closeLine = between (front ++ lineContent tokens) true := by
  have htrail := withoutTrail_merge_append front (isChain_merge (opened tokens))
    (opens_opened tokens).merge (merge_ne_nil hne)
  rw [merge_append_merge, ← lineContent_eq] at htrail
  rw [closeLine, begun, trimLatest_reverse, htrail]
  rfl

/-- A line adds its content, behind a space if one is due. -/
theorem addLine_between {nodes : List InlineNode} (h : Closes nodes) (due : Bool)
    (tokens : List Token) :
    (between nodes due).addLine tokens =
      if lineContent tokens = [] then between nodes due
      else between (nodes ++ gap due ++ lineContent tokens) true := by
  rw [addLine, foldl_add_between]
  by_cases hopened : opened tokens = []
  · rw [if_pos hopened, if_pos ((lineContent_eq_nil_iff tokens).mpr hopened), closeLine_between h]
  · have hcontent : lineContent tokens ≠ [] := mt (lineContent_eq_nil_iff tokens).mp hopened
    rw [if_neg hopened, if_neg hcontent, closeLine_begun _ hopened]

/-- Line by line the contents are joined. -/
theorem latestFirst_addLines {nodes : List InlineNode} (h : Closes nodes) (due : Bool)
    (lines : List (List Token)) :
    (lines.foldl addLine (between nodes due)).latestFirst =
      (merge (nodes ++ joined due (contents lines))).reverse := by
  induction lines generalizing nodes due with
  | nil => rw [contents_nil, joined, List.append_nil]; rfl
  | cons tokens rest ih =>
      rw [List.foldl_cons, addLine_between h]
      by_cases hcontent : lineContent tokens = []
      · rw [if_pos hcontent, ih h, contents_cons_of_eq_nil hcontent]
      · have hcloses := (closes_lineContent tokens).append hcontent (nodes ++ gap due)
        rw [if_neg hcontent, ih hcloses, contents_cons_of_ne_nil hcontent, joined]
        simp only [List.append_assoc]

end InlineDraft

/-! ## The replay -/

/-- A paragraph shows the contents of its lines, joined by spaces. No text among its nodes is
empty, no two texts stand side by side, and no text at either end has white space there. -/
theorem inlineNodes_replay (lines : List (List Token)) :
    inlineNodes lines = inlineContent lines ∧ Tidy (inlineNodes lines) := by
  have hreplay : inlineNodes lines = inlineContent lines := by
    have hlatest := InlineDraft.latestFirst_addLines closes_nil false lines
    rw [List.nil_append, joined_eq_intercalate] at hlatest
    rw [inlineNodes, inlineContent, ← List.reverse_reverse (merge _), ← hlatest]
    rfl
  exact ⟨hreplay, hreplay ▸ tidy_inlineContent lines⟩

/-- A line of white space adds nothing, and the space between the others is one. -/
example :
    inlineNodes [[⟨.plainText, ['a', ' '], 0, 0⟩], [⟨.plainText, [' '], 1, 0⟩],
      [⟨.emphasisMarkup, ['*', 'b', '*'], 2, 0⟩, ⟨.plainText, [' '], 2, 3⟩]] =
      [text ['a', ' '], strong ['b']] := by
  decide

end MarkupPreview
