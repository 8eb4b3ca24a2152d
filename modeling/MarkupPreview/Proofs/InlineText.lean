import MarkupPreview.Display.Inline
import MarkupPreview.Proofs.LosslessTokens

/-!
# The text of a paragraph

Replaying the lines of a paragraph strips delimiters, trims the ends of lines, and
joins and merges what is left. To see that no visible character goes missing in
this, the delimiters are put back (`InlineNode.markup`) and all white space is
deleted on both sides (`Text.withoutSpace`). What a draft holds then grows by
exactly the visible text of each token, and ending a line leaves it alone.

That a token is spelled by its node needs the grammar of a line: only because an
emphasis lexeme stands between two equal marks do these marks come back.

## Main results

* `withoutSpace_inlineNodes` — the nodes of a paragraph show the visible text of its
  tokens, all of it, once and in order.
* `withoutSpace_markup_ofToken` — the node of a lexed token spells the token, up to
  white space.
-/

namespace MarkupPreview

/-! ## White space -/

namespace Text

/-- The text with all white space deleted. -/
def withoutSpace (text : Text) : Text := text.filter (!isSpace ·)

@[simp] theorem withoutSpace_nil : withoutSpace [] = [] := rfl

@[simp] theorem withoutSpace_append (front back : Text) :
    withoutSpace (front ++ back) = withoutSpace front ++ withoutSpace back :=
  List.filter_append ..

theorem withoutSpace_cons (c : Char) (rest : Text) :
    withoutSpace (c :: rest) = withoutSpace [c] ++ withoutSpace rest :=
  withoutSpace_append [c] rest

theorem withoutSpace_of_isBlank {text : Text} (h : text.isBlank = true) :
    withoutSpace text = [] := by
  rw [withoutSpace, List.filter_eq_nil_iff]
  intro c hc
  simp [isBlank_iff.mp h c hc]

@[simp] theorem withoutSpace_trimStart (text : Text) :
    withoutSpace (trimStart text) = withoutSpace text := by
  obtain ⟨blank, hblank, hsplit⟩ := exists_blank_append_trimStart text
  conv_rhs => rw [hsplit, withoutSpace_append, withoutSpace_of_isBlank hblank]
  rfl

@[simp] theorem withoutSpace_trimEnd (text : Text) :
    withoutSpace (trimEnd text) = withoutSpace text := by
  obtain ⟨blank, hblank, hsplit⟩ := exists_trimEnd_append_blank text
  conv_rhs => rw [hsplit, withoutSpace_append, withoutSpace_of_isBlank hblank]
  rw [List.append_nil]

@[simp] theorem withoutSpace_trim (text : Text) : withoutSpace (trim text) = withoutSpace text := by
  rw [trim, withoutSpace_trimEnd, withoutSpace_trimStart]

end Text

open Text

/-! ## Drafts -/

namespace InlineNode

/-- A node as it is written, with its delimiters. -/
def markup : InlineNode → Text
  | text content => content
  | strong content => '*' :: content ++ ['*']
  | emphasis content => '_' :: content ++ ['_']
  | math content => '$' :: content ++ ['$']

end InlineNode

namespace InlineDraft

/-- The visible text of nodes of which the latest comes first. -/
def visible (latestFirst : List InlineNode) : Text :=
  withoutSpace (latestFirst.reverse.flatMap InlineNode.markup)

@[simp] theorem visible_cons (node : InlineNode) (rest : List InlineNode) :
    visible (node :: rest) = visible rest ++ withoutSpace node.markup := by
  simp [visible]

@[simp] theorem visible_extend (nodes : List InlineNode) (added : Text) :
    visible (extend nodes added) = visible nodes ++ withoutSpace added := by
  unfold extend
  split
  · simp [InlineNode.markup]
  · rw [visible_cons]
    rfl

@[simp] theorem visible_spaced (draft : InlineDraft) :
    visible draft.spaced.latestFirst = visible draft.latestFirst := by
  unfold spaced
  split
  · rw [visible_extend, withoutSpace_of_isBlank (by decide), List.append_nil]
  · rfl

theorem visible_addNode (draft : InlineDraft) (node : InlineNode) :
    visible (draft.addNode node).latestFirst =
      visible draft.latestFirst ++ withoutSpace node.markup := by
  simp [addNode]

theorem visible_addText (draft : InlineDraft) (added : Text) :
    visible (draft.addText added).latestFirst =
      visible draft.latestFirst ++ withoutSpace added := by
  have hkept : withoutSpace (if draft.fresh then trimStart added else added) =
      withoutSpace added := by
    split
    · exact withoutSpace_trimStart added
    · rfl
  simp only [addText]
  -- Whether the start was trimmed no longer matters.
  generalize (if draft.fresh then trimStart added else added) = kept at hkept ⊢
  rw [← hkept]
  split
  · rename_i hempty
    rw [List.isEmpty_iff.mp hempty, withoutSpace_nil, List.append_nil]
  · rw [visible_extend, visible_spaced]

theorem visible_add (draft : InlineDraft) (token : Token) :
    visible (draft.add token).latestFirst =
      visible draft.latestFirst ++ withoutSpace (InlineNode.ofToken token).markup := by
  unfold add
  split
  · rename_i added hnode
    rw [visible_addText, hnode]
    rfl
  · exact visible_addNode ..

theorem visible_trimLatest (nodes : List InlineNode) :
    visible (trimLatest nodes) = visible nodes := by
  unfold trimLatest
  split
  · rename_i content rest
    split
    · -- A text that is dropped was white space only.
      rename_i hempty
      rw [visible_cons, InlineNode.markup, ← withoutSpace_trimEnd, List.isEmpty_iff.mp hempty,
        withoutSpace_nil, List.append_nil]
    · rw [visible_cons, visible_cons, InlineNode.markup, withoutSpace_trimEnd]
      rfl
  · rfl

/-- A line adds the visible text of its tokens. -/
theorem visible_addLine (draft : InlineDraft) (tokens : List Token) :
    visible (draft.addLine tokens).latestFirst = visible draft.latestFirst ++
      tokens.flatMap fun token => withoutSpace (InlineNode.ofToken token).markup := by
  have hfold : visible (tokens.foldl add draft).latestFirst = visible draft.latestFirst ++
      tokens.flatMap fun token => withoutSpace (InlineNode.ofToken token).markup := by
    induction tokens generalizing draft with
    | nil => simp
    | cons token rest ih =>
        rw [List.foldl_cons, ih, visible_add, List.flatMap_cons, List.append_assoc]
  rw [← hfold]
  exact visible_trimLatest _

end InlineDraft

/-- The nodes of a paragraph show what the nodes of its tokens show. -/
theorem withoutSpace_inlineNodes (lines : List (List Token)) :
    withoutSpace ((inlineNodes lines).flatMap InlineNode.markup) =
      lines.flatten.flatMap fun token => withoutSpace (InlineNode.ofToken token).markup := by
  have hfold : ∀ draft : InlineDraft,
      InlineDraft.visible (lines.foldl InlineDraft.addLine draft).latestFirst =
        InlineDraft.visible draft.latestFirst ++
          lines.flatten.flatMap fun token => withoutSpace (InlineNode.ofToken token).markup := by
    induction lines with
    | nil => simp
    | cons tokens rest ih =>
        intro draft
        rw [List.foldl_cons, ih, InlineDraft.visible_addLine, List.flatten_cons,
          List.flatMap_append, List.append_assoc]
  exact hfold .empty

/-! ## Lexed tokens -/

namespace Token

/-- A token that is neither plain nor a heading is a lexeme of a rule of its
kind. -/
theorem accepts_of_mem_ofLine {index : Nat} {line : Text} {token : Token}
    (h : token ∈ ofLine index line) (hplain : token.kind ≠ .plainText)
    (hheading : token.kind ≠ .heading) :
    ∃ (rule : Rule) (rest : Text), rule.kind = token.kind ∧ rule.Accepts token.text rest := by
  have hpiece := piece_mem_ofLine h
  unfold Piece.ofLine at hpiece
  split at hpiece
  · exact absurd (congrArg Piece.kind (List.mem_singleton.mp hpiece)) hheading
  · exact (Piece.scan_mergePlain _).accepts_of_mem hpiece hplain

theorem accepts_of_kind (rule : Rule) {index : Nat} {line : Text} {token : Token}
    (h : token ∈ ofLine index line) (hkind : token.kind = rule.kind)
    (hcall : rule.kind ≠ .functionCall) : ∃ rest, rule.Accepts token.text rest := by
  obtain ⟨found, rest, hfound, haccepts⟩ :=
    accepts_of_mem_ofLine h (hkind ▸ rule.kind_ne_plainText) (hkind ▸ rule.kind_ne_heading)
  exact ⟨rest, Rule.eq_of_kind (hfound.trans hkind) hcall ▸ haccepts⟩

theorem isMarked_of_emphasisMarkup {index : Nat} {line : Text} {token : Token}
    (h : token ∈ ofLine index line) (hkind : token.kind = .emphasisMarkup) :
    ∃ mark body, (mark = '*' ∨ mark = '_') ∧ IsMarked mark body token.text := by
  obtain ⟨rest, mark, body, hmark, -, hmarked⟩ := accepts_of_kind .emphasis h hkind (by decide)
  exact ⟨mark, body, by simpa [Rule.isEmphasisMark] using hmark, hmarked⟩

theorem isMarked_of_mathInline {index : Nat} {line : Text} {token : Token}
    (h : token ∈ ofLine index line) (hkind : token.kind = .mathInline) :
    ∃ body, IsMarked '$' body token.text := by
  obtain ⟨rest, hmarked⟩ := accepts_of_kind .math h hkind (by decide)
  exact hmarked

/-- A formula in its dollar signs again is what was between them, up to white space. -/
theorem withoutSpace_math (body : Text) :
    withoutSpace ('$' :: trim body ++ ['$']) = withoutSpace ('$' :: body ++ ['$']) := by
  rw [withoutSpace_append, withoutSpace_append, withoutSpace_cons, withoutSpace_cons '$' body,
    withoutSpace_trim]

/-- The node of a lexed token spells the token, up to white space. -/
theorem withoutSpace_markup_ofToken {index : Nat} {line : Text} {token : Token}
    (h : token ∈ ofLine index line) :
    withoutSpace (InlineNode.ofToken token).markup = withoutSpace token.text := by
  by_cases hemphasis : token.kind = .emphasisMarkup
  · obtain ⟨mark, body, hmark, -, htext⟩ := isMarked_of_emphasisMarkup h hemphasis
    rcases hmark with rfl | rfl
    · rw [InlineNode.ofToken_strong hemphasis htext, htext]
      rfl
    · rw [InlineNode.ofToken_emphasis hemphasis htext, htext]
      rfl
  · by_cases hmath : token.kind = .mathInline
    · obtain ⟨body, -, htext⟩ := isMarked_of_mathInline h hmath
      rw [InlineNode.ofToken_math hmath htext, htext]
      exact withoutSpace_math body
    · rw [InlineNode.ofToken_content hemphasis hmath]
      rfl

end Token

end MarkupPreview
