import Mathlib.Data.List.Forall2
import MarkupPreview.Compile
import MarkupPreview.Proofs.InlineText
import MarkupPreview.Proofs.RoleOfText

/-!
# No visible text is lost

From the source to the display tree every visible character is shown once. The
nodes of a tree stand for the blocks that are no directives, one for one and in
order, so they inherit the order and the cover of the blocks. What a node shows is
compared with the source lines of its block: a paragraph and a math block up to
white space and with their delimiters put back, a heading without its equals signs
and the white space around its text.

## Main results

* `forall₂_renderBlocks` — rendering gives one node for each block but the
  directives.
* `shows_of_renderBlock` — the node of a block shows the text of its lines.
* `compileText_showsAll` — a compiled source is shown completely and without
  repetition.
-/

namespace MarkupPreview

open Text

/-! ## What a node has to show -/

/-- A text without the white space around it: `inner` neither starts nor ends with
any, and only white space is missing. -/
structure Text.Trims (text inner : Text) : Prop where
  split : ∃ before after, isBlank before = true ∧ isBlank after = true ∧
    text = before ++ inner ++ after
  head : ∀ c ∈ inner.head?, isSpace c = false
  last : ∀ c ∈ inner.getLast?, isSpace c = false

/-- The text of a heading line: what stands behind all its equals signs, without
the white space around it. -/
def IsHeadingText (line text : Text) : Prop :=
  ∃ level rest, 0 < level ∧ line = List.replicate level '=' ++ rest ∧ rest.head? ≠ some '=' ∧
    Trims rest text

namespace DisplayNode

/-- The source lines that a node stands for. -/
def sourceLines : DisplayNode → LineRange
  | heading _ _ _ line => ⟨line, line + 1⟩
  | paragraph _ _ _ lines => lines
  | mathBlock _ line => ⟨line, line + 1⟩

/-- The node shows the text of its source lines. -/
def Shows (source : Text) : DisplayNode → Prop
  | heading _ _ text line => ∃ whole, source.lines[line]? = some whole ∧ IsHeadingText whole text
  | paragraph _ _ children lines =>
      withoutSpace (children.flatMap InlineNode.markup) =
        withoutSpace ((source.lines.drop lines.start).take (lines.stop - lines.start)).flatten
  | mathBlock content line =>
      ∃ whole, source.lines[line]? = some whole ∧
        withoutSpace ('$' :: content ++ ['$']) = withoutSpace whole

end DisplayNode

/-- The nodes show all of a source that is not in a directive, once and in
order. -/
structure ShowsAll (source : Text) (blocks : List Block) (nodes : List DisplayNode) : Prop where
  inside : ∀ node ∈ nodes, node.sourceLines.start < node.sourceLines.stop ∧
    node.sourceLines.stop ≤ source.lines.length
  ordered : nodes.Pairwise fun a b => a.sourceLines.stop ≤ b.sourceLines.start
  once : ∀ i line, source.lines[i]? = some line → line.isBlank = false →
    (∀ block ∈ blocks, block.kind = .directive → ¬ block.lines.Covers i) →
    nodes.countP (·.sourceLines.Covers i) = 1
  shows : ∀ node ∈ nodes, node.Shows source

/-! ## Headings -/

theorem Text.trims_trim (text : Text) : Trims text (trim text) := by
  obtain ⟨before, hbefore, hstart⟩ := exists_blank_append_trimStart text
  obtain ⟨after, hafter, hend⟩ := exists_trimEnd_append_blank (trimStart text)
  refine ⟨⟨before, after, hbefore, hafter, ?_⟩, fun c hc => ?_, fun c hc => ?_⟩
  · rw [List.append_assoc, trim, ← hend, ← hstart]
  · -- What is trimmed at the end starts as before.
    have hhead : (trimStart text).head? = some c := by
      have htrim : (trimEnd (trimStart text)).head? = some c := hc
      rw [hend, List.head?_append, htrim]
      rfl
    exact not_isSpace_of_head?_trimStart hhead
  · have hlast : (trimStart (trimStart text).reverse).head? = some c := by
      rw [← List.getLast?_reverse]
      exact hc
    exact not_isSpace_of_head?_trimStart hlast

theorem isHeadingText_headingParts {line : Text} (h : line.head? = some '=') :
    IsHeadingText line (headingParts line).2 := by
  obtain ⟨hpos, rest, hline, hrest⟩ := hasLevel_headingParts h
  refine ⟨(headingParts line).1, rest, hpos, hline, hrest, ?_⟩
  have hbehind : line.dropWhile (· == '=') = rest := by
    conv_lhs => rw [hline]
    exact dropWhile_run (by simp) (stops_sign hrest)
  rw [headingParts_text, hbehind]
  exact trims_trim rest

theorem withoutSpace_spelling_of_isBlank {tokens : List Token}
    (h : ∀ token ∈ tokens, token.isBlank = true) : withoutSpace (spelling tokens) = [] :=
  withoutSpace_of_isBlank (isBlank_spelling_of_forall h)

/-! ## The node of a block -/

theorem Segment.Fits.tokens_single {lines : List (List Token)} {segment : Segment}
    (h : segment.Fits lines) (hsingle : segment.lines.stop = segment.lines.start + 1)
    {line : List Token} (hline : lines[segment.lines.start]? = some line) :
    segment.tokens = [line] := by
  obtain ⟨hlt, rfl⟩ := List.getElem?_eq_some_iff.mp hline
  rw [h.tokens_eq, hsingle, Nat.add_sub_cancel_left, List.drop_eq_getElem_cons hlt]
  rfl

theorem headingText_of_role {segment : Segment} {index level : Nat} {line : Text}
    (htokens : segment.tokens = [Token.ofLine index line])
    (hrole : LineRole.of (Token.ofLine index line) = .heading level) :
    IsHeadingText line (headingText segment) := by
  obtain ⟨before, lead, after, hsplit, -, hkind, -⟩ := LineRole.of_eq_heading_iff.mp hrole
  have hlead : lead ∈ Token.ofLine index line := by
    rw [hsplit]
    simp
  obtain ⟨hhead, hline⟩ := Token.ofLine_eq_of_heading hlead hkind
  rw [hline] at htokens
  have htext : headingText segment = (headingParts line).2 := by
    simp [headingText, Segment.allTokens, htokens]
  rw [htext]
  exact isHeadingText_headingParts hhead

theorem withoutSpace_mathContent {segment : Segment} {index : Nat} {line : Text}
    (htokens : segment.tokens = [Token.ofLine index line])
    (hrole : LineRole.of (Token.ofLine index line) = .mathBlock) :
    withoutSpace ('$' :: mathContent segment ++ ['$']) = withoutSpace line := by
  obtain ⟨before, lead, after, hsplit, hbefore, hafter, hkind, -⟩ :=
    LineRole.of_eq_mathBlock_iff.mp hrole
  -- The formula is the first math token: what comes before it is plain.
  have hfound : segment.allTokens.find? (·.kind == .mathInline) = some lead := by
    have hnone : before.find? (·.kind == .mathInline) = none := by
      rw [List.find?_eq_none]
      intro token hmem hmath
      have hplain := (Bool.and_eq_true_iff.mp (hbefore token hmem)).1
      simp only [Token.isPlain, beq_iff_eq] at hplain hmath
      rw [hplain] at hmath
      cases hmath
    simp [Segment.allTokens, htokens, hsplit, List.find?_append, hnone, hkind]
  have hlead : lead ∈ Token.ofLine index line := by
    rw [hsplit]
    simp
  obtain ⟨body, -, htext⟩ := Token.isMarked_of_mathInline hlead hkind
  have hcontent : mathContent segment = trim body := by
    simp only [mathContent, hfound]
    rw [htext, interior_marked]
  calc withoutSpace ('$' :: mathContent segment ++ ['$'])
      = withoutSpace lead.text := by rw [hcontent, htext, Token.withoutSpace_math]
    _ = withoutSpace (spelling (before ++ lead :: after)) := by
      rw [spelling_append, spelling_cons, withoutSpace_append, withoutSpace_append,
        withoutSpace_spelling_of_isBlank hbefore, withoutSpace_spelling_of_isBlank hafter,
        List.nil_append, List.append_nil]
    _ = withoutSpace line := by rw [← hsplit, Token.spelling_ofLine]

theorem spelling_flatten (tokens : List (List Token)) :
    spelling tokens.flatten = (tokens.map spelling).flatten := by
  induction tokens with
  | nil => rfl
  | cons line rest ih =>
      rw [List.flatten_cons, spelling_append, ih, List.map_cons, List.flatten_cons]

/-- The nodes of a paragraph show the text of its lines. -/
theorem withoutSpace_children {source : Text} {tokens : List (List Token)} {start count : Nat}
    (h : tokens = ((Token.ofSource source).drop start).take count) :
    withoutSpace ((inlineNodes tokens).flatMap InlineNode.markup) =
      withoutSpace ((source.lines.drop start).take count).flatten := by
  have htoken : ∀ token ∈ tokens.flatten,
      withoutSpace (InlineNode.ofToken token).markup = withoutSpace token.text := by
    intro token hmem
    obtain ⟨line, hline, htoken⟩ := List.mem_flatten.mp hmem
    rw [h] at hline
    obtain ⟨i, hi⟩ := List.getElem?_of_mem (List.mem_of_mem_drop (List.mem_of_mem_take hline))
    obtain ⟨text, -, rfl⟩ := Token.getElem?_ofSource hi
    exact Token.withoutSpace_markup_ofToken htoken
  have hlines : tokens.map spelling = (source.lines.drop start).take count := by
    rw [h, List.map_take, List.map_drop, Token.map_spelling_ofSource]
  calc withoutSpace ((inlineNodes tokens).flatMap InlineNode.markup)
      = tokens.flatten.flatMap fun token => withoutSpace token.text := by
        rw [withoutSpace_inlineNodes]
        exact List.flatMap_congr htoken
    _ = withoutSpace (spelling tokens.flatten) := (List.filter_flatMap ..).symm
    _ = withoutSpace (tokens.map spelling).flatten := by rw [spelling_flatten]
    _ = withoutSpace ((source.lines.drop start).take count).flatten := by rw [hlines]

/-- The node of a block stands for the lines of the block and shows their text. -/
theorem shows_of_renderBlock {source : Text} {block : Block} {node : DisplayNode}
    (hfits : block.toSegment.Fits (Token.ofSource source))
    (h : renderBlock block = .ok (some node)) :
    node.Shows source ∧ node.sourceLines = block.lines := by
  obtain ⟨tokens, htokens, hrole⟩ := hfits.opened
  obtain ⟨line, hline, rfl⟩ := Token.getElem?_ofSource htokens
  unfold renderBlock at h
  simp only at h
  split at h
  · cases h
  · rename_i level hkind
    cases h
    have hsingle := hfits.single (by simp [hkind]) (by simp [hkind])
    have htext := headingText_of_role (hfits.tokens_single hsingle htokens)
      (LineRole.eq_of_kind? (hrole.trans (congrArg some hkind)) (by simp [LineRole.kind?]))
    exact ⟨⟨line, hline, htext⟩, by rw [DisplayNode.sourceLines, ← hsingle]⟩
  · rename_i hkind
    cases h
    have hsingle := hfits.single (by simp [hkind]) (by simp [hkind])
    have hcontent := withoutSpace_mathContent (hfits.tokens_single hsingle htokens)
      (LineRole.eq_of_kind? (hrole.trans (congrArg some hkind)) (by simp [LineRole.kind?]))
    exact ⟨⟨line, hline, hcontent⟩, by rw [DisplayNode.sourceLines, ← hsingle]⟩
  · split at h
    · cases h
    · cases h
      exact ⟨withoutSpace_children hfits.tokens_eq, rfl⟩

/-! ## The nodes of a document -/

theorem eq_none_iff_of_renderBlock {block : Block} {node : Option DisplayNode}
    (h : renderBlock block = .ok node) : node = none ↔ block.kind = .directive := by
  unfold renderBlock at h
  simp only at h
  split at h
  · cases h
    simp_all
  · cases h
    simp_all
  · cases h
    simp_all
  · split at h <;> cases h
    simp_all

/-- Each block but the directives gives one node, in order. -/
theorem forall₂_renderBlocks {blocks : List Block} {nodes : List DisplayNode}
    (h : renderBlocks blocks = .ok nodes) :
    List.Forall₂ (fun block node => renderBlock block = .ok (some node))
      (blocks.filter (·.kind ≠ .directive)) nodes := by
  induction blocks generalizing nodes with
  | nil =>
      cases h
      exact .nil
  | cons block rest ih =>
      rw [renderBlocks] at h
      split at h
      · cases h
      · rename_i node hnode
        cases hrest : renderBlocks rest with
        | error error => simp [hrest, Except.map] at h
        | ok others =>
            simp only [hrest, Except.map, Except.ok.injEq] at h
            subst h
            have hkind := eq_none_iff_of_renderBlock hnode
            cases node with
            | none =>
                rw [List.filter_cons_of_neg (by simpa using hkind)]
                exact ih hrest
            | some node =>
                rw [List.filter_cons_of_pos (by simpa using hkind)]
                exact .cons hnode (ih hrest)

theorem renderBlocks_of_compileText {base : Style} {source : Text} {result : Compilation}
    (hblank : source.isBlank = false) (h : compileText base source = .ok result) :
    renderBlocks (classify base (Token.ofSource source)).blocks = .ok result.tree.nodes := by
  simp only [compileText, hblank, Bool.false_eq_true, if_false, compileTokens, render] at h
  cases hnodes : renderBlocks (classify base (Token.ofSource source)).blocks with
  | error error => simp [hnodes, Except.map] at h
  | ok nodes =>
      simp only [hnodes, Except.map, Except.ok.injEq] at h
      rw [← h]
      rfl

/-- The nodes of a document, one for each block but the directives: each shows the
text of its block and stands for the same lines. -/
theorem forall₂_shows_of_compileText {base : Style} {source : Text} {result : Compilation}
    (hblank : source.isBlank = false) (h : compileText base source = .ok result) :
    List.Forall₂ (fun block node => node.Shows source ∧ node.sourceLines = block.lines)
      ((classify base (Token.ofSource source)).blocks.filter (·.kind ≠ .directive))
      result.tree.nodes := by
  have hfits : ∀ block ∈ (classify base (Token.ofSource source)).blocks.filter
      (·.kind ≠ .directive), block.toSegment.Fits (Token.ofSource source) :=
    fun block hmem => fits_of_mem_blocks (List.mem_of_mem_filter hmem)
  have hrendered := forall₂_renderBlocks (renderBlocks_of_compileText hblank h)
  exact ((List.forall₂_and_left ..).mpr ⟨hfits, hrendered⟩).imp
    fun block node hboth => shows_of_renderBlock hboth.1 hboth.2

/-- The nodes stand for the lines of the blocks that are no directives. -/
theorem map_sourceLines_of_compileText {base : Style} {source : Text} {result : Compilation}
    (hblank : source.isBlank = false) (h : compileText base source = .ok result) :
    ((classify base (Token.ofSource source)).blocks.filter (·.kind ≠ .directive)).map (·.lines) =
      result.tree.nodes.map (·.sourceLines) := by
  rw [← List.forall₂_eq_eq_eq, List.forall₂_map_left_iff, List.forall₂_map_right_iff]
  exact (forall₂_shows_of_compileText hblank h).imp fun _ _ hboth => hboth.2.symm

theorem shows_of_mem_nodes {base : Style} {source : Text} {result : Compilation}
    (hblank : source.isBlank = false) (h : compileText base source = .ok result)
    {node : DisplayNode} (hmem : node ∈ result.tree.nodes) : node.Shows source := by
  obtain ⟨i, hi, rfl⟩ := List.getElem_of_mem hmem
  have hshown := forall₂_shows_of_compileText hblank h
  exact (hshown.get (hshown.length_eq ▸ hi) hi).1

/-- A source that compiles is shown completely, once and in order, but for its
directives: every other line that is not blank belongs to one node, and every node
shows the text of its lines. -/
theorem compileText_showsAll {base : Style} {source : Text} {result : Compilation}
    (hblank : source.isBlank = false) (h : compileText base source = .ok result) :
    ShowsAll source (classify base (Token.ofSource source)).blocks result.tree.nodes := by
  have hlines := map_sourceLines_of_compileText hblank h
  have hordered : result.tree.nodes.Pairwise
      fun a b => a.sourceLines.stop ≤ b.sourceLines.start := by
    have hblocks := (pairwise_blocks base source).filter (·.kind ≠ .directive)
    rw [← List.pairwise_map (f := DisplayNode.sourceLines)
      (R := fun a b : LineRange => a.stop ≤ b.start), ← hlines, List.pairwise_map]
    exact hblocks
  refine
    { inside := fun node hmem => ?_
      ordered := hordered
      once := fun i line hline hvisible houtside => ?_
      shows := fun node hmem => shows_of_mem_nodes hblank h hmem }
  · have hrange : node.sourceLines ∈ result.tree.nodes.map (·.sourceLines) :=
      List.mem_map_of_mem hmem
    rw [← hlines] at hrange
    obtain ⟨block, hblock, heq⟩ := List.mem_map.mp hrange
    have hfits := fits_of_mem_blocks (List.mem_of_mem_filter hblock)
    have hstop := hfits.stop_le
    rw [← Token.map_spelling_ofSource, List.length_map, ← heq]
    exact ⟨hfits.start_lt_stop, hstop⟩
  · refine LineRange.countP_covers_eq_one hordered ?_
    -- The block of the line is no directive, so one of the nodes stands for its lines.
    obtain ⟨block, hblock, hcovers⟩ := exists_block_covers base hline hvisible
    have hkind : block.kind ≠ .directive := fun hkind => houtside block hblock hkind hcovers
    have hrange : block.lines ∈ ((classify base (Token.ofSource source)).blocks.filter
        (·.kind ≠ .directive)).map (·.lines) :=
      List.mem_map_of_mem (List.mem_filter.mpr ⟨hblock, decide_eq_true hkind⟩)
    rw [hlines] at hrange
    obtain ⟨node, hnode, heq⟩ := List.mem_map.mp hrange
    exact ⟨node, hnode, heq ▸ hcovers⟩

/-- A heading, a paragraph of two lines, a formula and a directive, which is not
shown. -/
theorem compileText_showsAll_sample :
    let source : Text := "= T\n\na *b*\nc _d_\n $ x $\n#set text(size: 14pt)".toList
    source.isBlank = false ∧
      ∃ result, compileText .standard source = .ok result ∧
        result.tree.nodes.map (·.sourceLines) = [⟨0, 1⟩, ⟨2, 4⟩, ⟨4, 5⟩] ∧
        ShowsAll source (classify .standard (Token.ofSource source)).blocks
          result.tree.nodes := by
  intro source
  have hblank : source.isBlank = false := by decide +kernel
  have hok : (compileText .standard source).toOption.map
      (·.tree.nodes.map (·.sourceLines)) = some [⟨0, 1⟩, ⟨2, 4⟩, ⟨4, 5⟩] := by
    decide +kernel
  cases h : compileText .standard source with
  | error error => simp [h, Except.toOption] at hok
  | ok result =>
      rw [h] at hok
      exact ⟨hblank, result, rfl, Option.some.inj hok, compileText_showsAll hblank h⟩

end MarkupPreview
