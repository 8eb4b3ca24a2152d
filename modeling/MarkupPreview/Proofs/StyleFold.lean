import MarkupPreview.Proofs.SinglePass

/-!
# The style of a block

The style at a place of a document is what the directives before it have made of the base
style, one after the other, and nothing else. It can be found from the blocks alone: a
block that is no directive leaves the style alone, and what a directive does to it is
said by its own tokens (`Block.directiveEffect`).

So no change of style reaches back, and the style of a block does not hang on anything
behind it.

## Main results

* `effect_of_opened` — of the blocks only directives have an effect, and it is that of the
  rule that their tokens state.
* `style_eq_styleAfter` — the style of each block and the final style, from the directives
  before them.
-/

namespace MarkupPreview

/-! ## What the tokens of a directive state -/

namespace Block

/-- The set rule that the tokens of a block state. The first token that is not blank has to
be the keyword; the tokens behind it and the lines behind them, without comments and with
a line feed between two lines, have to read as a rule. -/
def statedRule? (block : Block) : Option SetRule :=
  match block.tokens with
  | [] => none
  | first :: continued =>
      match first.dropWhile Token.isBlank with
      | [] => none
      | lead :: behind =>
          if lead.text = setKeyword then
            (SetRule.parse (Text.joinLines ((behind :: continued).map withoutComments))).toOption
          else none

/-- What a directive does to a style: it applies the rule that it states, if it states
one. -/
def directiveEffect (block : Block) (style : Style) : Style :=
  match block.statedRule? with
  | some rule => rule.apply style
  | none => style

end Block

/-- The style behind some blocks: the effects of the directives among them, applied in
order. -/
def styleAfter (base : Style) (blocks : List Block) : Style :=
  (blocks.filter (·.kind = .directive)).foldl (fun style block => block.directiveEffect style) base

/-! ## The effect of a block -/

/-- The first line of a segment opens a segment of its kind. -/
def Segment.Opened (segment : Segment) : Prop :=
  ∃ line continued, segment.tokens = line :: continued ∧
    (LineRole.of line).kind? = some segment.kind

theorem opened_of_mem_blocks {base : Style} {lines : List (List Token)} {block : Block}
    (h : block ∈ (classify base lines).blocks) : block.toSegment.Opened := by
  obtain ⟨line, following, -, hkind, -, htokens⟩ := exists_extent_of_mem (toSegment_mem_segments h)
  exact ⟨line, _, htokens, hkind⟩

/-- The keyword of a directive is its lead, and the arguments are what comes behind. -/
theorem LineRole.dropWhile_of_directive {tokens arguments : List Token} {keyword : Text}
    (h : of tokens = .directive keyword arguments) :
    ∃ lead, tokens.dropWhile Token.isBlank = lead :: arguments ∧ lead.text = keyword := by
  obtain ⟨before, lead, rfl, hbefore, hkind, htext, -⟩ := of_eq_directive_iff.mp h
  exact ⟨lead, dropWhile_lead hbefore (not_isBlank_of_kind (by simp [hkind])), htext⟩

theorem setRule?_of_opened {block : Block} (h : block.toSegment.Opened) :
    block.setRule? = if block.kind = .directive then block.statedRule? else none := by
  obtain ⟨line, continued, htokens, hrole⟩ := h
  by_cases hkind : block.kind = .directive
  · rw [hkind] at hrole
    cases hof : LineRole.of line with
    | directive keyword arguments =>
        obtain ⟨lead, hdrop, rfl⟩ := LineRole.dropWhile_of_directive hof
        rw [if_pos hkind, Segment.setRule?_of_directive htokens hof]
        simp only [Block.statedRule?, htokens, hdrop]
        rfl
    | _ =>
        rw [hof] at hrole
        cases hrole
  · rw [if_neg hkind, Segment.setRule?_of_ne_directive htokens]
    rw [hrole]
    exact fun h => hkind (Option.some.inj h)

/-- Only directives have an effect, and it is that of the rule that they state. -/
theorem effect_of_opened {block : Block} (h : block.toSegment.Opened) (style : Style) :
    block.effect style =
      if block.kind = .directive then block.directiveEffect style else style := by
  rw [Segment.effect, setRule?_of_opened h]
  by_cases hkind : block.kind = .directive
  · rw [if_pos hkind, if_pos hkind]
    rfl
  · rw [if_neg hkind, if_neg hkind]

/-! ## The style of a place -/

theorem foldl_effect_eq_styleAfter {blocks : List Block}
    (h : ∀ block ∈ blocks, block.toSegment.Opened) (base : Style) :
    (blocks.map Block.toSegment).foldl (fun style segment => segment.effect style) base =
      styleAfter base blocks := by
  induction blocks generalizing base with
  | nil => rfl
  | cons block rest ih =>
      obtain ⟨hblock, hrest⟩ := List.forall_mem_cons.mp h
      rw [List.map_cons, List.foldl_cons, ih hrest, effect_of_opened hblock]
      by_cases hkind : block.kind = .directive
      · rw [if_pos hkind, styleAfter, styleAfter, List.filter_cons_of_pos (by simpa using hkind),
          List.foldl_cons]
      · rw [if_neg hkind, styleAfter, styleAfter, List.filter_cons_of_neg (by simpa using hkind)]

theorem style_of_getElem?_styled {base : Style} {found : List Segment} {k : Nat} {block : Block}
    (h : (styled base found).blocks[k]? = some block) :
    block.style = (found.take k).foldl (fun style segment => segment.effect style) base := by
  induction found generalizing base k with
  | nil => cases h
  | cons segment rest ih =>
      cases k with
      | zero =>
          cases h
          rfl
      | succ k => exact ih h

/-- Every block of a document has the style that the directives before it make of the base
style, applied in order, and behind the document it is what all of them make of it. The
blocks and the style are those that a reader comes to who goes over the lines once and
gives a paragraph its style with its first line. -/
theorem style_eq_styleAfter (base : Style) (lines : List (List Token)) :
    (∀ (k : Nat) block, (classify base lines).blocks[k]? = some block →
        block.style = styleAfter base ((classify base lines).blocks.take k)) ∧
      (classify base lines).style = styleAfter base (classify base lines).blocks ∧
      (BlockDraft.empty base).read 0 lines = classify base lines := by
  have hopened : ∀ block ∈ (classify base lines).blocks, block.toSegment.Opened :=
    fun block hmem => opened_of_mem_blocks hmem
  refine ⟨?_, ?_, BlockDraft.read_empty base lines⟩
  · intro k block hblock
    rw [style_of_getElem?_styled hblock, ← classify_blocks_segments base, ← List.map_take,
      foldl_effect_eq_styleAfter fun block hmem => hopened block (List.mem_of_mem_take hmem)]
  · rw [classify_style, ← classify_blocks_segments base, foldl_effect_eq_styleAfter hopened]

end MarkupPreview
