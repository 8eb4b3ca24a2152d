import MarkupPreview.Proofs.DocumentParts

/-!
# Blocks in a single pass

The blocks of a document are found here by cutting it into segments, and the styles are
put on them afterwards. A reader that goes over the lines once comes to the same blocks. It
holds the blocks that are complete, the paragraph that is open, if one is, and the style in
effect. A paragraph gets its style with its first line, however many lines are still to
come, and the style changes where a directive is read.

`BlockDraft.behind` says what the reader will come to from any state on, in terms of the
segments of the lines that are left: an open paragraph takes the content lines in front,
and what follows starts in the style in effect.

## Main results

* `BlockDraft.read_eq_behind` — what the reader comes to from any state on.
* `BlockDraft.read_empty` — from the start it comes to the blocks of the document.
-/

namespace MarkupPreview

/-- The block with more lines at its end. -/
def Block.extend (block : Block) (lines : List (List Token)) : Block :=
  { block with
    lines := ⟨block.lines.start, block.lines.stop + lines.length⟩
    tokens := block.tokens ++ lines }

theorem Block.extend_extend (block : Block) (front back : List (List Token)) :
    (block.extend front).extend back = block.extend (front ++ back) := by
  simp [Block.extend, Nat.add_assoc]

theorem Segment.setRule?_of_ne_directive {segment : Segment} {line : List Token}
    {continued : List (List Token)} (htokens : segment.tokens = line :: continued)
    (hrole : (LineRole.of line).kind? ≠ some .directive) : segment.setRule? = none := by
  simp only [setRule?, htokens]
  split
  · rename_i hof
    rw [hof] at hrole
    exact absurd rfl hrole
  · rfl

/-- Blocks under way. -/
structure BlockDraft where
  /-- The blocks that are complete, in order. -/
  complete : List Block
  /-- The paragraph that the next line may belong to. -/
  paragraph : Option Block
  /-- The style in effect. -/
  style : Style

namespace BlockDraft

/-- Before the first line. -/
def empty (base : Style) : BlockDraft := ⟨[], none, base⟩

/-- The open paragraph is complete. -/
def close (draft : BlockDraft) : BlockDraft :=
  ⟨draft.complete ++ draft.paragraph.toList, none, draft.style⟩

/-- A segment that is no paragraph ends the open one, and may change the style. -/
def push (draft : BlockDraft) (segment : Segment) : BlockDraft :=
  ⟨draft.close.complete ++ [{ segment with style := draft.style }], none,
    segment.effect draft.style⟩

/-- A line of content belongs to the open paragraph, or opens one. -/
def addLine (draft : BlockDraft) (index : Nat) (line : List Token) : BlockDraft :=
  { draft with
    paragraph := some (match draft.paragraph with
      | some block => block.extend [line]
      | none => ⟨⟨.paragraph, ⟨index, index + 1⟩, [line]⟩, draft.style⟩) }

/-- Reads lines that are numbered from `index` on. -/
def read (draft : BlockDraft) (index : Nat) (lines : List (List Token)) : Classification :=
  match lines with
  | [] => ⟨draft.close.complete, draft.style⟩
  | line :: following =>
      match (LineRole.of line).kind? with
      | none => read draft.close (index + 1) following
      | some .paragraph => read (draft.addLine index line) (index + 1) following
      | some kind =>
          let more := (LineRole.of line).extent following
          read (draft.push ⟨kind, ⟨index, index + 1 + more⟩, line :: following.take more⟩)
            (index + 1 + more) (following.drop more)
termination_by lines.length
decreasing_by
  · simp
  · simp
  · simp only [List.length_drop, List.length_cons]
    omega

/-- The blocks of the lines that are left, behind those that are there. The content in front
belongs to the open paragraph. -/
def behind (draft : BlockDraft) (index : Nat) (lines : List (List Token)) : Classification :=
  let taken :=
    if draft.paragraph.isSome then (lines.takeWhile LineRole.isContent).length else 0
  let others := styled draft.style (segmentsFrom (index + taken) (lines.drop taken))
  ⟨draft.complete ++ (draft.paragraph.map (·.extend (lines.take taken))).toList ++ others.blocks,
    others.style⟩

theorem behind_of_closed {draft : BlockDraft} (h : draft.paragraph = none) (index : Nat)
    (lines : List (List Token)) :
    draft.behind index lines =
      ⟨draft.complete ++ (styled draft.style (segmentsFrom index lines)).blocks,
        (styled draft.style (segmentsFrom index lines)).style⟩ := by
  simp [behind, h]

theorem behind_of_open {draft : BlockDraft} {block : Block} (h : draft.paragraph = some block)
    (index : Nat) (lines : List (List Token)) :
    let taken := (lines.takeWhile LineRole.isContent).length
    let others := styled draft.style (segmentsFrom (index + taken) (lines.drop taken))
    draft.behind index lines =
      ⟨draft.complete ++ block.extend (lines.take taken) :: others.blocks, others.style⟩ := by
  simp [behind, h]

/-- A line that is no content ends the open paragraph. -/
theorem behind_close (draft : BlockDraft) {index : Nat} {lines : List (List Token)}
    (h : ∀ line ∈ lines.head?, LineRole.isContent line = false) :
    draft.behind index lines =
      ⟨draft.close.complete ++ (styled draft.style (segmentsFrom index lines)).blocks,
        (styled draft.style (segmentsFrom index lines)).style⟩ := by
  have htaken : lines.takeWhile LineRole.isContent = [] := by
    cases lines with
    | nil => rfl
    | cons line following => simp [h line rfl]
  cases hparagraph : draft.paragraph <;>
    simp [behind, close, hparagraph, htaken, Block.extend]

/-- What is left is the same before and behind a line of content. -/
theorem behind_addLine (draft : BlockDraft) (index : Nat) {line : List Token}
    (hline : LineRole.of line = .content) (following : List (List Token)) :
    (draft.addLine index line).behind (index + 1) following =
      draft.behind index (line :: following) := by
  have hkind : (LineRole.of line).kind? = some .paragraph := by rw [hline]; rfl
  have hextent : (LineRole.of line).extent following =
      (following.takeWhile LineRole.isContent).length := by rw [hline]; rfl
  have hlength : (following.take (following.takeWhile LineRole.isContent).length).length =
      (following.takeWhile LineRole.isContent).length :=
    List.length_take_of_le (List.takeWhile_prefix _).length_le
  cases hparagraph : draft.paragraph with
  | none =>
      -- The line opens a paragraph. Read as a segment it takes the same lines, and it has no
      -- effect, so the style behind it is the one that it was opened in.
      have hadded : (draft.addLine index line).paragraph =
          some ⟨⟨.paragraph, ⟨index, index + 1⟩, [line]⟩, draft.style⟩ := by
        simp [addLine, hparagraph]
      have heffect (lines : LineRange) (continued : List (List Token)) :
          (⟨.paragraph, lines, line :: continued⟩ : Segment).effect draft.style = draft.style := by
        rw [Segment.effect, Segment.setRule?_of_ne_directive rfl (by simp [hkind])]
      rw [behind_of_open hadded, behind_of_closed hparagraph, segmentsFrom_of_kind? hkind,
        hextent]
      simp only [styled, heffect, Block.extend, hlength]
      rfl
  | some block =>
      have hadded : (draft.addLine index line).paragraph = some (block.extend [line]) := by
        simp [addLine, hparagraph]
      have htaken : (line :: following).takeWhile LineRole.isContent =
          line :: following.takeWhile LineRole.isContent :=
        List.takeWhile_cons_of_pos (LineRole.isContent_iff.mpr hline)
      rw [behind_of_open hadded, behind_of_open hparagraph, Block.extend_extend, htaken]
      simp only [List.length_cons, List.take_succ_cons, List.drop_succ_cons, Nat.add_assoc,
        Nat.add_comm 1]
      rfl

/-- What the reader comes to from any state on. -/
theorem read_eq_behind (draft : BlockDraft) (index : Nat) (lines : List (List Token)) :
    draft.read index lines = draft.behind index lines := by
  fun_induction read draft index lines with
  | case1 draft index =>
      rw [behind_close draft (by simp), segmentsFrom]
      simp [styled]
  | case2 draft index line following hkind ih =>
      have hblank := LineRole.eq_blank_of_kind? hkind
      have hnot := LineRole.isContent_of_blank hblank
      rw [ih, behind_of_closed rfl, behind_close draft (by simpa using hnot),
        segmentsFrom_of_blank hblank]
      rfl
  | case3 draft index line following hkind ih =>
      rw [ih, behind_addLine draft index (LineRole.eq_of_kind? hkind (by decide))]
  | case4 draft index line following kind hother hkind more ih =>
      have hnot : LineRole.isContent line = false := by
        cases hcontent : LineRole.isContent line with
        | true =>
            rw [LineRole.isContent_iff.mp hcontent] at hkind
            exact absurd (Option.some.inj hkind).symm hother
        | false => rfl
      rw [ih, behind_of_closed rfl, behind_close draft (by simpa using hnot),
        segmentsFrom_of_kind? hkind]
      simp [push, styled, more]

/-- From the start the reader comes to the blocks of the document. -/
theorem read_empty (base : Style) (lines : List (List Token)) :
    (empty base).read 0 lines = classify base lines := by
  rw [read_eq_behind, behind_of_closed rfl]
  rfl

end BlockDraft

end MarkupPreview
