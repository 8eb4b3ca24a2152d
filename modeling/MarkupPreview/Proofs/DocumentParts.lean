import MarkupPreview.Proofs.BlockCover
import MarkupPreview.Proofs.BracketBalance

/-!
# Documents put together from parts

Two documents, one behind the other, have the blocks of the first and then those of the
second, and the style goes from the one into the other. Two things can keep them from it.
A paragraph at the end of the first goes on with the content that follows. And a directive
looks for the line that closes its groups as far as the end of the document, so lines
behind the first document can make a directive in it longer.

Both are a matter of how far a line goes on. `ExtentsStay` says that for no line that is
reached in a document this hangs on the lines behind it; then the segments of the whole
are those of the parts (`segments_append`). The law for parts that are divided by a blank
line follows, and so does the one for a document with blank lines behind it.

## Main results

* `segments_append` — the segments of a document and of the lines behind it.
* `classify_append` — the blocks of a document that ends in a blank line and closes its
  directives, and of any document behind it.
-/

namespace MarkupPreview

/-! ## Blocks further down -/

/-- The range as many lines further down. -/
def LineRange.shift (count : Nat) (range : LineRange) : LineRange :=
  ⟨range.start + count, range.stop + count⟩

/-- The segment with its lines further down. -/
def Segment.shift (count : Nat) (segment : Segment) : Segment :=
  { segment with lines := segment.lines.shift count }

/-- The block with its lines further down. -/
def Block.shift (count : Nat) (block : Block) : Block :=
  { block with lines := block.lines.shift count }

/-- A line that is not blank opens a segment, and the others lie behind its end. -/
theorem segmentsFrom_of_kind? {line : List Token} {kind : BlockKind}
    (h : (LineRole.of line).kind? = some kind) (index : Nat) (following : List (List Token)) :
    segmentsFrom index (line :: following) =
      ⟨kind, ⟨index, index + 1 + (LineRole.of line).extent following⟩,
          line :: following.take ((LineRole.of line).extent following)⟩ ::
        segmentsFrom (index + 1 + (LineRole.of line).extent following)
          (following.drop ((LineRole.of line).extent following)) := by
  rw [segmentsFrom]
  simp only [h]

theorem segmentsFrom_of_blank {line : List Token} (h : LineRole.of line = .blank) (index : Nat)
    (following : List (List Token)) :
    segmentsFrom index (line :: following) = segmentsFrom (index + 1) following := by
  rw [segmentsFrom]
  simp only [h, LineRole.kind?, LineRole.extent, Nat.add_zero, List.drop_zero]

theorem LineRole.eq_blank_of_kind? {role : LineRole} (h : role.kind? = none) : role = .blank :=
  eq_of_kind? h (by decide)

theorem LineRole.isContent_of_blank {line : List Token} (h : of line = .blank) :
    isContent line = false := by
  rw [isContent, h]
  rfl

theorem segmentsFrom_add (count index : Nat) (lines : List (List Token)) :
    segmentsFrom (index + count) lines = (segmentsFrom index lines).map (Segment.shift count) := by
  fun_induction segmentsFrom index lines with
  | case1 index => rw [segmentsFrom, List.map_nil]
  | case2 index line following more others kind hkind ih =>
      have hnext : index + count + 1 + more = index + 1 + more + count := by omega
      rw [segmentsFrom_of_kind? hkind, List.map_cons, ← ih, Segment.shift, LineRange.shift, ← hnext]
  | case3 index line following more others hkind ih =>
      have hblank := LineRole.eq_blank_of_kind? hkind
      have hmore : more = 0 := by simp only [more, hblank, LineRole.extent]
      have hnext : index + count + 1 = index + 1 + more + count := by omega
      rw [segmentsFrom_of_blank hblank, hnext, ← ih, hmore, List.drop_zero]

/-! ## Lines behind a document -/

/-- How far a line goes on that a document reaches does not hang on the lines behind the
document. -/
def ExtentsStay (lines behind : List (List Token)) : Prop :=
  ∀ segment ∈ segments lines, ∀ line following,
    lines.drop segment.lines.start = line :: following →
      (LineRole.of line).extent (following ++ behind) = (LineRole.of line).extent following

theorem segmentsFrom_append {lines behind : List (List Token)} {index : Nat}
    (hle : index ≤ lines.length)
    (h : ∀ segment ∈ segmentsFrom index (lines.drop index), ∀ line following,
      lines.drop segment.lines.start = line :: following →
        (LineRole.of line).extent (following ++ behind) = (LineRole.of line).extent following) :
    segmentsFrom index (lines.drop index ++ behind) =
      segmentsFrom index (lines.drop index) ++ segmentsFrom lines.length behind := by
  generalize hdrop : lines.drop index = rest at h ⊢
  fun_induction segmentsFrom index rest with
  | case1 index =>
      have hend := List.drop_eq_nil_iff.mp hdrop
      rw [Nat.le_antisymm hle hend]
      rfl
  | case2 index line following more others kind hkind ih =>
      have hstay := h _ List.mem_cons_self line following hdrop
      have hmore := LineRole.extent_le (LineRole.of line) following
      have hlength : following.length + 1 = lines.length - index := by
        rw [← List.length_drop, hdrop, List.length_cons]
      rw [List.cons_append, segmentsFrom_of_kind? hkind, hstay,
        List.take_append_of_le_length hmore, List.drop_append_of_le_length hmore]
      have hothers := ih (by omega) (drop_behind hdrop more) fun segment hmem =>
        h segment (List.mem_cons_of_mem _ hmem)
      rw [hothers]
      rfl
  | case3 index line following more others hkind ih =>
      have hblank := LineRole.eq_blank_of_kind? hkind
      have hlength : following.length + 1 = lines.length - index := by
        rw [← List.length_drop, hdrop, List.length_cons]
      have hmore : more = 0 := by simp only [more, hblank, LineRole.extent]
      have hrest : lines.drop (index + 1) = following := drop_behind hdrop 0
      simp only [hmore, Nat.add_zero, List.drop_zero, others] at ih h ⊢
      rw [List.cons_append, segmentsFrom_of_blank hblank]
      exact ih (by omega) hrest h

theorem segments_append {lines behind : List (List Token)} (h : ExtentsStay lines behind) :
    segments (lines ++ behind) =
      segments lines ++ (segments behind).map (Segment.shift lines.length) := by
  have happend := segmentsFrom_append (Nat.zero_le lines.length) h
  rw [List.drop_zero] at happend
  rw [segments, happend, segments, segments, ← segmentsFrom_add, Nat.zero_add]

/-! ## Parts divided by a blank line -/

/-- A directive leaves no group open on its first line, or its groups are closed by lines
that follow. -/
def LineRole.Closes (following : List (List Token)) : LineRole → Prop
  | directive _ arguments =>
      ∃ k ≤ following.length, lineBalance arguments + linesBalance (following.take k) ≤ 0
  | _ => True

/-- Every directive that a document reaches closes its groups in the document. -/
def DirectivesClose (lines : List (List Token)) : Prop :=
  ∀ segment ∈ segments lines, ∀ line ∈ lines[segment.lines.start]?,
    (LineRole.of line).Closes (lines.drop (segment.lines.start + 1))

instance (following : List (List Token)) : DecidablePred (LineRole.Closes following)
  | .directive _ arguments =>
      inferInstanceAs (Decidable
        (∃ k ≤ following.length, lineBalance arguments + linesBalance (following.take k) ≤ 0))
  | .blank | .heading _ | .mathBlock | .content => .isTrue trivial

instance : DecidablePred DirectivesClose := fun lines =>
  inferInstanceAs (Decidable (∀ segment ∈ segments lines, ∀ line ∈ lines[segment.lines.start]?,
    (LineRole.of line).Closes (lines.drop (segment.lines.start + 1))))

/-- The lines that follow close the groups if the balance comes down to zero on them. -/
theorem exists_linesToClose? {depth : Int} {lines : List (List Token)} {k : Nat}
    (hopen : 0 < depth) (hk : k ≤ lines.length) (h : depth + linesBalance (lines.take k) ≤ 0) :
    ∃ count, linesToClose? depth lines = some count := by
  induction lines generalizing depth k with
  | nil =>
      rw [List.take_nil, linesBalance_nil] at h
      omega
  | cons line rest ih =>
      rw [linesToClose?]
      by_cases hclosed : depth + lineBalance line ≤ 0
      · exact ⟨1, if_pos hclosed⟩
      · cases k with
        | zero =>
            rw [List.take_zero, linesBalance_nil] at h
            omega
        | succ k =>
            rw [List.take_succ_cons, linesBalance_cons, ← Int.add_assoc] at h
            obtain ⟨count, hcount⟩ := ih (by omega) (Nat.le_of_succ_le_succ hk) h
            exact ⟨count + 1, by rw [if_neg hclosed, hcount]; rfl⟩

theorem linesToClose?_append {depth : Int} {lines : List (List Token)} {count : Nat}
    (h : linesToClose? depth lines = some count) (behind : List (List Token)) :
    linesToClose? depth (lines ++ behind) = some count := by
  induction lines generalizing depth count with
  | nil => cases h
  | cons line rest ih =>
      rw [List.cons_append, linesToClose?]
      rw [linesToClose?] at h
      by_cases hclosed : depth + lineBalance line ≤ 0
      · rwa [if_pos hclosed] at h ⊢
      · rw [if_neg hclosed, Option.map_eq_some_iff] at h
        obtain ⟨others, hothers, rfl⟩ := h
        rw [if_neg hclosed, ih hothers]
        rfl

/-- A directive that closes its groups does not look further. -/
theorem continuation_append {arguments : List Token} {following : List (List Token)} {k : Nat}
    (hk : k ≤ following.length) (h : lineBalance arguments + linesBalance (following.take k) ≤ 0)
    (behind : List (List Token)) :
    continuation arguments (following ++ behind) = continuation arguments following := by
  unfold continuation
  by_cases hclosed : lineBalance arguments ≤ 0
  · rw [if_pos hclosed, if_pos hclosed]
  · obtain ⟨count, hcount⟩ := exists_linesToClose? (by omega) hk h
    rw [if_neg hclosed, if_neg hclosed, hcount, linesToClose?_append hcount]

/-- A run that ends among some items does not see the items behind them. -/
theorem takeWhile_append_of_neg {α : Type} {p : α → Bool} {items : List α} {item : α}
    (hmem : item ∈ items) (hitem : p item = false) (behind : List α) :
    (items ++ behind).takeWhile p = items.takeWhile p := by
  rw [List.takeWhile_append, if_neg]
  intro hall
  have hself : items.takeWhile p = items := (List.takeWhile_prefix p).eq_of_length hall
  rw [← hself] at hmem
  have hpos := List.all_eq_true.mp List.all_takeWhile item hmem
  rw [hitem] at hpos
  cases hpos

theorem extentsStay_of_blank {lines : List (List Token)}
    (hblank : ∀ last ∈ lines.getLast?, LineRole.of last = .blank) (hclose : DirectivesClose lines)
    (behind : List (List Token)) : ExtentsStay lines behind := by
  intro segment hmem line following hdrop
  cases hrole : LineRole.of line with
  | directive keyword arguments =>
      have hline : lines[segment.lines.start]? = some line := by
        rw [← List.head?_drop, hdrop]
        rfl
      have hfollowing : lines.drop (segment.lines.start + 1) = following := drop_behind hdrop 0
      have hcloses := hclose segment hmem line hline
      rw [hrole, hfollowing] at hcloses
      obtain ⟨k, hk, hbalance⟩ := hcloses
      exact continuation_append hk hbalance behind
  | content =>
      -- The last line is blank, so it stands behind this one and ends the paragraph.
      have hlast : (line :: following).getLast? = lines.getLast? := by
        rw [← hdrop, List.getLast?_drop, if_neg]
        intro hle
        rw [List.drop_eq_nil_iff.mpr hle] at hdrop
        cases hdrop
      have hsome : (line :: following).getLast?.isSome = true :=
        List.getLast?_isSome.mpr (List.cons_ne_nil line following)
      obtain ⟨last, hfound⟩ := Option.isSome_iff_exists.mp hsome
      have hend := hblank last (hlast ▸ hfound)
      have hbehind : last ∈ following := by
        rcases List.mem_cons.mp (List.mem_of_getLast? hfound) with rfl | hbehind
        · rw [hrole] at hend
          cases hend
        · exact hbehind
      exact congrArg List.length
        (takeWhile_append_of_neg hbehind (LineRole.isContent_of_blank hend) behind)
  | _ => rfl

/-! ## Styles -/

/-- The style goes through the segments in front into those behind. -/
theorem styled_append (style : Style) (front back : List Segment) :
    styled style (front ++ back) =
      ⟨(styled style front).blocks ++ (styled (styled style front).style back).blocks,
        (styled (styled style front).style back).style⟩ := by
  induction front generalizing style with
  | nil => rfl
  | cons segment rest ih => simp only [List.cons_append, styled, ih]

/-- Where the lines of a segment lie makes no difference to its style. -/
theorem styled_shift (count : Nat) (style : Style) (found : List Segment) :
    styled style (found.map (Segment.shift count)) =
      ⟨(styled style found).blocks.map (Block.shift count), (styled style found).style⟩ := by
  induction found generalizing style with
  | nil => rfl
  | cons segment rest ih =>
      have heffect : (segment.shift count).effect style = segment.effect style := rfl
      simp only [List.map_cons, styled, heffect, ih]
      rfl

/-- Take a document that is empty or ends in a blank line, and that closes every directive
it reaches. Whatever lines follow, its own blocks stay as they are; the blocks behind them
are those of the following lines alone, classified in the style at its end and moved down
by its lines; and the style at the end is theirs. -/
theorem classify_append {first : List (List Token)}
    (hblank : ∀ last ∈ first.getLast?, LineRole.of last = .blank) (hclose : DirectivesClose first)
    (base : Style) (second : List (List Token)) :
    let upper := classify base first
    let lower := classify upper.style second
    classify base (first ++ second) =
      ⟨upper.blocks ++ lower.blocks.map (Block.shift first.length), lower.style⟩ := by
  have hsegments := segments_append (extentsStay_of_blank hblank hclose second)
  simp only [classify]
  rw [hsegments, styled_append, styled_shift]

/-- A directive of two lines and a paragraph, a blank line, and a paragraph behind it in
the style that the directive has set. -/
theorem classify_append_directive :
    let first := Token.ofSource "#set text(\n size: 2em)\na\n".toList
    let second := Token.ofSource "b".toList
    let upper := classify .standard first
    let lower := classify upper.style second
    (∀ last ∈ first.getLast?, LineRole.of last = .blank) ∧ DirectivesClose first ∧
      upper.blocks.length = 2 ∧
      classify .standard (first ++ second) =
        ⟨upper.blocks ++ lower.blocks.map (Block.shift 4), lower.style⟩ := by
  intro first second upper lower
  have hblank : ∀ last ∈ first.getLast?, LineRole.of last = .blank := by decide +kernel
  have hclose : DirectivesClose first := by decide +kernel
  exact ⟨hblank, hclose, by decide +kernel, classify_append hblank hclose .standard second⟩

end MarkupPreview
