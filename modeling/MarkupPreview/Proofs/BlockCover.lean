import Mathlib.Data.List.Basic
import MarkupPreview.Block.Segment
import MarkupPreview.Proofs.LosslessTokens

/-!
# Blocks cover the document

`Tiles` describes how segments lie on the lines of a document, from a line on: a
blank line between segments is passed over, and a segment starts at the line that
opens it and is followed from its end. That the segments of a document lie so is
shown once, along the recursion that finds them (`tiles_segmentsFrom`); order,
disjointness and cover are then inductions over the tiling.

What one segment has to do with its lines is `Segment.Fits`. It holds the end of a
paragraph too: the line behind it is no content, so two paragraphs can only
follow one another across a blank line.

## Main results

* `tiles_segments` — the segments of a document lie on its lines without an overlap,
  and only blank lines are left out.
* `exists_extent_of_mem` — a segment is the line that opens it and what this line asks for.
* `LineRole.of_ofLine_eq_blank_iff` — a line is blank exactly when its text is.
* `isCover_classify` — the blocks of a source are an ordered, exact cover of it.
-/

namespace MarkupPreview

/-! ## Ranges of lines -/

namespace LineRange

/-- The line with this number is in the range. -/
def Covers (range : LineRange) (i : Nat) : Prop := range.start ≤ i ∧ i < range.stop

instance (range : LineRange) : DecidablePred range.Covers := fun i =>
  inferInstanceAs (Decidable (range.start ≤ i ∧ i < range.stop))

/-- Where ranges follow one another, a line that is covered is covered once. -/
theorem countP_covers_eq_one {α : Type} {range : α → LineRange} {items : List α} {i : Nat}
    (hordered : items.Pairwise fun a b => (range a).stop ≤ (range b).start)
    (hcovered : ∃ item ∈ items, (range item).Covers i) :
    items.countP (fun item => (range item).Covers i) = 1 := by
  induction items with
  | nil =>
      obtain ⟨item, hmem, -⟩ := hcovered
      cases hmem
  | cons first rest ih =>
      obtain ⟨hfirst, hrest⟩ := List.pairwise_cons.mp hordered
      by_cases h : (range first).Covers i
      · -- What follows starts beyond `i`.
        have hnone : rest.countP (fun item => (range item).Covers i) = 0 := by
          rw [List.countP_eq_zero]
          intro item hmem hcovers
          have hbehind := hfirst item hmem
          have hstart := (of_decide_eq_true hcovers).1
          have hstop := h.2
          omega
        rw [List.countP_cons_of_pos (by simpa using h), hnone]
      · obtain ⟨item, hmem, hcovers⟩ := hcovered
        have hitem : item ∈ rest := by
          rcases List.mem_cons.mp hmem with rfl | hmem
          · exact absurd hcovers h
          · exact hmem
        rw [List.countP_cons_of_neg (by simpa using h)]
        exact ih hrest ⟨item, hitem, hcovers⟩

end LineRange

/-! ## Maximal runs -/

section Runs

variable {α : Type} {p : α → Bool} {l : List α} {x : α}

theorem pos_of_lt_length_takeWhile {j : Nat} (hj : j < (l.takeWhile p).length)
    (hx : l[j]? = some x) : p x = true := by
  rw [← List.takeWhile_append_dropWhile (p := p) (l := l), List.getElem?_append_left hj] at hx
  exact List.all_eq_true.mp List.all_takeWhile x (List.mem_of_getElem? hx)

theorem getElem?_length_takeWhile (p : α → Bool) (l : List α) :
    l[(l.takeWhile p).length]? = (l.dropWhile p).head? := by
  induction l with
  | nil => rfl
  | cons c rest ih => cases hc : p c <;> simp [hc, ih]

theorem neg_of_eq_length_takeWhile (hx : l[(l.takeWhile p).length]? = some x) : p x = false := by
  have h := List.head?_dropWhile_not p l
  rw [← getElem?_length_takeWhile, hx] at h
  exact h

end Runs

/-! ## Segments and their lines -/

/-- A segment takes its lines out of a document as its kind asks. -/
structure Segment.Fits (lines : List (List Token)) (segment : Segment) : Prop where
  start_lt_stop : segment.lines.start < segment.lines.stop
  stop_le : segment.lines.stop ≤ lines.length
  tokens_eq : segment.tokens =
    (lines.drop segment.lines.start).take (segment.lines.stop - segment.lines.start)
  opened : ∃ line, lines[segment.lines.start]? = some line ∧
    (LineRole.of line).kind? = some segment.kind
  single : segment.kind ≠ .directive → segment.kind ≠ .paragraph →
    segment.lines.stop = segment.lines.start + 1
  content : segment.kind = .paragraph → ∀ i, segment.lines.Covers i →
    ∀ line, lines[i]? = some line → LineRole.of line = .content
  maximal : segment.kind = .paragraph → ∀ line, lines[segment.lines.stop]? = some line →
    LineRole.of line ≠ .content

/-- Segments that lie on the lines from a line on. Between them there are only
blank lines. -/
inductive Tiles (lines : List (List Token)) : Nat → List Segment → Prop
  | done {index : Nat} (h : lines.length ≤ index) : Tiles lines index []
  | blank {index : Nat} {line : List Token} {segments : List Segment}
      (hline : lines[index]? = some line) (hblank : LineRole.of line = .blank)
      (hrest : Tiles lines (index + 1) segments) : Tiles lines index segments
  | segment {segment : Segment} {segments : List Segment} (hfits : segment.Fits lines)
      (hrest : Tiles lines segment.lines.stop segments) :
      Tiles lines segment.lines.start (segment :: segments)

namespace LineRole

theorem extent_le (role : LineRole) (following : List (List Token)) :
    role.extent following ≤ following.length := by
  unfold extent
  split
  · exact continuation_le ..
  · exact (List.takeWhile_prefix _).length_le
  · exact Nat.zero_le _

/-- The kind of the block that is opened tells the role, but for what a directive
says. -/
theorem eq_of_kind? {a b : LineRole} (h : a.kind? = b.kind?) (hb : b.kind? ≠ some .directive) :
    a = b := by
  cases a <;> cases b <;> simp_all [kind?]

/-- Only directives and paragraphs go on over more than a line. -/
theorem extent_eq_zero {role : LineRole} {kind : BlockKind} (h : role.kind? = some kind)
    (hdirective : kind ≠ .directive) (hparagraph : kind ≠ .paragraph)
    (following : List (List Token)) : role.extent following = 0 := by
  cases role with
  | directive => exact absurd (Option.some.inj h).symm hdirective
  | content => exact absurd (Option.some.inj h).symm hparagraph
  | _ => rfl

theorem isContent_iff {tokens : List Token} : isContent tokens = true ↔ of tokens = .content := by
  simp [isContent]

end LineRole

/-- A segment that is opened at a line, with the lines behind it that belong to
it. -/
theorem fits_of_drop {lines following : List (List Token)} {line : List Token} {index : Nat}
    {kind : BlockKind} (hdrop : lines.drop index = line :: following)
    (hkind : (LineRole.of line).kind? = some kind) :
    Segment.Fits lines ⟨kind, ⟨index, index + 1 + (LineRole.of line).extent following⟩,
      line :: following.take ((LineRole.of line).extent following)⟩ := by
  have hlength : lines.length - index = following.length + 1 := by
    rw [← List.length_drop, hdrop, List.length_cons]
  have hget : ∀ k, lines[index + k]? = (line :: following)[k]? := by
    intro k
    rw [← hdrop, List.getElem?_drop]
  have hextent := LineRole.extent_le (LineRole.of line) following
  refine
    { start_lt_stop := ?_
      stop_le := ?_
      tokens_eq := ?_
      opened := ⟨line, hget 0, hkind⟩
      single := fun hdirective hparagraph => ?_
      content := ?_
      maximal := ?_ }
  · simp only
    omega
  · simp only
    omega
  · have hcount : index + 1 + (LineRole.of line).extent following - index =
        (LineRole.of line).extent following + 1 := by omega
    simp only [hdrop, hcount, List.take_succ_cons]
  · simp only [LineRole.extent_eq_zero hkind hdirective hparagraph, Nat.add_zero]
  · rintro rfl i ⟨hstart, hstop⟩ other hother
    have hrole : LineRole.of line = .content := LineRole.eq_of_kind? hkind (by decide)
    obtain ⟨k, rfl⟩ := Nat.exists_eq_add_of_le hstart
    rw [hget] at hother
    cases k with
    | zero =>
        rw [List.getElem?_cons_zero, Option.some.injEq] at hother
        exact hother ▸ hrole
    | succ k =>
        rw [List.getElem?_cons_succ] at hother
        simp only [hrole, LineRole.extent] at hstop
        exact LineRole.isContent_iff.mp (pos_of_lt_length_takeWhile (by omega) hother)
  · rintro rfl other hother
    have hrole : LineRole.of line = .content := LineRole.eq_of_kind? hkind (by decide)
    rw [Nat.add_assoc, hget, Nat.add_comm 1, List.getElem?_cons_succ, hrole] at hother
    intro hcontent
    have hfalse := neg_of_eq_length_takeWhile hother
    rw [LineRole.isContent_iff.mpr hcontent] at hfalse
    cases hfalse

/-- The only blank lines in a segment are those that a directive goes on over. -/
theorem Segment.Fits.directive_of_blank {lines : List (List Token)} {segment : Segment}
    (h : segment.Fits lines) {i : Nat} (hcovers : segment.lines.Covers i) {line : List Token}
    (hline : lines[i]? = some line) (hblank : LineRole.of line = .blank) :
    segment.kind = .directive ∧ segment.lines.start < i := by
  -- The first line opens the segment, so it is not blank.
  have hlt : segment.lines.start < i := by
    refine Nat.lt_of_le_of_ne hcovers.1 fun heq => ?_
    obtain ⟨opening, hopening, hkind⟩ := h.opened
    rw [heq, hline] at hopening
    cases hopening
    rw [hblank] at hkind
    cases hkind
  refine ⟨?_, hlt⟩
  by_contra hdirective
  by_cases hparagraph : segment.kind = .paragraph
  · have hcontent := h.content hparagraph i hcovers line hline
    rw [hblank] at hcontent
    cases hcontent
  · have hstop := hcovers.2
    have hsingle := h.single hdirective hparagraph
    omega

/-! ## The segments of a document -/

theorem drop_behind {α : Type} {items following : List α} {item : α} {index : Nat}
    (h : items.drop index = item :: following) (more : Nat) :
    items.drop (index + 1 + more) = following.drop more := by
  rw [← List.drop_drop, ← List.drop_drop, h]
  rfl

theorem tiles_segmentsFrom (lines : List (List Token)) (index : Nat) :
    Tiles lines index (segmentsFrom index (lines.drop index)) := by
  generalize hdrop : lines.drop index = rest
  fun_induction segmentsFrom index rest with
  | case1 index => exact .done (List.drop_eq_nil_iff.mp hdrop)
  | case2 index line following more others kind hkind ih =>
      exact .segment (fits_of_drop hdrop hkind) (ih (drop_behind hdrop more))
  | case3 index line following more others hkind ih =>
      have hblank : LineRole.of line = .blank := LineRole.eq_of_kind? hkind (by decide)
      have hmore : more = 0 := by simp [more, hblank, LineRole.extent]
      have hline : lines[index]? = some line := by
        rw [← List.head?_drop, hdrop]
        rfl
      have hrest := ih (drop_behind hdrop more)
      exact .blank hline hblank (by simpa [hmore, others] using hrest)

theorem tiles_segments (lines : List (List Token)) : Tiles lines 0 (segments lines) :=
  tiles_segmentsFrom lines 0

/-- A segment is the line that opens it and the lines behind it that this line asks for. -/
theorem exists_extent_of_mem {lines : List (List Token)} {segment : Segment}
    (h : segment ∈ segments lines) :
    ∃ line following, lines.drop segment.lines.start = line :: following ∧
      (LineRole.of line).kind? = some segment.kind ∧
      segment.lines.stop = segment.lines.start + 1 + (LineRole.of line).extent following ∧
      segment.tokens = line :: following.take ((LineRole.of line).extent following) := by
  rw [segments, ← List.drop_zero (l := lines)] at h
  generalize 0 = index at h
  generalize hdrop : lines.drop index = rest at h
  fun_induction segmentsFrom index rest with
  | case1 => cases h
  | case2 index line following more others kind hkind ih =>
      rcases List.mem_cons.mp h with rfl | h
      · exact ⟨line, following, hdrop, hkind, rfl, rfl⟩
      · exact ih (drop_behind hdrop more) h
  | case3 index line following more others hkind ih => exact ih (drop_behind hdrop more) h

namespace Tiles

variable {lines : List (List Token)} {index : Nat} {found : List Segment}

theorem fits_of_mem (h : Tiles lines index found) {segment : Segment} (hmem : segment ∈ found) :
    segment.Fits lines := by
  induction h with
  | done => cases hmem
  | blank _ _ _ ih => exact ih hmem
  | segment hfits _ ih =>
      rcases List.mem_cons.mp hmem with rfl | hmem
      · exact hfits
      · exact ih hmem

theorem le_start (h : Tiles lines index found) {segment : Segment} (hmem : segment ∈ found) :
    index ≤ segment.lines.start := by
  induction h with
  | done => cases hmem
  | blank _ _ _ ih =>
      have := ih hmem
      omega
  | segment hfits _ ih =>
      rcases List.mem_cons.mp hmem with rfl | hmem
      · exact Nat.le_refl _
      · have hstop := hfits.start_lt_stop
        have := ih hmem
        omega

theorem pairwise (h : Tiles lines index found) :
    found.Pairwise fun a b => a.lines.stop ≤ b.lines.start := by
  induction h with
  | done => exact .nil
  | blank _ _ _ ih => exact ih
  | segment _ hrest ih => exact .cons (fun _ hmem => hrest.le_start hmem) ih

/-- Only blank lines are left out. -/
theorem exists_covers (h : Tiles lines index found) {i : Nat} {line : List Token} (hle : index ≤ i)
    (hline : lines[i]? = some line) (hblank : LineRole.of line ≠ .blank) :
    ∃ segment ∈ found, segment.lines.Covers i := by
  induction h with
  | done hend =>
      rw [List.getElem?_eq_none (by omega)] at hline
      cases hline
  | @blank index passed _ hpassed hrole _ ih =>
      have hne : index ≠ i := by
        rintro rfl
        rw [hpassed] at hline
        cases hline
        exact hblank hrole
      exact ih (by omega)
  | @segment segment _ _ _ ih =>
      by_cases hstop : i < segment.lines.stop
      · exact ⟨segment, List.mem_cons_self .., hle, hstop⟩
      · obtain ⟨other, hmem, hcovers⟩ := ih (by omega)
        exact ⟨other, List.mem_cons_of_mem _ hmem, hcovers⟩

/-- The segments behind one of them lie from its end on. -/
theorem of_append {front back : List Segment} {segment : Segment}
    (h : Tiles lines index (front ++ segment :: back)) : Tiles lines segment.lines.stop back := by
  generalize hfound : front ++ segment :: back = found at h
  induction h generalizing front with
  | done => simp at hfound
  | blank _ _ _ ih => exact ih hfound
  | segment _ hrest ih =>
      cases front with
      | nil =>
          obtain ⟨rfl, rfl⟩ := List.cons.inj hfound
          exact hrest
      | cons first front => exact ih (List.cons.inj hfound).2

/-- A first segment that starts further on has blank lines before it. -/
theorem blank_before {segment : Segment} (h : Tiles lines index (segment :: found))
    (hlt : index < segment.lines.start) :
    ∃ line, lines[index]? = some line ∧ LineRole.of line = .blank := by
  cases h with
  | blank hline hblank _ => exact ⟨_, hline, hblank⟩
  | segment => exact absurd hlt (Nat.lt_irrefl _)

/-- Two paragraphs in a row have a blank line between them. -/
theorem blank_between {front back : List Segment} {a b : Segment}
    (h : Tiles lines index (front ++ a :: b :: back)) (ha : a.kind = .paragraph)
    (hb : b.kind = .paragraph) :
    a.lines.stop < b.lines.start ∧
      ∃ line, lines[a.lines.stop]? = some line ∧ LineRole.of line = .blank := by
  have hbehind := h.of_append
  have hmema : a ∈ front ++ a :: b :: back := by simp
  have hmemb : b ∈ front ++ a :: b :: back := by simp
  have hfirst := h.fits_of_mem hmema
  have hsecond := h.fits_of_mem hmemb
  have hlt : a.lines.stop < b.lines.start := by
    have hle := hbehind.le_start (List.mem_cons_self ..)
    refine Nat.lt_of_le_of_ne hle fun heq => ?_
    -- The line behind the first paragraph would be content of the second one.
    obtain ⟨line, hline, -⟩ := hsecond.opened
    have hcontent := hsecond.content hb _ ⟨Nat.le_refl _, hsecond.start_lt_stop⟩ line hline
    exact hfirst.maximal ha line (heq ▸ hline) hcontent
  exact ⟨hlt, hbehind.blank_before hlt⟩

end Tiles

/-! ## Blank lines -/

/-- A text of white space is plain. -/
theorem Piece.Scan.plain_of_isBlank {text : Text} {found : List Piece} (h : Scan text found)
    (hblank : text.isBlank = true) : ∀ piece ∈ found, piece.kind = .plainText := by
  induction h with
  | done => simp
  | @lexeme _ text _ _ _ htakes _ _ =>
      have hne : text ≠ [] := by
        rw [← htakes.split]
        exact fun hnil => htakes.ne_nil (List.append_eq_nil_iff.mp hnil).1
      have hclaim := unclaimed_of_isBlank hne hblank []
      rw [List.append_nil] at hclaim
      exact absurd htakes.matches (hclaim _)
  | plain _ _ _ _ ih =>
      rw [Text.isBlank_append, Bool.and_eq_true] at hblank
      exact List.forall_mem_cons.mpr ⟨rfl, ih hblank.2⟩

theorem isBlank_spelling (tokens : List Token) :
    (spelling tokens).isBlank = tokens.all (·.text.isBlank) := by
  induction tokens with
  | nil => rfl
  | cons token rest ih => rw [spelling_cons, Text.isBlank_append, ih, List.all_cons]

theorem isBlank_spelling_of_forall {tokens : List Token}
    (h : ∀ token ∈ tokens, token.isBlank = true) : (spelling tokens).isBlank = true := by
  rw [isBlank_spelling, List.all_eq_true]
  exact fun token hmem => (Bool.and_eq_true_iff.mp (h token hmem)).2

/-- The tokens that read a text are blank exactly when the text is. -/
theorem Token.forall_isBlank_iff {text : Text} {tokens : List Token}
    (h : Piece.Scan text (tokens.map piece)) :
    (∀ token ∈ tokens, token.isBlank = true) ↔ text.isBlank = true := by
  have htext : spelling tokens = text := by rw [← Piece.textOf_map_piece, h.textOf_eq]
  constructor
  · intro hall
    rw [← htext]
    exact isBlank_spelling_of_forall hall
  · intro hblank token hmem
    have hplain := h.plain_of_isBlank hblank token.piece (List.mem_map_of_mem hmem)
    rw [← htext, isBlank_spelling, List.all_eq_true] at hblank
    exact Bool.and_eq_true_iff.mpr ⟨beq_iff_eq.mpr hplain, hblank token hmem⟩

/-- A line is blank by its tokens exactly when it is by its text. -/
theorem LineRole.of_ofLine_eq_blank_iff (index : Nat) (line : Text) :
    of (Token.ofLine index line) = .blank ↔ line.isBlank = true := by
  by_cases hhead : line.head? = some '='
  · obtain ⟨tail, rfl⟩ := List.head?_eq_some_iff.mp hhead
    have hsign : isSpace '=' = false := by decide
    simp [Token.ofLine, Piece.ofLine, Piece.stamp, of_eq_blank_iff, Token.isBlank, Token.isPlain,
      Text.isBlank, hsign]
  · rw [of_eq_blank_iff, Token.forall_isBlank_iff (Token.scan_ofLine index hhead)]

/-! ## The blocks of a source -/

theorem getElem?_ofSource_of_line {source line : Text} {i : Nat}
    (h : source.lines[i]? = some line) :
    (Token.ofSource source)[i]? = some (Token.ofLine i line) := by
  simp [Token.ofSource, h]

/-- The blocks are an exact and ordered cover of the lines of a source. -/
structure IsCover (source : Text) (blocks : List Block) : Prop where
  /-- No block is empty or reaches beyond the source. -/
  inside : ∀ block ∈ blocks, block.lines.start < block.lines.stop ∧
    block.lines.stop ≤ (Token.ofSource source).length
  /-- The tokens of a block are those of its lines. -/
  tokens_eq : ∀ block ∈ blocks, block.tokens = ((Token.ofSource source).drop
    block.lines.start).take (block.lines.stop - block.lines.start)
  /-- Blocks follow one another without an overlap. -/
  ordered : blocks.Pairwise fun a b => a.lines.stop ≤ b.lines.start
  /-- A line that is not blank belongs to one block. -/
  once : ∀ i line, source.lines[i]? = some line → line.isBlank = false →
    blocks.countP (·.lines.Covers i) = 1
  /-- A blank line belongs to a block only if that is a directive that goes on over
  it. -/
  blank : ∀ i line, source.lines[i]? = some line → line.isBlank = true →
    ∀ block ∈ blocks, block.lines.Covers i →
      block.kind = .directive ∧ block.lines.start < i
  /-- Headings and math blocks are one line. -/
  single : ∀ block ∈ blocks, block.kind ≠ .directive → block.kind ≠ .paragraph →
    block.lines.stop = block.lines.start + 1
  /-- A paragraph is made of content lines. -/
  content : ∀ block ∈ blocks, block.kind = .paragraph → ∀ i, block.lines.Covers i →
    ∀ tokens, (Token.ofSource source)[i]? = some tokens → LineRole.of tokens = .content
  /-- Between two paragraphs that are neighbours there is a blank line. -/
  parted : ∀ front a b back, blocks = front ++ a :: b :: back →
    a.kind = .paragraph → b.kind = .paragraph →
    ∃ i line, a.lines.stop ≤ i ∧ i < b.lines.start ∧ source.lines[i]? = some line ∧
      line.isBlank = true

section

variable (base : Style) (source : Text)

theorem pairwise_blocks : (classify base (Token.ofSource source)).blocks.Pairwise
    fun a b => a.lines.stop ≤ b.lines.start := by
  have h := (tiles_segments (Token.ofSource source)).pairwise
  rwa [← classify_blocks_segments base, List.pairwise_map] at h

variable {source}

theorem exists_block_covers {i : Nat} {line : Text} (hline : source.lines[i]? = some line)
    (hblank : line.isBlank = false) :
    ∃ block ∈ (classify base (Token.ofSource source)).blocks, block.lines.Covers i := by
  have hrole : LineRole.of (Token.ofLine i line) ≠ .blank := by
    rw [Ne, LineRole.of_ofLine_eq_blank_iff, hblank]
    simp
  obtain ⟨segment, hmem, hcovers⟩ := (tiles_segments (Token.ofSource source)).exists_covers
    (Nat.zero_le i) (getElem?_ofSource_of_line hline) hrole
  rw [← classify_blocks_segments base, List.mem_map] at hmem
  obtain ⟨block, hblock, rfl⟩ := hmem
  exact ⟨block, hblock, hcovers⟩

variable {base}

theorem fits_of_mem_blocks {block : Block}
    (h : block ∈ (classify base (Token.ofSource source)).blocks) :
    block.toSegment.Fits (Token.ofSource source) :=
  (tiles_segments (Token.ofSource source)).fits_of_mem (toSegment_mem_segments h)

end

/-- The blocks of a source, in any base style, are an exact and ordered cover of
it. -/
theorem isCover_classify (base : Style) (source : Text) :
    IsCover source (classify base (Token.ofSource source)).blocks where
  inside block hmem :=
    ⟨(fits_of_mem_blocks hmem).start_lt_stop, (fits_of_mem_blocks hmem).stop_le⟩
  tokens_eq block hmem := (fits_of_mem_blocks hmem).tokens_eq
  ordered := pairwise_blocks base source
  once i line hline hblank :=
    LineRange.countP_covers_eq_one (pairwise_blocks base source)
      (exists_block_covers base hline hblank)
  blank i line hline hblank block hmem hcovers :=
    (fits_of_mem_blocks hmem).directive_of_blank hcovers (getElem?_ofSource_of_line hline)
      ((LineRole.of_ofLine_eq_blank_iff i line).mpr hblank)
  single block hmem := (fits_of_mem_blocks hmem).single
  content block hmem := (fits_of_mem_blocks hmem).content
  parted front a b back hsplit ha hb := by
    have htiles := tiles_segments (Token.ofSource source)
    rw [← classify_blocks_segments base, hsplit, List.map_append, List.map_cons,
      List.map_cons] at htiles
    obtain ⟨hlt, tokens, htokens, hrole⟩ := htiles.blank_between ha hb
    obtain ⟨line, hline, rfl⟩ := Token.getElem?_ofSource htokens
    exact ⟨_, line, Nat.le_refl _, hlt, hline, (LineRole.of_ofLine_eq_blank_iff ..).mp hrole⟩

end MarkupPreview
