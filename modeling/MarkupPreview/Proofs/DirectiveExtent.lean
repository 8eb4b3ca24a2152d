import MarkupPreview.Proofs.ReadingDepth
import MarkupPreview.Proofs.VisibleText

/-!
# How far a directive goes on

A directive whose first line leaves a group open goes on to the line that brings the
balance back to zero or below. In front of that line the balance is above zero all
the way (`goesOn_iff`), so where the arguments of a set rule are complete before the
directive ends, what still stands open is something that their reader passed over: a
parenthesis in content, such as `[:(]`, or a group behind the list. Lines that
follow such a set rule are taken from the document.

The argument needs quotes that are closed on their lines. A string that runs over a
line break is a string to the reader of the arguments, and two stray quotes to the
balance of the lines.

## Main results

* `linesToClose?_spec` — the line that a directive ends with is the first at which
  the balance is not above zero.
* `directive_goesOn_iff` — a set rule that is complete goes on exactly if its reader
  passed over a group that is left open.
-/

namespace MarkupPreview

/-! ## Balances of lines -/

/-- The groups are closed by the first line at which the balance is not above
zero. -/
theorem linesToClose?_spec {depth : Int} {lines : List (List Token)} {count : Nat}
    (h : linesToClose? depth lines = some count) (hopen : 0 < depth) :
    depth + linesBalance (lines.take count) ≤ 0 ∧
      ∀ k < count, 0 < depth + linesBalance (lines.take k) := by
  induction lines generalizing depth count with
  | nil => cases h
  | cons line rest ih =>
      rw [linesToClose?] at h
      by_cases hclosed : depth + lineBalance line ≤ 0
      · rw [if_pos hclosed, Option.some.injEq] at h
        subst h
        refine ⟨by simpa using hclosed, ?_⟩
        intro k hk
        obtain rfl : k = 0 := by omega
        simpa using hopen
      · rw [if_neg hclosed, Option.map_eq_some_iff] at h
        obtain ⟨others, hothers, rfl⟩ := h
        obtain ⟨hend, hbefore⟩ := ih hothers (by omega)
        refine ⟨?_, ?_⟩
        · rw [List.take_succ_cons, linesBalance_cons, ← Int.add_assoc]
          exact hend
        · intro k hk
          cases k with
          | zero => simpa using hopen
          | succ k =>
              have hnext := hbefore k (by omega)
              rw [List.take_succ_cons, linesBalance_cons, ← Int.add_assoc]
              exact hnext

theorem continuation_spec {arguments : List Token} {following : List (List Token)}
    (h : 0 < continuation arguments following) :
    lineBalance arguments +
        linesBalance (following.take (continuation arguments following)) ≤ 0 ∧
      ∀ k < continuation arguments following,
        0 < lineBalance arguments + linesBalance (following.take k) := by
  unfold continuation at h ⊢
  by_cases hclosed : lineBalance arguments ≤ 0
  · rw [if_pos hclosed] at h
    cases h
  · rw [if_neg hclosed] at h ⊢
    cases hcount : linesToClose? (lineBalance arguments) following with
    | none =>
        rw [hcount] at h
        cases h
    | some count => exact linesToClose?_spec hcount (by omega)

/-! ## The lines of a directive -/

theorem LineRole.mem_of_mem_arguments {tokens arguments : List Token} {keyword : Text}
    (h : of tokens = .directive keyword arguments) {token : Token} (hmem : token ∈ arguments) :
    token ∈ tokens := by
  obtain ⟨before, lead, rfl, -⟩ := of_eq_directive_iff.mp h
  exact List.mem_append_right before (List.mem_cons_of_mem lead hmem)

variable {base : Style} {source : Text} {block : Block} {line arguments : List Token}
  {continued : List (List Token)} {keyword : Text}

/-- The lines of a block are lexed lines. -/
theorem lexed_of_mem_tokens (hblock : block ∈ (classify base (Token.ofSource source)).blocks)
    {tokens : List Token} (h : tokens ∈ block.tokens) : Lexed tokens := by
  rw [(fits_of_mem_blocks hblock).tokens_eq] at h
  exact Token.lexed_of_mem_ofSource (List.mem_of_mem_drop (List.mem_of_mem_take h))

/-- A directive of more than one line has a balance above zero in front of its last
line, and not behind it. -/
theorem directive_goesOn_spec (hblock : block ∈ (classify base (Token.ofSource source)).blocks)
    (htokens : block.tokens = line :: continued)
    (hrole : LineRole.of line = .directive keyword arguments) (hmany : continued ≠ []) :
    lineBalance arguments + linesBalance continued ≤ 0 ∧
      ∀ k < continued.length, 0 < lineBalance arguments + linesBalance (continued.take k) := by
  obtain ⟨first, following, -, -, -, hextent⟩ :=
    exists_extent_of_mem (toSegment_mem_segments hblock)
  obtain ⟨rfl, hcontinued⟩ := List.cons.inj (htokens.symm.trans hextent)
  rw [hrole, LineRole.extent] at hcontinued
  have hlength : continued.length = continuation arguments following := by
    rw [hcontinued, List.length_take, Nat.min_eq_left (continuation_le ..)]
  have hpos : 0 < continued.length := List.length_pos_iff.mpr hmany
  rw [hlength] at hpos ⊢
  obtain ⟨hend, hbefore⟩ := continuation_spec hpos
  refine ⟨hcontinued ▸ hend, ?_⟩
  intro k hk
  have htake : continued.take k = following.take k := by
    rw [hcontinued, List.take_take, Nat.min_eq_left (by omega)]
  rw [htake]
  exact hbefore k hk

/-- So a directive of more than one line goes on behind its first lines exactly if
they leave a group open. -/
theorem goesOn_iff (hblock : block ∈ (classify base (Token.ofSource source)).blocks)
    (htokens : block.tokens = line :: continued)
    (hrole : LineRole.of line = .directive keyword arguments) (hmany : continued ≠ [])
    {k : Nat} (hk : k ≤ continued.length) :
    k < continued.length ↔ 0 < lineBalance arguments + linesBalance (continued.take k) := by
  obtain ⟨hend, hbefore⟩ := directive_goesOn_spec hblock htokens hrole hmany
  constructor
  · exact hbefore k
  · intro hopen
    refine Nat.lt_of_le_of_ne hk fun hlast => ?_
    rw [hlast, List.take_length] at hopen
    omega

/-! ## Set rules -/

/-- Take the first lines of a set directive of more than one line, with quotes that
are closed on their lines, and suppose that the set rule is complete on them. Then
the directive goes on behind them exactly if the reader of the rule passed over
groups that are left open. In particular, if it passed over none, then the directive
ends there, and it is its first line alone if the rule is complete on that. -/
theorem directive_goesOn_iff
    (hblock : block ∈ (classify base (Token.ofSource source)).blocks)
    (htokens : block.tokens = line :: continued)
    (hrole : LineRole.of line = .directive setKeyword arguments) (hmany : continued ≠ [])
    {k : Nat} (hk : k ≤ continued.length)
    (hquotes : ∀ tokens ∈ arguments :: continued.take k, QuotesClosed tokens) {rule : SetRule}
    (hcomplete :
      SetRule.parse (Segment.directiveSource arguments (continued.take k)) = .ok rule) :
    k < continued.length ↔
      0 < SetRule.unseenBalance (Segment.directiveSource arguments (continued.take k)) := by
  have hlexed : ∀ tokens ∈ arguments :: continued.take k, Lexed tokens := by
    intro tokens hmem
    rcases List.mem_cons.mp hmem with rfl | hmem
    · have hmem : line ∈ block.tokens := by
        rw [htokens]
        exact List.mem_cons_self
      obtain ⟨index, text, hline⟩ := lexed_of_mem_tokens hblock hmem
      exact ⟨index, text, fun token htoken =>
        hline token (LineRole.mem_of_mem_arguments hrole htoken)⟩
    · refine lexed_of_mem_tokens hblock ?_
      rw [htokens]
      exact List.mem_cons_of_mem line (List.mem_of_mem_take hmem)
  have hbalance := balance_joinLines fun tokens hmem => ⟨hquotes tokens hmem, hlexed tokens hmem⟩
  rw [List.map_cons, ← Segment.directiveSource, linesBalance_cons] at hbalance
  rw [goesOn_iff hblock htokens hrole hmany hk, ← SetRule.balance_of_parse hcomplete, hbalance]

/-- A bracket behind the arguments keeps a directive open. -/
theorem directive_goesOn_iff_behind :
    let source : Text := "#set a()[\nb\n]".toList
    let arguments := (Token.ofLine 0 "#set a()[".toList).drop 1
    let continued := [Token.ofLine 1 "b".toList, Token.ofLine 2 "]".toList]
    (∃ block ∈ (classify .standard (Token.ofSource source)).blocks,
      block.tokens = Token.ofLine 0 "#set a()[".toList :: continued) ∧
      (SetRule.parse (Segment.directiveSource arguments (continued.take 0))).toOption.isSome ∧
      (0 < 2 ↔ 0 < SetRule.unseenBalance (Segment.directiveSource arguments [])) := by
  intro source arguments continued
  have hexists : ∃ block ∈ (classify .standard (Token.ofSource source)).blocks,
      block.tokens = Token.ofLine 0 "#set a()[".toList :: continued := by decide +kernel
  have hrole : LineRole.of (Token.ofLine 0 "#set a()[".toList) =
      .directive setKeyword arguments := by decide +kernel
  have hquotes : ∀ tokens ∈ arguments :: continued.take 0, QuotesClosed tokens := by
    decide +kernel
  have hsome :
      (SetRule.parse (Segment.directiveSource arguments (continued.take 0))).toOption.isSome := by
    decide +kernel
  refine ⟨hexists, hsome, ?_⟩
  obtain ⟨block, hblock, htokens⟩ := hexists
  cases hcomplete : SetRule.parse (Segment.directiveSource arguments (continued.take 0)) with
  | error error =>
      rw [hcomplete] at hsome
      cases hsome
  | ok rule =>
      exact directive_goesOn_iff hblock htokens hrole (List.cons_ne_nil _ _) (Nat.zero_le _)
        hquotes hcomplete

/-- A set rule can be complete on its first line and take the lines behind it: a
parenthesis in its content is one that the reader passes over and the balance
counts. -/
theorem directive_takes_body :
    let source : Text := "#set page(footer: [:(])\nBody\n1) item".toList
    let line := Token.ofLine 0 "#set page(footer: [:(])".toList
    let arguments := line.drop 1
    LineRole.of line = .directive setKeyword arguments ∧
      (SetRule.parse (Segment.directiveSource arguments [])).toOption.isSome ∧
      ∃ block ∈ (classify .standard (Token.ofSource source)).blocks,
        block.lines = ⟨0, 3⟩ ∧
          block.tokens =
            [line, Token.ofLine 1 "Body".toList, Token.ofLine 2 "1) item".toList] := by
  decide +kernel

end MarkupPreview
