import MarkupPreview.Proofs.DocumentParts
import MarkupPreview.Proofs.UnclosedDirective

/-!
# Directives that are never closed

A directive leaves a group open, and no line up to the end of the source brings the
balance back to zero. Then the directive is its first line alone. It is not swallowed by
a directive in front of it either, since the lines from here on only add to what that one
has left open.

What becomes of its set rule is decided on that line and by other rules: the reader of
the arguments passes over parentheses in content and over all that stands behind the
list. If the group that is never closed is among these, the rule is complete and sets the
style; if the reader passed over no open group, it misses the end of its list and the style
stays as it was.

## Main results

* `exists_segment_of_not_closes` — a line that leaves a group open for good is a directive
  of its own.
* `styleBehind_styled` — a style holds up to the next block with an effect.
* `neverClosed_directive` — such a directive, and when it leaves the style alone.
-/

namespace MarkupPreview

/-! ## The balance of an open line -/

namespace LineRole

/-- Neither the keyword of a directive nor the white space in front of it counts. -/
theorem lineBalance_of_directive {tokens arguments : List Token} {keyword : Text}
    (h : of tokens = .directive keyword arguments) :
    lineBalance tokens = lineBalance arguments := by
  obtain ⟨before, lead, rfl, hbefore, hkind, rfl, hmem⟩ := of_eq_directive_iff.mp h
  have hblank : ∀ c ∈ countedText before, c ∉ ArgToken.signs := by
    intro c hc
    obtain ⟨token, htoken, hc⟩ := List.mem_flatMap.mp hc
    have htext := (Bool.and_eq_true_iff.mp (hbefore token (List.mem_of_mem_filter htoken))).2
    exact Text.notMem_of_class (by decide) (Text.isBlank_iff.mp htext c hc)
  have hlead : ∀ c ∈ lead.text, c ∉ ArgToken.signs := by
    obtain ⟨word, hword, htext⟩ := exists_word_of_mem hmem
    rw [htext, List.forall_mem_cons]
    refine ⟨by decide, fun c hc => ?_⟩
    exact Text.notMem_of_class (by decide) (Rule.isWord_of_mem_reservedWords hword c hc)
  rw [lineBalance_eq_scan, lineBalance_eq_scan, countedText_append, countedText_cons,
    if_neg (by simp [hkind]), ArgToken.scan_append_of_notMem_signs hblank,
    ArgToken.scan_append_of_notMem_signs hlead]

/-- Behind a line that leaves a group open for good the balance stays above zero. -/
theorem pos_of_not_closes {following : List (List Token)} {arguments : List Token} {keyword : Text}
    (h : ¬ Closes following (directive keyword arguments)) (k : Nat) :
    0 < lineBalance arguments + linesBalance (following.take k) := by
  by_contra hle
  refine h ⟨min k following.length, Nat.min_le_right .., ?_⟩
  rw [← List.take_eq_take_min]
  omega

end LineRole

/-- A directive ends in front of a line that leaves a group open for good: behind that line
it would have more open than before. -/
theorem continuation_le_of_open {arguments line : List Token} {following rest : List (List Token)}
    {n : Nat} (hdrop : following.drop n = line :: rest)
    (hopen : ∀ k, 0 < lineBalance line + linesBalance (rest.take k)) :
    continuation arguments following ≤ n := by
  by_contra hbeyond
  have hlt : n < continuation arguments following := Nat.lt_of_not_le hbeyond
  obtain ⟨hend, hbefore⟩ := continuation_spec (Nat.zero_lt_of_lt hlt)
  obtain ⟨m, hm⟩ := Nat.exists_eq_add_of_lt hlt
  have htake : following.take (continuation arguments following) =
      following.take n ++ line :: rest.take m := by
    rw [hm, Nat.add_assoc, List.take_add, hdrop, List.take_succ_cons]
  rw [htake, linesBalance_append, linesBalance_cons] at hend
  have hfront := hbefore n hlt
  have hback := hopen m
  omega

theorem continuation_eq_zero {arguments : List Token} {following : List (List Token)}
    (h : ∀ k, 0 < lineBalance arguments + linesBalance (following.take k)) :
    continuation arguments following = 0 := by
  by_contra hne
  obtain ⟨hend, -⟩ := continuation_spec (Nat.pos_of_ne_zero hne)
  have hopen := h (continuation arguments following)
  omega

/-! ## The segment of an open line -/

section Segments

variable {lines following rest : List (List Token)} {line arguments : List Token} {keyword : Text}
  {i n : Nat}

/-- No segment goes on over a line that leaves a group open for good. -/
theorem LineRole.extent_le_of_open (role : LineRole) (hdrop : following.drop n = line :: rest)
    (hrole : of line = .directive keyword arguments)
    (hopen : ∀ k, 0 < lineBalance arguments + linesBalance (rest.take k)) :
    role.extent following ≤ n := by
  cases role with
  | directive other others =>
      rw [← lineBalance_of_directive hrole] at hopen
      exact continuation_le_of_open hdrop hopen
  | content =>
      show (following.takeWhile isContent).length ≤ n
      by_contra hbeyond
      have hline : following[n]? = some line := by
        rw [← List.head?_drop, hdrop]
        rfl
      have hcontent :=
        isContent_iff.mp (pos_of_lt_length_takeWhile (Nat.lt_of_not_le hbeyond) hline)
      rw [hrole] at hcontent
      cases hcontent
  | _ => exact Nat.zero_le n

theorem drop_of_getElem? (h : lines[i]? = some line) :
    lines.drop i = line :: lines.drop (i + 1) := by
  obtain ⟨hlt, rfl⟩ := List.getElem?_eq_some_iff.mp h
  exact List.drop_eq_getElem_cons hlt

/-- A line that leaves a group open for good is a segment of its own. -/
theorem exists_segment_of_not_closes (hline : lines[i]? = some line)
    (hrole : LineRole.of line = .directive keyword arguments)
    (hclose : ¬ (LineRole.of line).Closes (lines.drop (i + 1))) :
    ⟨.directive, ⟨i, i + 1⟩, [line]⟩ ∈ segments lines := by
  have hopen := LineRole.pos_of_not_closes (hrole ▸ hclose)
  have hvisible : LineRole.of line ≠ .blank := by simp [hrole]
  obtain ⟨segment, hmem, hstart, hstop⟩ :=
    (tiles_segments lines).exists_covers (Nat.zero_le i) hline hvisible
  obtain ⟨first, following, hdrop, hkind, hextent, htokens⟩ := exists_extent_of_mem hmem
  have hfirst : segment.lines.start = i := by
    -- Otherwise it would be the segment of a line in front, and end in front of this one.
    by_contra hne
    obtain ⟨n, hn⟩ := Nat.exists_eq_add_of_lt (Nat.lt_of_le_of_ne hstart hne)
    have hi : i = segment.lines.start + 1 + n := by omega
    have hbehind : following.drop n = line :: lines.drop (i + 1) := by
      rw [← drop_behind hdrop, ← hi, drop_of_getElem? hline]
    have hle := (LineRole.of first).extent_le_of_open hbehind hrole hopen
    omega
  rw [hfirst, drop_of_getElem? hline] at hdrop
  obtain ⟨rfl, rfl⟩ := List.cons.inj hdrop
  rw [hrole, LineRole.extent, continuation_eq_zero hopen] at hextent htokens
  have hsegment : segment = ⟨.directive, ⟨i, i + 1⟩, [line]⟩ := by
    obtain ⟨kind, ⟨start, stop⟩, tokens⟩ := segment
    rw [hrole] at hkind
    cases hkind
    obtain rfl : start = i := hfirst
    obtain rfl : stop = start + 1 := hextent
    obtain rfl : tokens = [line] := htokens
    rfl
  rwa [hsegment] at hmem

end Segments

/-! ## The style behind a block -/

/-- A block has an effect if it states a set rule that sets anything. -/
def Segment.isEffective (segment : Segment) : Bool := segment.setRule?.any SetRule.hasEffect

theorem Segment.effect_of_not_isEffective {segment : Segment} (h : segment.isEffective = false)
    (style : Style) : segment.effect style = style := by
  unfold isEffective at h
  unfold effect
  cases hrule : segment.setRule? with
  | none => rfl
  | some rule =>
      rw [hrule] at h
      exact SetRule.apply_eq_self h style

/-- The style holds behind a place of a document, with the blocks that come there and the
final style: the blocks up to the next one with an effect have it, that one included, and it
is the final style if there is none. -/
structure StyleBehind (style : Style) (coming : List Block) (final : Style) : Prop where
  blocks : ∀ passed next rest, coming = passed ++ next :: rest →
    (∀ block ∈ passed, block.isEffective = false) → next.style = style
  final : (∀ block ∈ coming, block.isEffective = false) → final = style

/-- Only one style holds behind a place. -/
theorem StyleBehind.unique {style other final : Style} {coming : List Block}
    (h : StyleBehind style coming final) (hother : StyleBehind other coming final) :
    style = other := by
  cases coming with
  | nil => rw [← h.final (by simp), hother.final (by simp)]
  | cons next rest =>
      rw [← h.blocks [] next rest rfl (by simp), hother.blocks [] next rest rfl (by simp)]

/-- The style that segments start with holds at their beginning. -/
theorem styleBehind_styled (style : Style) (found : List Segment) :
    StyleBehind style (styled style found).blocks (styled style found).style := by
  induction found with
  | nil => exact ⟨fun passed next rest h => by simp [styled] at h, fun _ => rfl⟩
  | cons segment rest ih =>
      refine ⟨fun passed next later hsplit hpassed => ?_, fun hall => ?_⟩
      · cases passed with
        | nil =>
            obtain ⟨rfl, -⟩ := List.cons.inj hsplit
            rfl
        | cons first passed =>
            obtain ⟨rfl, hrest⟩ := List.cons.inj hsplit
            obtain ⟨hfirst, hpassed⟩ := List.forall_mem_cons.mp hpassed
            rw [Segment.effect_of_not_isEffective hfirst] at hrest
            exact ih.blocks passed next later hrest hpassed
      · obtain ⟨hfirst, hall⟩ := List.forall_mem_cons.mp hall
        have hsame : segment.effect style = style := Segment.effect_of_not_isEffective hfirst style
        rw [styled]
        simp only [hsame] at hall ⊢
        exact ih.final hall

/-- A segment is one of the blocks, and the style that this block has holds behind it too
exactly if the segment leaves it alone. -/
theorem exists_block_of_mem_segments (base : Style) {lines : List (List Token)} {segment : Segment}
    (h : segment ∈ segments lines) :
    ∃ front block back, (classify base lines).blocks = front ++ block :: back ∧
      block.toSegment = segment ∧
      (StyleBehind block.style back (classify base lines).style ↔
        segment.effect block.style = block.style) := by
  obtain ⟨before, after, hsegments⟩ := List.append_of_mem h
  rw [classify, hsegments, styled_append]
  generalize (styled base before).style = style
  refine ⟨_, ⟨segment, style⟩, _, rfl, rfl, ?_⟩
  have hheld := styleBehind_styled (segment.effect style) after
  constructor
  · exact hheld.unique
  · intro hsame
    simp only [styled, hsame] at hheld ⊢
    exact hheld

/-! ## Set rules -/

theorem Segment.effect_eq_self_iff {segment : Segment} {line arguments : List Token}
    {continued : List (List Token)} (htokens : segment.tokens = line :: continued)
    (hrole : LineRole.of line = .directive setKeyword arguments) (style : Style) :
    segment.effect style = style ↔
      ∀ rule, SetRule.parse (directiveSource arguments continued) = .ok rule →
        rule.apply style = style := by
  rw [effect, setRule?_of_directive htokens hrole, if_pos rfl]
  cases SetRule.parse (directiveSource arguments continued) with
  | error error => simp [Except.toOption]
  | ok rule => simp [Except.toOption]

/-- Take a set directive whose line leaves a group open that is not closed up to the end of
the source. It is a block of that line alone. The style in front of it holds behind it, up
to the next block with an effect, exactly if the line states no set rule that changes it.
With quotes that are closed on the line, the style holds if the reader of the rule passes
over no more groups that are opened than groups that are closed; and if nothing else is
wrong with the rule, it is complete exactly if all that the line leaves open is in what its
reader passes over. -/
theorem neverClosed_directive {base : Style} {source : Text} {i : Nat}
    {line arguments : List Token} (hline : (Token.ofSource source)[i]? = some line)
    (hrole : LineRole.of line = .directive setKeyword arguments)
    (hclose : ¬ (LineRole.of line).Closes ((Token.ofSource source).drop (i + 1))) :
    let document := classify base (Token.ofSource source)
    let stated := Segment.directiveSource arguments []
    ∃ front block back, document.blocks = front ++ block :: back ∧
      block.kind = .directive ∧ block.lines = ⟨i, i + 1⟩ ∧ block.tokens = [line] ∧
      (StyleBehind block.style back document.style ↔
        ∀ rule, SetRule.parse stated = .ok rule → rule.apply block.style = block.style) ∧
      (QuotesClosed arguments →
        (SetRule.unseenBalance stated ≤ 0 → StyleBehind block.style back document.style) ∧
        (SetRule.ReadsOn stated → ((∃ rule, SetRule.parse stated = .ok rule) ↔
          SetRule.unseenBalance stated = lineBalance arguments))) := by
  intro document stated
  obtain ⟨front, block, back, hblocks, hopened, hkept⟩ :=
    exists_block_of_mem_segments base (exists_segment_of_not_closes hline hrole hclose)
  have htokens : block.tokens = [line] := congrArg Segment.tokens hopened
  have hbehind : StyleBehind block.style back document.style ↔
      ∀ rule, SetRule.parse stated = .ok rule → rule.apply block.style = block.style := by
    rw [hkept, ← hopened]
    exact Segment.effect_eq_self_iff htokens hrole block.style
  refine ⟨front, block, back, hblocks, congrArg Segment.kind hopened,
    congrArg Segment.lines hopened, htokens, hbehind, fun hquotes => ?_⟩
  have hmem : block ∈ document.blocks := by
    rw [hblocks]
    simp
  have hbalance : ArgToken.balance stated = lineBalance arguments := by
    rw [balance_directiveSource hmem htokens hrole (List.forall_mem_singleton.mpr hquotes),
      linesBalance_nil, Int.add_zero]
  have hpos : 0 < lineBalance arguments := by
    have hopen := LineRole.pos_of_not_closes (hrole ▸ hclose) 0
    rwa [List.take_zero, linesBalance_nil, Int.add_zero] at hopen
  constructor
  · intro hunseen
    refine hbehind.mpr fun rule hparse => ?_
    have hequal := SetRule.balance_of_parse hparse
    omega
  · intro hreads
    rw [SetRule.exists_parse_iff hreads, hbalance]

/-- A list that is cut off: its size is not set, and the line behind it stays visible. -/
theorem neverClosed_directive_cut :
    let source : Text := "#set text(size: 20pt\nstill visible".toList
    let line := Token.ofLine 0 "#set text(size: 20pt".toList
    let arguments := line.drop 1
    let document := classify .standard (Token.ofSource source)
    LineRole.of line = .directive setKeyword arguments ∧
      ¬ (LineRole.of line).Closes ((Token.ofSource source).drop 1) ∧
      ∃ front block back, document.blocks = front ++ block :: back ∧
        block.kind = .directive ∧ block.lines = ⟨0, 1⟩ ∧ block.tokens = [line] ∧
        StyleBehind block.style back document.style := by
  intro source line arguments document
  have hline : (Token.ofSource source)[0]? = some line := by decide +kernel
  have hrole : LineRole.of line = .directive setKeyword arguments := by decide +kernel
  have hclose : ¬ (LineRole.of line).Closes ((Token.ofSource source).drop 1) := by decide +kernel
  have hquotes : QuotesClosed arguments := by decide +kernel
  have hunseen : SetRule.unseenBalance (Segment.directiveSource arguments []) ≤ 0 := by
    decide +kernel
  obtain ⟨front, block, back, hblocks, hkind, hlines, htokens, -, hstays⟩ :=
    @neverClosed_directive .standard source 0 line arguments hline hrole hclose
  exact ⟨hrole, hclose, front, block, back, hblocks, hkind, hlines, htokens,
    (hstays hquotes).1 hunseen⟩

/-- A parenthesis behind a complete list is never closed, and the size is set all the same. -/
theorem neverClosed_sets_size :
    let source : Text := "#set text(size: 9pt) (\nBody".toList
    let line := Token.ofLine 0 "#set text(size: 9pt) (".toList
    let document := classify .standard (Token.ofSource source)
    LineRole.of line = .directive setKeyword (line.drop 1) ∧
      ¬ (LineRole.of line).Closes ((Token.ofSource source).drop 1) ∧
      document.blocks.map (fun block => (block.kind, block.lines, block.style)) =
        [(.directive, ⟨0, 1⟩, .standard), (.paragraph, ⟨1, 2⟩, ⟨"serif".toList, 9.0⟩)] ∧
      document.style = ⟨"serif".toList, 9.0⟩ ∧ document.style ≠ .standard := by
  decide +kernel

end MarkupPreview
