import MarkupPreview.Proofs.DirectiveExtent

/-!
# Directives that end too early

A directive of more than one line ends where the balance of its lines is back at zero or
below. The reader of its set rule may still be among the arguments by then. This happens if
it passed over what the balance took for the end of a group: a parenthesis in content,
such as `[:)]`, closes nothing for the reader. Then the set rule is unclosed on the lines
of its directive, and the rest of it is left behind as a paragraph.

Where the source ends the depth of the reader is above zero and the balance is not. So
what the reader passed over closes more groups than it opens. As for directives that go on
too far, quotes have to be closed on their lines: a string over a line break is another way
to end too early.

## Main results

* `Reading.error_of_step` — what a token that is not taken is told as.
* `Reading.unseenFrom_lt` — along a list that is never closed the depth stays above zero.
* `SetRule.unclosedGroup_iff` — a set rule is unclosed exactly if its balance is above that
  of what its reader passes over.
* `directive_unclosed_iff` — the same on the lines of a directive, where the balance is not
  above zero.
-/

namespace MarkupPreview

theorem eq_error_of_map_eq_error {ε α β : Type} {result : Except ε α} {f : α → β} {error : ε}
    (h : result.map f = .error error) : result = .error error := by
  cases result with
  | error found => exact congrArg Except.error (Except.error.inj h)
  | ok value => cases h

namespace Reading

/-- A token that is not taken is an unexpected one, or an argument in front of it has no value. -/
theorem error_of_step {reading : Reading} {located : ArgToken.Located} {error : SetRuleError}
    (h : reading.step located = .error error) :
    error = .unexpectedToken located.start .argumentValue (some located.token) ∨
      ∃ name, error = .missingValue located.start name := by
  cases reading with
  | content start depth frame outer => cases h
  | done closed => cases h
  | arguments frame outer =>
      rw [step, stepArguments] at h
      cases htoken : located.token with
      | closeBracket =>
          simp only [htoken] at h
          exact .inl (Except.error.inj h).symm
      | colon =>
          simp only [htoken] at h
          have hcolon := eq_error_of_map_eq_error h
          unfold Frame.colon at hcolon
          split at hcolon
          · cases hcolon
          · exact .inl (Except.error.inj hcolon).symm
      | comma =>
          simp only [htoken] at h
          have hcomma := eq_error_of_map_eq_error h
          unfold Frame.comma at hcomma
          split at hcomma
          · exact .inr ⟨_, (Except.error.inj hcomma).symm⟩
          · cases hcomma
      | closeParen =>
          simp only [htoken] at h
          have hclose := eq_error_of_map_eq_error h
          unfold Frame.close at hclose
          split at hclose
          · cases hclose
          · exact .inr ⟨_, (Except.error.inj hclose).symm⟩
          · cases hclose
      | _ => simp [htoken] at h

/-- That a group is never closed shows at the end of the source, not at a token. -/
theorem step_ne_unclosedGroup (reading : Reading) (located : ArgToken.Located) (position : Nat) :
    reading.step located ≠ .error (.unclosedGroup position) := by
  intro h
  rcases error_of_step h with herror | ⟨name, herror⟩ <;> cases herror

theorem after_ne_unclosedGroup (reading : Reading) (tokens : List ArgToken.Located)
    (position : Nat) : reading.after tokens ≠ .error (.unclosedGroup position) := by
  induction tokens generalizing reading with
  | nil =>
      intro h
      cases h
  | cons located rest ih =>
      rw [after_cons]
      cases hstep : reading.step located with
      | error error =>
          intro herror
          exact step_ne_unclosedGroup reading located position (hstep.trans herror)
      | ok next => exact ih next

/-- Where the source ends too early something is open. -/
theorem depth_pos_of_finish {reading : Reading} {position : Nat} {error : SetRuleError}
    (h : reading.finish position = .error error) : 0 < reading.depth := by
  cases reading with
  | arguments frame outer =>
      simp only [depth]
      omega
  | content start nested frame outer =>
      simp only [depth]
      omega
  | done closed => cases h

/-- Along a list that is never closed the depth stays above zero. -/
theorem unseenFrom_lt {position start : Nat} {reading : Reading} {tokens : List ArgToken.Located}
    (h : readArguments position reading tokens = .error (.unclosedGroup start)) :
    reading.unseenFrom tokens < reading.depth + ArgToken.groups tokens := by
  rw [readArguments_eq_after] at h
  cases hafter : reading.after tokens with
  | error error =>
      rw [hafter] at h
      cases h
      exact absurd hafter (after_ne_unclosedGroup reading tokens start)
  | ok final =>
      rw [hafter] at h
      have hdepth := depth_after hafter
      have hopen := depth_pos_of_finish h
      omega

end Reading

namespace SetRule

/-- Where a set rule is unclosed its balance is above that of what its reader passes over. -/
theorem unseenBalance_lt_balance {source : Text} {position : Nat}
    (h : parse source = .error (.unclosedGroup position)) :
    unseenBalance source < ArgToken.balance source := by
  rw [ArgToken.balance_eq_groups]
  unfold parse at h
  unfold unseenBalance
  simp only at h
  split at h
  · rename_i target start stop start' stop' rest hlex
    have hlt := Reading.unseenFrom_lt (eq_error_of_map_eq_error h)
    rw [hlex]
    simp only [ArgToken.groups_cons, ArgToken.opening]
    simp only [Reading.depth, List.length_nil] at hlt
    omega
  · cases h
  · cases h

/-- Nothing is wrong with a set rule unless a group in it is never closed. -/
def ReadsOn (source : Text) : Prop :=
  ∀ error, parse source = .error error → ∃ position, error = .unclosedGroup position

/-- If nothing else is wrong with a set rule it is unclosed exactly if its balance is above that
of what its reader passes over. -/
theorem unclosedGroup_iff {source : Text} (h : ReadsOn source) :
    (∃ position, parse source = .error (.unclosedGroup position)) ↔
      unseenBalance source < ArgToken.balance source := by
  constructor
  · rintro ⟨position, hparse⟩
    exact unseenBalance_lt_balance hparse
  · intro hlt
    cases hparse : parse source with
    | ok rule =>
        have heq := balance_of_parse hparse
        omega
    | error error =>
        obtain ⟨position, rfl⟩ := h error hparse
        exact ⟨position, rfl⟩

/-- If nothing else is wrong with a set rule it is complete exactly if its balance is that of
what its reader passes over. -/
theorem exists_parse_iff {source : Text} (h : ReadsOn source) :
    (∃ rule, parse source = .ok rule) ↔ unseenBalance source = ArgToken.balance source := by
  constructor
  · rintro ⟨rule, hparse⟩
    exact (balance_of_parse hparse).symm
  · intro heq
    cases hparse : parse source with
    | ok rule => exact ⟨rule, rfl⟩
    | error error =>
        obtain ⟨position, rfl⟩ := h error hparse
        have hlt := unseenBalance_lt_balance hparse
        omega

end SetRule

variable {base : Style} {source : Text} {block : Block} {line arguments : List Token}
  {continued : List (List Token)}

/-- The balance of a directive's source is that of its lines. -/
theorem balance_directiveSource
    (hblock : block ∈ (classify base (Token.ofSource source)).blocks)
    (htokens : block.tokens = line :: continued) {keyword : Text}
    (hrole : LineRole.of line = .directive keyword arguments)
    (hquotes : ∀ tokens ∈ arguments :: continued, QuotesClosed tokens) :
    ArgToken.balance (Segment.directiveSource arguments continued) =
      lineBalance arguments + linesBalance continued := by
  have hlines : ∀ tokens ∈ line :: continued, Lexed tokens := fun tokens hmem =>
    lexed_of_mem_tokens hblock (htokens ▸ hmem)
  have hlexed : ∀ tokens ∈ arguments :: continued, Lexed tokens := by
    obtain ⟨hline, hcontinued⟩ := List.forall_mem_cons.mp hlines
    obtain ⟨index, text, hmem⟩ := hline
    refine List.forall_mem_cons.mpr ⟨⟨index, text, fun token htoken => ?_⟩, hcontinued⟩
    exact hmem token (LineRole.mem_of_mem_arguments hrole htoken)
  have hbalance := balance_joinLines fun tokens hmem => ⟨hquotes tokens hmem, hlexed tokens hmem⟩
  rwa [List.map_cons, ← Segment.directiveSource, linesBalance_cons] at hbalance

/-- Take a set directive of more than one line, with quotes that are closed on their lines.
Its set rule is unclosed only if its reader passes over more groups that are closed than
groups that are opened. If nothing else is wrong with it, it is unclosed exactly if what its
reader passes over has a balance below that of the lines, which is not above zero. -/
theorem directive_unclosed_iff
    (hblock : block ∈ (classify base (Token.ofSource source)).blocks)
    (htokens : block.tokens = line :: continued)
    (hrole : LineRole.of line = .directive setKeyword arguments) (hmany : continued ≠ [])
    (hquotes : ∀ tokens ∈ arguments :: continued, QuotesClosed tokens) :
    (0 ≤ SetRule.unseenBalance (Segment.directiveSource arguments continued) →
      ∀ position, SetRule.parse (Segment.directiveSource arguments continued) ≠
        .error (.unclosedGroup position)) ∧
    (SetRule.ReadsOn (Segment.directiveSource arguments continued) →
      ((∃ position, SetRule.parse (Segment.directiveSource arguments continued) =
          .error (.unclosedGroup position)) ↔
        SetRule.unseenBalance (Segment.directiveSource arguments continued) <
          lineBalance arguments + linesBalance continued)) := by
  have hbalance := balance_directiveSource hblock htokens hrole hquotes
  obtain ⟨hend, -⟩ := directive_goesOn_spec hblock htokens hrole hmany
  refine ⟨fun hpassed position hparse => ?_, fun hreads => ?_⟩
  · have hlt := SetRule.unseenBalance_lt_balance hparse
    omega
  · rw [← hbalance]
    exact SetRule.unclosedGroup_iff hreads

/-- A parenthesis in content ends a directive and closes nothing. -/
theorem directive_unclosed_iff_content :
    let source : Text := "#set a(\n[)]".toList
    let arguments := (Token.ofLine 0 "#set a(".toList).drop 1
    let continued := [Token.ofLine 1 "[)]".toList]
    (∃ block ∈ (classify .standard (Token.ofSource source)).blocks,
      block.tokens = Token.ofLine 0 "#set a(".toList :: continued) ∧
      SetRule.ReadsOn (Segment.directiveSource arguments continued) ∧
      ((∃ position, SetRule.parse (Segment.directiveSource arguments continued) =
          .error (.unclosedGroup position)) ↔
        SetRule.unseenBalance (Segment.directiveSource arguments continued) <
          lineBalance arguments + linesBalance continued) := by
  intro source arguments continued
  have hexists : ∃ block ∈ (classify .standard (Token.ofSource source)).blocks,
      block.tokens = Token.ofLine 0 "#set a(".toList :: continued := by decide +kernel
  have hrole : LineRole.of (Token.ofLine 0 "#set a(".toList) =
      .directive setKeyword arguments := by decide +kernel
  have hquotes : ∀ tokens ∈ arguments :: continued, QuotesClosed tokens := by decide +kernel
  have herror : (SetRule.parse (Segment.directiveSource arguments continued)).map SetRule.target =
      .error (.unclosedGroup 7) := by decide +kernel
  have hreads : SetRule.ReadsOn (Segment.directiveSource arguments continued) := by
    intro error hparse
    rw [eq_error_of_map_eq_error herror] at hparse
    exact ⟨7, (Except.error.inj hparse).symm⟩
  refine ⟨hexists, hreads, ?_⟩
  obtain ⟨block, hblock, htokens⟩ := hexists
  exact (directive_unclosed_iff hblock htokens hrole (List.cons_ne_nil _ _) hquotes).2 hreads

/-- A directive can end on a line that closes nothing, in the middle of its arguments. With
the line behind it the set rule would be complete. -/
theorem directive_ends_unclosed :
    let source : Text := "#set text(\nx: [:)],\nsize: 9pt)".toList
    let line := Token.ofLine 0 "#set text(".toList
    let arguments := line.drop 1
    let inside := Token.ofLine 1 "x: [:)],".toList
    let last := Token.ofLine 2 "size: 9pt)".toList
    LineRole.of line = .directive setKeyword arguments ∧
      0 < lineBalance arguments ∧
      (∃ block ∈ (classify .standard (Token.ofSource source)).blocks,
        block.lines = ⟨0, 2⟩ ∧ block.tokens = [line, inside]) ∧
      SetRule.parse (Segment.directiveSource arguments [inside]) = .error (.unclosedGroup 15) ∧
      (SetRule.parse (Segment.directiveSource arguments [inside, last])).toOption.isSome := by
  intro source line arguments inside last
  have herror : (SetRule.parse (Segment.directiveSource arguments [inside])).map SetRule.target =
      .error (.unclosedGroup 15) := by decide +kernel
  exact ⟨by decide +kernel, by decide +kernel, by decide +kernel, eq_error_of_map_eq_error herror,
    by decide +kernel⟩

end MarkupPreview
