import MarkupPreview.Proofs.ArgumentGrammar
import MarkupPreview.Proofs.ArgumentSpans
import MarkupPreview.Proofs.UnclosedDirective

/-!
# Where a set rule goes wrong

An error of the reader of set rules has a place and, if a token was not expected, that
token. Neither is defined by what the reader does when it fails. The token at fault is the
first one with which no set rule goes on: the tokens in front of it are the beginning of
some set rule of the grammar, and with it they are not. The place should be where that
token starts.

For the arguments it is. Until a step fails the tokens can be completed, since whatever
is open can be closed (`Reading.exists_completion`), and when it fails they cannot. For the
target it is not: the reader has taken the token before it looks where it stands, and
names the place of the one behind.

Every place that an error has is a place among the tokens all the same. For a bracket that
is never closed this takes an invariant: the reader remembers where the bracket stands from
when it took it.

## Main results

* `SetRule.AtFault.unique` — there is one token at fault at most.
* `Reading.viable_of_after`, `Reading.not_viable_of_step` — the reader gets as far as the
  tokens begin a set rule, and no further.
* `Reading.open_after` — the bracket that the reader is in is one of the tokens it took.
* `SetRule.parse_error_place` — the error tells the token at fault, but tells its place only
  if it is not in place of the target. No error is out of the source.
-/

namespace MarkupPreview

open ArgToken (Located)

/-! ## The token at fault -/

namespace SetRule

/-- Tokens that some set rule begins with. -/
def Viable (tokens : List ArgToken) : Prop := ∃ behind rule, Derives (tokens ++ behind) rule

/-- The token at fault: the first with which no set rule goes on, or none if all the
tokens begin a set rule and only its end is missing. -/
inductive AtFault (tokens : List Located) : Option Located → Prop
  | token {front back : List Located} {located : Located}
      (hsplit : tokens = front ++ located :: back) (hfront : Viable (front.map (·.token)))
      (hfault : ¬ Viable (front.map (·.token) ++ [located.token])) :
      AtFault tokens (some located)
  | ending (hviable : Viable (tokens.map (·.token))) : AtFault tokens none

/-- Where a token starts, or where the tokens end if it is missing. -/
def placeOf (tokens : List Located) : Option Located → Nat
  | some located => located.start
  | none => endOf tokens

/-- If tokens begin a set rule, the first of them do. -/
theorem Viable.of_append {front back : List ArgToken} (h : Viable (front ++ back)) :
    Viable front := by
  obtain ⟨behind, rule, hrule⟩ := h
  rw [List.append_assoc] at hrule
  exact ⟨back ++ behind, rule, hrule⟩

theorem not_viable_append_cons {front : List Located} {located : Located}
    (h : ¬ Viable (front.map (·.token) ++ [located.token])) (back : List Located) :
    ¬ Viable ((front ++ located :: back).map (·.token)) := by
  intro hviable
  rw [List.append_cons, List.map_append, List.map_append] at hviable
  exact h hviable.of_append

/-- No token at fault comes behind another. -/
theorem eq_of_not_viable {front back more behind : List Located} {located other : Located}
    (hsplit : located :: back = more ++ other :: behind)
    (hfault : ¬ Viable (front.map (·.token) ++ [located.token]))
    (hviable : Viable ((front ++ more).map (·.token))) : located = other := by
  cases more with
  | nil => exact (List.cons.inj hsplit).1
  | cons first more =>
      obtain ⟨rfl, -⟩ := List.cons.inj hsplit
      exact absurd hviable (not_viable_append_cons hfault more)

/-- There is one token at fault at most, and none if only the end is missing. -/
theorem AtFault.unique {tokens : List Located} {fault other : Option Located}
    (h : AtFault tokens fault) (hother : AtFault tokens other) : fault = other := by
  cases h with
  | ending hviable =>
      cases hother with
      | ending _ => rfl
      | token hsplit _ hfault =>
          exact absurd (hsplit ▸ hviable) (not_viable_append_cons hfault _)
  | token hsplit hfront hfault =>
      cases hother with
      | ending hviable => exact absurd (hsplit ▸ hviable) (not_viable_append_cons hfault _)
      | token hsplit' hfront' hfault' =>
          rcases List.append_eq_append_iff.mp (hsplit.symm.trans hsplit') with
            ⟨more, rfl, hback⟩ | ⟨more, rfl, hback⟩
          · exact congrArg some (eq_of_not_viable hback hfault hfront')
          · exact congrArg some (eq_of_not_viable hback hfault' hfront).symm

theorem viable_nil : Viable [] :=
  ⟨[.name [], .openParen, .closeParen], ⟨[], []⟩, [.closeParen], [], rfl, .close⟩

/-- A set rule begins with its target. -/
theorem not_viable_of_head {token : ArgToken} (h : ∀ target, token ≠ .name target) :
    ¬ Viable [token] := by
  rintro ⟨behind, rule, list, rest, htokens, -⟩
  exact h rule.target (List.cons.inj htokens).1

end SetRule

/-! ## As far as it goes -/

namespace Reading

theorem readArguments_append {position : Nat} {reading next : Reading} {front : List Located}
    (h : reading.after front = .ok next) (back : List Located) :
    readArguments position reading (front ++ back) = readArguments position next back := by
  induction front generalizing reading with
  | nil =>
      obtain rfl : reading = next := Except.ok.inj h
      rfl
  | cons located front ih =>
      obtain ⟨middle, hstep, hafter⟩ := exists_of_after_cons h
      rw [List.cons_append, readArguments_cons, hstep]
      exact ih hafter

/-- A parenthesis can be closed: an atom completes whatever argument was being read. -/
theorem readArguments_close (position : Nat) (frame : Frame) (outer : List Frame)
    (coming : List Located) :
    readArguments position (arguments frame outer)
        (⟨.other, 0, 0⟩ :: ⟨.closeParen, 0, 0⟩ :: coming) =
      readArguments position (closeInto (frame.addAtom .other).addArgument.arguments outer)
        coming := by
  have hatoms : (frame.addAtom .other).atoms ≠ [] := by simp [Frame.addAtom]
  rw [readArguments_cons, step, stepArguments, Except.bind, readArguments_cons, step,
    stepArguments, Frame.close_of_ne_nil hatoms]
  rfl

/-- So can all that are open, the innermost first. -/
theorem exists_completion_arguments (position : Nat) (frame : Frame) (outer : List Frame) :
    ∃ coming closed, readArguments position (arguments frame outer) coming = .ok closed := by
  induction outer generalizing frame with
  | nil => exact ⟨_, _, readArguments_close position frame [] []⟩
  | cons next outer ih =>
      obtain ⟨coming, closed, hread⟩ :=
        ih (next.addAtom (.group (frame.addAtom .other).addArgument.arguments))
      exact ⟨_, closed, (readArguments_close position frame (next :: outer) coming).trans hread⟩

/-- Whatever has been read, some tokens bring it to an end. -/
theorem exists_completion (position : Nat) (reading : Reading) :
    ∃ coming closed, readArguments position reading coming = .ok closed := by
  cases reading with
  | arguments frame outer => exact exists_completion_arguments position frame outer
  | content start depth frame outer =>
      induction depth with
      | zero =>
          obtain ⟨coming, closed, hread⟩ :=
            exists_completion_arguments position (frame.addAtom .content) outer
          exact ⟨⟨.closeBracket, 0, 0⟩ :: coming, closed, hread⟩
      | succ depth ih =>
          obtain ⟨coming, closed, hread⟩ := ih
          exact ⟨⟨.closeBracket, 0, 0⟩ :: coming, closed, hread⟩
  | done closed => exact ⟨[], closed, rfl⟩

/-- Tokens behind which the reader goes on begin a set rule. -/
theorem viable_of_after {front : List Located} {next : Reading}
    (h : (arguments .empty []).after front = .ok next) (target : Text) :
    SetRule.Viable (.name target :: .openParen :: front.map (·.token)) := by
  obtain ⟨coming, closed, hread⟩ := exists_completion 0 next
  rw [← readArguments_append h] at hread
  have hstart : (arguments .empty []).Explains [] := Frame.holds_empty
  obtain ⟨list, rest, hsplit, hlist⟩ := exists_isArguments hstart hread
  refine ⟨coming.map (·.token), ⟨target, closed⟩, list, rest, ?_, hlist⟩
  rw [List.nil_append, List.map_append] at hsplit
  rw [← hsplit]
  rfl

/-- Tokens that are a list of the grammar and more are read, wherever they stand. -/
theorem readArguments_of_map_eq {position : Nat} {located : List Located}
    {list rest : List ArgToken} {closed : List Argument} (hlist : IsArguments list closed)
    (htokens : located.map (·.token) = list ++ rest) :
    readArguments position (arguments .empty []) located = .ok closed := by
  obtain ⟨front, back, rfl, hfront, -⟩ := List.map_eq_append_iff.mp htokens
  exact (readArguments_of_isArguments hlist hfront [] []).trans
    (readArguments_done position closed back)

/-- No set rule goes on with a token that the reader does not take. -/
theorem not_viable_of_step {front : List Located} {next : Reading} {located : Located}
    {error : SetRuleError} (h : (arguments .empty []).after front = .ok next)
    (hstep : next.step located = .error error) (target : Text) :
    ¬ SetRule.Viable
      (.name target :: .openParen :: front.map (·.token) ++ [located.token]) := by
  rintro ⟨behind, rule, list, rest, htokens, hlist⟩
  -- The grammar does not look at places, so any will do for the tokens behind.
  have hmap : (front ++ located :: behind.map (⟨·, 0, 0⟩)).map (·.token) = list ++ rest := by
    simp only [List.cons_append, List.cons.injEq] at htokens
    rw [← htokens.2.2]
    simp [Function.comp_def]
  have hread : readArguments 0 _ _ = _ := readArguments_of_map_eq hlist hmap
  rw [readArguments_append h, readArguments_cons, hstep] at hread
  cases hread

/-! ## How reading fails -/

variable {position : Nat} {reading : Reading} {error : SetRuleError}

/-- Reading fails at a token, or at the end. -/
theorem exists_of_readArguments_error {tokens : List Located}
    (h : readArguments position reading tokens = .error error) :
    (∃ front located back next, tokens = front ++ located :: back ∧
      reading.after front = .ok next ∧ next.step located = .error error) ∨
    ∃ final, reading.after tokens = .ok final ∧ final.finish position = .error error := by
  induction tokens generalizing reading with
  | nil => exact .inr ⟨reading, rfl, h⟩
  | cons located tokens ih =>
      rw [readArguments_cons] at h
      cases hstep : reading.step located with
      | error found =>
          rw [hstep] at h
          obtain rfl : found = error := Except.error.inj h
          exact .inl ⟨[], located, tokens, reading, rfl, rfl, hstep⟩
      | ok next =>
          rw [hstep] at h
          rcases ih h with ⟨front, other, back, last, rfl, hfront, hlast⟩ | ⟨final, hfinal, hfinish⟩
          · refine .inl ⟨located :: front, other, back, last, rfl, ?_, hlast⟩
            rw [after_cons, hstep]
            exact hfront
          · refine .inr ⟨final, ?_, hfinish⟩
            rw [after_cons, hstep]
            exact hfinal

/-! ## The bracket that is open -/

/-- Where the bracket stands that the reader is in. -/
def open? : Reading → Option Nat
  | content start _ _ _ => some start
  | _ => none

/-- A token opens the bracket, or it was open before. -/
theorem open_step {next : Reading} {located : Located} {start : Nat}
    (h : reading.step located = .ok next) (hopen : next.open? = some start) :
    reading.open? = some start ∨ located.start = start := by
  cases reading with
  | done closed =>
      rw [← Except.ok.inj h] at hopen
      exact .inl hopen
  | content place depth frame outer =>
      left
      rw [← Except.ok.inj h] at hopen
      unfold stepContent at hopen
      split at hopen
      · exact hopen
      · split at hopen
        · cases hopen
        · exact hopen
      · exact hopen
  | arguments frame outer =>
      right
      rw [step, stepArguments] at h
      cases htoken : located.token with
      | openBracket =>
          simp only [htoken] at h
          rw [← Except.ok.inj h] at hopen
          exact Option.some.inj hopen
      | closeParen =>
          simp only [htoken] at h
          obtain ⟨closed, -, rfl⟩ := exists_of_map_eq_ok h
          cases outer <;> cases hopen
      | comma =>
          simp only [htoken] at h
          obtain ⟨changed, -, rfl⟩ := exists_of_map_eq_ok h
          cases hopen
      | colon =>
          simp only [htoken] at h
          obtain ⟨changed, -, rfl⟩ := exists_of_map_eq_ok h
          cases hopen
      | closeBracket => simp [htoken] at h
      | _ =>
          simp only [htoken] at h
          rw [← Except.ok.inj h] at hopen
          cases hopen

/-- The bracket that the reader is in is one of the tokens it took. -/
theorem open_after {final : Reading} {tokens : List Located} {start : Nat}
    (h : reading.after tokens = .ok final) (hopen : final.open? = some start) :
    reading.open? = some start ∨ ∃ located ∈ tokens, located.start = start := by
  induction tokens generalizing reading with
  | nil =>
      obtain rfl : reading = final := Except.ok.inj h
      exact .inl hopen
  | cons located tokens ih =>
      obtain ⟨next, hstep, hafter⟩ := exists_of_after_cons h
      rcases ih hafter with hnext | ⟨found, hmem, hstart⟩
      · exact (open_step hstep hnext).imp_right fun hstart =>
          ⟨located, List.mem_cons_self, hstart⟩
      · exact .inr ⟨found, List.mem_cons_of_mem _ hmem, hstart⟩

/-- What ends too early is told at its end, but for a bracket, which is told where it
stands. No token is unexpected there. -/
theorem error_of_finish (h : reading.finish position = .error error) :
    (∃ name, error = .missingValue position name) ∨ error = .unclosedGroup position ∨
      ∃ start, reading.open? = some start ∧ error = .unclosedGroup start := by
  cases reading with
  | done closed => cases h
  | content start depth frame outer =>
      exact .inr (.inr ⟨start, rfl, (Except.error.inj h).symm⟩)
  | arguments frame outer =>
      rw [← Except.error.inj h, Frame.atEnd]
      split
      · exact .inl ⟨_, rfl⟩
      · exact .inr (.inl rfl)

end Reading

/-! ## Set rules -/

namespace SetRule

variable {source : Text} {error : SetRuleError}

/-- A set rule goes wrong among its arguments, for want of them, or at its target. -/
theorem parse_error_cases (h : parse source = .error error) :
    (∃ target start stop start' stop' rest,
      ArgToken.lex source = ⟨.name target, start, stop⟩ :: ⟨.openParen, start', stop'⟩ :: rest ∧
      readArguments (endOf (ArgToken.lex source)) (.arguments .empty []) rest = .error error) ∨
    (∃ target, error = .missingArguments target) ∨
    (∀ located ∈ (ArgToken.lex source).head?, ∀ target, located.token ≠ .name target) ∧
      error = .unexpectedToken
        (((ArgToken.lex source)[1]?.map (·.start)).getD (endOf (ArgToken.lex source))) .target
        ((ArgToken.lex source).head?.map (·.token)) := by
  unfold parse at h
  simp only at h
  split at h
  · rename_i target start stop start' stop' rest htokens
    exact .inl ⟨target, start, stop, start', stop', rest, htokens, eq_error_of_map_eq_error h⟩
  · exact .inr (.inl ⟨_, (Except.error.inj h).symm⟩)
  · rename_i hname
    refine .inr (.inr ⟨?_, (Except.error.inj h).symm⟩)
    rintro ⟨token, start, stop⟩ hhead target rfl
    obtain ⟨rest, htokens⟩ := List.head?_eq_some_iff.mp hhead
    exact hname target start stop rest htokens

/-- The place that is told for a token in place of the target: where the token behind it
starts, or where the tokens end. -/
def placeBehindFirst (tokens : List Located) : Nat :=
  (tokens[1]?.map (·.start)).getD (endOf tokens)

/-- The first token starts in front of that place. -/
theorem start_lt_placeBehindFirst {first : Located} {rest : List Located}
    (h : ArgToken.lex source = first :: rest) :
    first.start < placeBehindFirst (first :: rest) := by
  have hmem : first ∈ ArgToken.lex source := h ▸ List.mem_cons_self
  have hfirst := ArgToken.bounds_lexFrom hmem
  cases rest with
  | nil =>
      show first.start < first.stop
      exact hfirst.2.1
  | cons second rest =>
      have hpairwise := ArgToken.pairwise_lexFrom 0 source
      rw [← ArgToken.lex, h] at hpairwise
      have hapart : first.stop ≤ second.start :=
        (List.pairwise_cons.mp hpairwise).1 second List.mem_cons_self
      show first.start < second.start
      omega

theorem isPlace_placeBehindFirst (tokens : List Located) :
    ArgToken.IsPlace tokens (placeBehindFirst tokens) := by
  unfold placeBehindFirst
  cases hsecond : tokens[1]? with
  | none => exact .inr rfl
  | some second => exact .inl ⟨second, List.mem_of_getElem? hsecond, rfl⟩

/-- Among the arguments the place of an error is one among the tokens. -/
theorem isPlace_of_readArguments {tokens rest : List Located} {position : Nat}
    (hrest : ∀ located ∈ rest, located ∈ tokens)
    (h : readArguments (endOf tokens) (.arguments .empty []) rest = .error error)
    (hposition : error.position? = some position) : ArgToken.IsPlace tokens position := by
  rcases Reading.exists_of_readArguments_error h with
    ⟨front, located, back, next, rfl, -, hstep⟩ | ⟨final, hfinal, hfinish⟩
  · have hmem : located ∈ tokens := hrest located (List.mem_append_cons_self)
    rcases Reading.error_of_step hstep with rfl | ⟨name, rfl⟩
    · exact .inl ⟨located, hmem, Option.some.inj hposition⟩
    · exact .inl ⟨located, hmem, Option.some.inj hposition⟩
  · rcases Reading.error_of_finish hfinish with ⟨name, rfl⟩ | rfl | ⟨start, hopen, rfl⟩
    · exact .inr (Option.some.inj hposition).symm
    · exact .inr (Option.some.inj hposition).symm
    · rcases Reading.open_after hfinal hopen with hnone | ⟨located, hmem, hstart⟩
      · cases hnone
      · exact .inl ⟨located, hrest located hmem, hstart.trans (Option.some.inj hposition)⟩

/-- Among the arguments an unexpected token is the one at fault, and is told where it
starts. -/
theorem atFault_of_readArguments {tokens rest : List Located} {target : Text}
    {start stop start' stop' position : Nat} {expected : Expected} {found : Option ArgToken}
    (htokens : tokens = ⟨.name target, start, stop⟩ :: ⟨.openParen, start', stop'⟩ :: rest)
    (h : readArguments (endOf tokens) (.arguments .empty []) rest =
      .error (.unexpectedToken position expected found)) :
    expected = .argumentValue ∧ ∃ located, AtFault tokens (some located) ∧
      found = some located.token ∧ position = located.start := by
  rcases Reading.exists_of_readArguments_error h with
    ⟨front, located, back, next, rfl, hfront, hstep⟩ | ⟨final, -, hfinish⟩
  · rcases Reading.error_of_step hstep with heq | ⟨name, heq⟩
    · cases heq
      have hsplit : tokens =
          (⟨.name target, start, stop⟩ :: ⟨.openParen, start', stop'⟩ :: front) ++
            located :: back := htokens
      exact ⟨rfl, located, .token hsplit (Reading.viable_of_after hfront target)
        (Reading.not_viable_of_step hfront hstep target), rfl, rfl⟩
    · cases heq
  · rcases Reading.error_of_finish hfinish with ⟨name, heq⟩ | heq | ⟨_, -, heq⟩ <;> cases heq

/-- Anything but a name in front of the tokens is at fault, and so is the end if there is
nothing. -/
theorem atFault_head {tokens : List Located}
    (h : ∀ located ∈ tokens.head?, ∀ target, located.token ≠ .name target) :
    AtFault tokens tokens.head? := by
  cases tokens with
  | nil => exact .ending viable_nil
  | cons first rest =>
      have hsplit : first :: rest = [] ++ first :: rest := rfl
      exact .token hsplit viable_nil (not_viable_of_head (h first rfl))

/-- If a set rule is not read for want of another token, the error tells the token at fault,
or the end if nothing is there. It tells where that token starts, or where the tokens end,
unless a target was expected and another token stands there: then it tells the place of
the one behind it. Whatever the error is, its place, if it has one, is in the source, and is
where a token starts or where the last one ends. -/
theorem parse_error_place (h : parse source = .error error) :
    (∀ position expected found, error = .unexpectedToken position expected found →
      ∃ fault, AtFault (ArgToken.lex source) fault ∧ found = fault.map (·.token) ∧
        (position = placeOf (ArgToken.lex source) fault ↔
          (expected = .target → ArgToken.lex source = [])) ∧
        (expected = .target → position = placeBehindFirst (ArgToken.lex source))) ∧
    ∀ position, error.position? = some position →
      position ≤ source.bytes ∧ ArgToken.IsPlace (ArgToken.lex source) position := by
  rcases parse_error_cases h with
    ⟨target, start, stop, start', stop', rest, htokens, hread⟩ | ⟨target, rfl⟩ | ⟨hhead, rfl⟩
  · have hrest : ∀ located ∈ rest, located ∈ ArgToken.lex source := fun located hmem =>
      htokens ▸ List.mem_cons_of_mem _ (List.mem_cons_of_mem _ hmem)
    constructor
    · rintro position expected found rfl
      obtain ⟨rfl, located, hfault, hfound, hposition⟩ := atFault_of_readArguments htokens hread
      exact ⟨some located, hfault, hfound, ⟨nofun, fun _ => hposition⟩, nofun⟩
    · intro position hposition
      have hplace := isPlace_of_readArguments hrest hread hposition
      exact ⟨hplace.le_bytes, hplace⟩
  · exact ⟨nofun, nofun⟩
  · constructor
    · intro position expected found herror
      cases herror
      refine ⟨(ArgToken.lex source).head?, atFault_head hhead, rfl, ?_, fun _ => rfl⟩
      cases htokens : ArgToken.lex source with
      | nil => exact ⟨fun _ _ => rfl, fun _ => rfl⟩
      | cons first rest =>
          have hbehind := start_lt_placeBehindFirst htokens
          constructor
          · intro heq
            have hstart : placeBehindFirst (first :: rest) = first.start := heq
            omega
          · intro hempty
            cases hempty rfl
    · intro position hposition
      obtain rfl : placeBehindFirst (ArgToken.lex source) = position := Option.some.inj hposition
      have hplace := isPlace_placeBehindFirst (ArgToken.lex source)
      exact ⟨hplace.le_bytes, hplace⟩

/-- A bracket that closes nothing is told where it stands. -/
theorem parse_error_place_bracket :
    let source : Text := "a(x: 1pt, ])".toList
    let error := SetRuleError.unexpectedToken 10 .argumentValue (some .closeBracket)
    parse source = .error error ∧
      (∃ fault, AtFault (ArgToken.lex source) fault ∧
        some ArgToken.closeBracket = fault.map (·.token) ∧
        10 = placeOf (ArgToken.lex source) fault) ∧
      10 ≤ source.bytes ∧ ArgToken.IsPlace (ArgToken.lex source) 10 := by
  intro source error
  have herror : (parse source).map SetRule.target = .error error := by decide +kernel
  have hparse : parse source = .error error := eq_error_of_map_eq_error herror
  obtain ⟨htoken, hplace⟩ := parse_error_place hparse
  obtain ⟨fault, hfault, hfound, hposition, -⟩ := htoken 10 .argumentValue _ rfl
  exact ⟨hparse, ⟨fault, hfault, hfound, hposition.mpr nofun⟩, hplace 10 rfl⟩

/-- A number in place of the target is told where the parenthesis behind it stands. -/
theorem number_told_behind :
    let source : Text := " 5(".toList
    ArgToken.lex source = [⟨.number ['5'], 1, 2⟩, ⟨.openParen, 2, 3⟩] ∧
      parse source = .error (.unexpectedToken 2 .target (some (.number ['5']))) ∧
      ∀ located ∈ ArgToken.lex source, located.token = .number ['5'] → located.start ≠ 2 := by
  intro source
  have herror : (parse source).map SetRule.target =
      .error (.unexpectedToken 2 .target (some (.number ['5']))) := by decide +kernel
  exact ⟨by decide +kernel, eq_error_of_map_eq_error herror, by decide +kernel⟩

end SetRule

end MarkupPreview
