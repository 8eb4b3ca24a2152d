import MarkupPreview.Directive.SetRule
import MarkupPreview.Proofs.BracketBalance

/-!
# Nesting and the bracket balance

The reader of set rules and the bracket balance both follow groups, by different
rules. The reader keeps parentheses and brackets apart: between brackets it does not
look at parentheses, and behind the parenthesis that ends the list it looks at
nothing. The balance takes either kind for the other and sees them all.

So the depth of the reader follows the balance but for what the reader passes over.
A list that has been read to its end has depth zero, and then the balance of its
source is exactly that of the brackets passed over.

## Main results

* `Reading.depth_step` — one token changes the depth by what it opens, if the reader
  sees it.
* `Reading.depth_after` — the same along some tokens.
* `Reading.depth_add_groups` — the same along a whole list.
* `SetRule.balance_of_parse` — the balance of a set rule is that of what its reader
  passes over.
-/

namespace MarkupPreview

theorem exists_of_map_eq_ok {ε α β : Type} {result : Except ε α} {f : α → β} {mapped : β}
    (h : result.map f = .ok mapped) : ∃ value, result = .ok value ∧ f value = mapped := by
  cases result with
  | error error => cases h
  | ok value => exact ⟨value, rfl, Except.ok.inj h⟩

namespace Reading

/-- The number of groups that are open where the reader stands. -/
def depth : Reading → Int
  | arguments _ outer => outer.length + 1
  | content _ nested _ outer => outer.length + nested + 2
  | done _ => 0

/-- What a token opens or closes without the reader seeing it: a parenthesis between
brackets, and anything behind the list. -/
def unseen : Reading → ArgToken → Int
  | arguments _ _, _ => 0
  | content _ _ _ _, .openParen => 1
  | content _ _ _ _, .closeParen => -1
  | content _ _ _ _, _ => 0
  | done _, token => token.opening

/-- What the reader does not see of some tokens, up to the first that it cannot
read. -/
def unseenFrom : Reading → List ArgToken.Located → Int
  | _, [] => 0
  | reading, located :: rest =>
      reading.unseen located.token +
        match reading.step located with
        | .ok next => next.unseenFrom rest
        | .error _ => 0

theorem depth_closeInto (closed : List Argument) (outer : List Frame) :
    (closeInto closed outer).depth = outer.length := by
  cases outer with
  | nil => rfl
  | cons frame outer => simp [closeInto, depth]

theorem depth_stepArguments {frame : Frame} {outer : List Frame} {located : ArgToken.Located}
    {next : Reading} (h : stepArguments frame outer located = .ok next) :
    next.depth = (arguments frame outer).depth + located.token.opening := by
  unfold stepArguments at h
  cases htoken : located.token with
  | closeParen =>
      simp only [htoken] at h
      obtain ⟨closed, -, rfl⟩ := exists_of_map_eq_ok h
      rw [depth_closeInto]
      simp only [depth, ArgToken.opening]
      omega
  | comma =>
      simp only [htoken] at h
      obtain ⟨frame', -, rfl⟩ := exists_of_map_eq_ok h
      simp [depth, ArgToken.opening]
  | colon =>
      simp only [htoken] at h
      obtain ⟨frame', -, rfl⟩ := exists_of_map_eq_ok h
      simp [depth, ArgToken.opening]
  | closeBracket => simp [htoken] at h
  | openBracket =>
      simp only [htoken, Except.ok.injEq] at h
      simp only [← h, depth, ArgToken.opening]
      omega
  | _ =>
      simp only [htoken, Except.ok.injEq] at h
      simp [← h, depth, ArgToken.opening]

theorem depth_stepContent (start nested : Nat) (frame : Frame) (outer : List Frame)
    (token : ArgToken) :
    (stepContent start nested frame outer token).depth =
      (content start nested frame outer).depth + token.opening -
        (content start nested frame outer).unseen token := by
  cases token with
  | closeBracket =>
      cases nested with
      | zero =>
          simp only [stepContent, if_true, depth, unseen, ArgToken.opening]
          omega
      | succ nested =>
          simp only [stepContent, Nat.succ_ne_zero, if_false, depth, unseen, ArgToken.opening]
          omega
  | _ =>
      simp only [stepContent, depth, unseen, ArgToken.opening]
      omega

/-- One token changes the depth by what it opens, if the reader sees it. -/
theorem depth_step {reading next : Reading} {located : ArgToken.Located}
    (h : reading.step located = .ok next) :
    next.depth = reading.depth + located.token.opening - reading.unseen located.token := by
  cases reading with
  | arguments frame outer =>
      have hnext := depth_stepArguments h
      simp only [unseen]
      omega
  | content start nested frame outer =>
      rw [← Except.ok.inj h]
      exact depth_stepContent ..
  | done closed =>
      rw [← Except.ok.inj h]
      simp [depth, unseen]

/-- Where the reader stands behind some tokens. -/
def after (reading : Reading) (tokens : List ArgToken.Located) : Except SetRuleError Reading :=
  tokens.foldlM step reading

theorem after_cons (reading : Reading) (located : ArgToken.Located)
    (rest : List ArgToken.Located) :
    reading.after (located :: rest) = (reading.step located).bind (·.after rest) := by
  rw [after, List.foldlM_cons]
  rfl

theorem exists_of_after_cons {reading final : Reading} {located : ArgToken.Located}
    {rest : List ArgToken.Located} (h : reading.after (located :: rest) = .ok final) :
    ∃ next, reading.step located = .ok next ∧ next.after rest = .ok final := by
  rw [after_cons] at h
  cases hstep : reading.step located with
  | error error =>
      rw [hstep] at h
      cases h
  | ok next =>
      rw [hstep] at h
      exact ⟨next, rfl, h⟩

/-- An argument list is what the reader has read behind its last token. -/
theorem readArguments_eq_after (position : Nat) (reading : Reading)
    (tokens : List ArgToken.Located) :
    readArguments position reading tokens = (reading.after tokens).bind (·.finish position) := by
  induction tokens generalizing reading with
  | nil => rfl
  | cons located rest ih =>
      rw [readArguments_cons, after_cons]
      cases reading.step located with
      | error error => rfl
      | ok next => exact ih next

/-- Some tokens change the depth by what they open, if the reader sees it. -/
theorem depth_after {reading final : Reading} {tokens : List ArgToken.Located}
    (h : reading.after tokens = .ok final) :
    final.depth = reading.depth + ArgToken.groups tokens - reading.unseenFrom tokens := by
  induction tokens generalizing reading with
  | nil =>
      obtain rfl : reading = final := Except.ok.inj h
      rw [ArgToken.groups_nil, unseenFrom, Int.add_zero, Int.sub_zero]
  | cons located rest ih =>
      obtain ⟨next, hstep, hafter⟩ := exists_of_after_cons h
      have hrest := ih hafter
      have hdepth := depth_step hstep
      simp only [ArgToken.groups_cons, unseenFrom, hstep]
      omega

/-- Behind a list that is read to its end the depth is zero. -/
theorem depth_of_finish {reading : Reading} {position : Nat} {closed : List Argument}
    (h : reading.finish position = .ok closed) : reading.depth = 0 := by
  cases reading with
  | arguments frame outer => cases h
  | content start nested frame outer => cases h
  | done closed => rfl

/-- Along a list that is read to its end the depth goes to zero. -/
theorem depth_add_groups {position : Nat} {reading : Reading} {tokens : List ArgToken.Located}
    {closed : List Argument} (h : readArguments position reading tokens = .ok closed) :
    reading.depth + ArgToken.groups tokens = reading.unseenFrom tokens := by
  rw [readArguments_eq_after] at h
  cases hafter : reading.after tokens with
  | error error =>
      rw [hafter] at h
      cases h
  | ok final =>
      rw [hafter] at h
      have hdepth := depth_after hafter
      have hclosed := depth_of_finish h
      omega

end Reading

namespace SetRule

/-- The groups that a set rule leaves open in what its reader passes over: in the
parentheses between brackets, and behind its arguments. -/
def unseenBalance (source : Text) : Int :=
  match ArgToken.lex source with
  | _ :: _ :: rest => (Reading.arguments .empty []).unseenFrom rest
  | _ => 0

/-- The balance of a set rule is that of what its reader passes over. -/
theorem balance_of_parse {source : Text} {rule : SetRule} (h : parse source = .ok rule) :
    ArgToken.balance source = unseenBalance source := by
  rw [ArgToken.balance_eq_groups]
  unfold parse at h
  unfold unseenBalance
  simp only at h
  split at h
  · rename_i target start stop start' stop' rest hlex
    obtain ⟨closed, hread, -⟩ := exists_of_map_eq_ok h
    have hdepth := Reading.depth_add_groups hread
    rw [hlex]
    simp only [ArgToken.groups_cons, ArgToken.opening]
    simp only [Reading.depth, List.length_nil] at hdepth
    omega
  · cases h
  · cases h

end SetRule

end MarkupPreview
