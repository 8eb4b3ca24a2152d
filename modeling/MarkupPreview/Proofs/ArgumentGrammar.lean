import MarkupPreview.Proofs.ReadingDepth

/-!
# The grammar of set rules

The reader of set rules is a machine: it takes a token at a time, holds a frame for
every open parenthesis, and finds out that a name was the name of an argument only at
the colon behind it. What it accepts is said here without the machine, by a grammar.

    Arguments ::= ')' | Argument ')' | Argument ',' Arguments
    Argument  ::= [name ':'] Atom+
    Atom      ::= length | number | string | name | other
                | '(' Arguments | '[' Balanced ']'

`Balanced` tokens have a partner for every bracket; parentheses among them need none.

Soundness looks back: `Reading.Explains` says what the tokens that were taken so far are
in the grammar, frame by frame, and one token keeps that up (`explains_step`).
Completeness looks ahead: a derivation drives the machine over its tokens, whatever
comes behind them (`readArguments_of_isArguments`).

## Main results

* `Reading.exists_isArguments` — what the reader accepts starts with a list of the
  grammar.
* `SetRule.parse_eq_ok_iff_derives` — a set rule is read exactly if the tokens derive it.
* `SetRule.parse_grammar` — and no tokens derive two rules.
-/

namespace MarkupPreview

/-! ## The grammar -/

/-- The tokens of a source, without their places. -/
def ArgToken.tokens (source : Text) : List ArgToken := (lex source).map (·.token)

/-- Tokens in which every bracket has its partner. No other token counts. -/
inductive IsBalanced : List ArgToken → Prop
  | nil : IsBalanced []
  | token {token : ArgToken} {rest : List ArgToken} (hopen : token ≠ .openBracket)
      (hclose : token ≠ .closeBracket) (hrest : IsBalanced rest) : IsBalanced (token :: rest)
  | nested {inner rest : List ArgToken} (hinner : IsBalanced inner) (hrest : IsBalanced rest) :
      IsBalanced (.openBracket :: inner ++ .closeBracket :: rest)

mutual

/-- The tokens of a list, from behind its opening parenthesis up to the closing one. A
comma may follow the last argument. -/
inductive IsArguments : List ArgToken → List Argument → Prop
  | close : IsArguments [.closeParen] []
  | last {tokens : List ArgToken} {argument : Argument} (h : IsArgument tokens argument) :
      IsArguments (tokens ++ [.closeParen]) [argument]
  | comma {tokens rest : List ArgToken} {argument : Argument} {others : List Argument}
      (h : IsArgument tokens argument) (hrest : IsArguments rest others) :
      IsArguments (tokens ++ .comma :: rest) (argument :: others)

/-- The tokens of an argument, with or without a name. -/
inductive IsArgument : List ArgToken → Argument → Prop
  | positional {tokens : List ArgToken} {atoms : List Atom} (h : AreAtoms tokens atoms) :
      IsArgument tokens ⟨none, atoms⟩
  | named {name : Text} {tokens : List ArgToken} {atoms : List Atom} (h : AreAtoms tokens atoms) :
      IsArgument (.name name :: .colon :: tokens) ⟨some name, atoms⟩

/-- The tokens of one atom or more. -/
inductive AreAtoms : List ArgToken → List Atom → Prop
  | single {tokens : List ArgToken} {atom : Atom} (h : IsAtom tokens atom) :
      AreAtoms tokens [atom]
  | cons {tokens rest : List ArgToken} {atom : Atom} {others : List Atom} (h : IsAtom tokens atom)
      (hrest : AreAtoms rest others) : AreAtoms (tokens ++ rest) (atom :: others)

/-- The tokens of an atom. -/
inductive IsAtom : List ArgToken → Atom → Prop
  | length (literal : Text) : IsAtom [.length literal] (.ofLengthLiteral literal)
  | number (literal : Text) : IsAtom [.number literal] (.ofNumberLiteral literal)
  | text (body : Text) : IsAtom [.text body] (.text body)
  | ident (name : Text) : IsAtom [.name name] (.ident name)
  | other : IsAtom [.other] .other
  | group {tokens : List ArgToken} {arguments : List Argument} (h : IsArguments tokens arguments) :
      IsAtom (.openParen :: tokens) (.group arguments)
  | content {tokens : List ArgToken} (h : IsBalanced tokens) :
      IsAtom (.openBracket :: tokens ++ [.closeBracket]) .content

end

/-- The tokens start with the target of a rule and its arguments in parentheses. Anything
may come behind them. -/
def SetRule.Derives (tokens : List ArgToken) (rule : SetRule) : Prop :=
  ∃ list rest, tokens = .name rule.target :: .openParen :: (list ++ rest) ∧
    IsArguments list rule.arguments

/-! ## Tokens put together -/

theorem IsBalanced.append {front back : List ArgToken} (h : IsBalanced front)
    (hback : IsBalanced back) : IsBalanced (front ++ back) := by
  induction h with
  | nil => exact hback
  | token hopen hclose _ ih => exact .token hopen hclose ih
  | nested hinner _ _ ih =>
      rw [List.append_assoc, List.cons_append]
      exact .nested hinner ih

theorem AreAtoms.append {front back : List ArgToken} {atoms others : List Atom}
    (h : AreAtoms front atoms) (hback : AreAtoms back others) :
    AreAtoms (front ++ back) (atoms ++ others) :=
  match h with
  | .single h => .cons h hback
  | .cons h hrest => by
      rw [List.append_assoc, List.cons_append]
      exact .cons h (hrest.append hback)

/-! ## What has been read is in the grammar -/

/-- Tokens in front of a list that put arguments in front of the others. -/
def PutsBefore (tokens : List ArgToken) (arguments : List Argument) : Prop :=
  ∀ list others, IsArguments list others → IsArguments (tokens ++ list) (arguments ++ others)

theorem PutsBefore.comma {front tokens : List ArgToken} {arguments : List Argument}
    {argument : Argument} (h : PutsBefore front arguments)
    (hargument : IsArgument tokens argument) :
    PutsBefore (front ++ tokens ++ [.comma]) (arguments ++ [argument]) := by
  intro list others hlist
  simpa using h _ _ (.comma hargument hlist)

/-- The tokens of some atoms, or none. -/
def AtomsSoFar (tokens : List ArgToken) (atoms : List Atom) : Prop :=
  tokens = [] ∧ atoms = [] ∨ AreAtoms tokens atoms

theorem AtomsSoFar.add {tokens added : List ArgToken} {atoms : List Atom} {atom : Atom}
    (h : AtomsSoFar tokens atoms) (hatom : IsAtom added atom) :
    AreAtoms (tokens ++ added) (atoms ++ [atom]) := by
  rcases h with ⟨rfl, rfl⟩ | h
  · exact .single hatom
  · exact h.append (.single hatom)

theorem AtomsSoFar.areAtoms {tokens : List ArgToken} {atoms : List Atom}
    (h : AtomsSoFar tokens atoms) (hne : atoms ≠ []) : AreAtoms tokens atoms :=
  h.resolve_left fun hnone => hne hnone.2

/-- Only a name is read as the atom of a name. -/
theorem eq_of_isAtom_ident {tokens : List ArgToken} {name : Text} {atom : Atom}
    (h : IsAtom tokens atom) (hatom : atom = .ident name) : tokens = [.name name] := by
  cases h with
  | length literal =>
      unfold Atom.ofLengthLiteral at hatom
      split at hatom <;> cases hatom
  | number literal =>
      unfold Atom.ofNumberLiteral at hatom
      split at hatom <;> cases hatom
  | ident found =>
      cases hatom
      rfl
  | _ => cases hatom

theorem AtomsSoFar.eq_of_ident {tokens : List ArgToken} {name : Text}
    (h : AtomsSoFar tokens [.ident name]) : tokens = [.name name] := by
  cases h.areAtoms (List.cons_ne_nil _ _) with
  | single hatom => exact eq_of_isAtom_ident hatom rfl
  | cons _ hrest => cases hrest

/-- The tokens of an argument of which the atoms are not complete. -/
def ArgumentSoFar (tokens : List ArgToken) : Option Text → List Atom → Prop
  | none, atoms => AtomsSoFar tokens atoms
  | some name, atoms => ∃ value, tokens = .name name :: .colon :: value ∧ AtomsSoFar value atoms

theorem ArgumentSoFar.add {tokens added : List ArgToken} {name : Option Text} {atoms : List Atom}
    {atom : Atom} (h : ArgumentSoFar tokens name atoms) (hatom : IsAtom added atom) :
    ArgumentSoFar (tokens ++ added) name (atoms ++ [atom]) := by
  cases name with
  | none => exact .inr (AtomsSoFar.add h hatom)
  | some name =>
      obtain ⟨value, rfl, hvalue⟩ := h
      exact ⟨value ++ added, rfl, .inr (hvalue.add hatom)⟩

theorem ArgumentSoFar.isArgument {tokens : List ArgToken} {name : Option Text} {atoms : List Atom}
    (h : ArgumentSoFar tokens name atoms) (hne : atoms ≠ []) : IsArgument tokens ⟨name, atoms⟩ := by
  cases name with
  | none => exact .positional (AtomsSoFar.areAtoms h hne)
  | some name =>
      obtain ⟨value, rfl, hvalue⟩ := h
      exact .named (hvalue.areAtoms hne)

namespace Frame

/-- The tokens behind an opening parenthesis that its frame stands for: the arguments that
are complete, with a comma behind each, and the one being read. -/
def Holds (frame : Frame) (tokens : List ArgToken) : Prop :=
  ∃ front current, tokens = front ++ current ∧ PutsBefore front frame.arguments ∧
    ArgumentSoFar current frame.name frame.atoms

variable {frame : Frame} {tokens : List ArgToken}

theorem holds_empty : empty.Holds [] :=
  ⟨[], [], rfl, fun _ _ hlist => hlist, .inl ⟨rfl, rfl⟩⟩

theorem Holds.addAtom {added : List ArgToken} {atom : Atom} (h : frame.Holds tokens)
    (hatom : IsAtom added atom) : (frame.addAtom atom).Holds (tokens ++ added) := by
  obtain ⟨front, current, rfl, hfront, hcurrent⟩ := h
  exact ⟨front, current ++ added, List.append_assoc .., hfront, hcurrent.add hatom⟩

theorem Holds.comma {position : Nat} {next : Frame} (h : frame.Holds tokens)
    (hnext : frame.comma position = .ok next) : next.Holds (tokens ++ [.comma]) := by
  obtain ⟨front, current, rfl, hfront, hcurrent⟩ := h
  unfold Frame.comma at hnext
  split at hnext
  · cases hnext
  · rename_i hatoms
    cases hnext
    have hargument := hcurrent.isArgument (by simpa using hatoms)
    exact ⟨front ++ current ++ [.comma], [], by simp, hfront.comma hargument, .inl ⟨rfl, rfl⟩⟩

theorem Holds.colon {position : Nat} {next : Frame} (h : frame.Holds tokens)
    (hnext : frame.colon position = .ok next) : next.Holds (tokens ++ [.colon]) := by
  obtain ⟨front, current, rfl, hfront, hcurrent⟩ := h
  unfold Frame.colon at hnext
  split at hnext
  · rename_i name hname hatoms
    cases hnext
    rw [hname, hatoms] at hcurrent
    obtain rfl := AtomsSoFar.eq_of_ident hcurrent
    exact ⟨front, [.name name, .colon], by simp, hfront, [], rfl, .inl ⟨rfl, rfl⟩⟩
  · cases hnext

theorem Holds.close {position : Nat} {closed : List Argument} (h : frame.Holds tokens)
    (hclosed : frame.close position = .ok closed) :
    IsArguments (tokens ++ [.closeParen]) closed := by
  obtain ⟨front, current, rfl, hfront, hcurrent⟩ := h
  unfold Frame.close at hclosed
  split at hclosed
  · rename_i hname hatoms
    cases hclosed
    rw [hname, hatoms] at hcurrent
    -- Behind a comma, or behind the opening parenthesis, no argument was begun.
    obtain ⟨rfl, -⟩ | hnone := hcurrent
    · simpa using hfront _ _ .close
    · cases hnone
  · cases hclosed
  · rename_i hatoms
    cases hclosed
    have hargument := hcurrent.isArgument (by simp [hatoms])
    rw [List.append_assoc]
    exact hfront _ _ (.last hargument)

end Frame

/-- Tokens between brackets, with this many brackets open among them. -/
def Unclosed : Nat → List ArgToken → Prop
  | 0, tokens => IsBalanced tokens
  | depth + 1, tokens =>
      ∃ front back, tokens = front ++ .openBracket :: back ∧ Unclosed depth front ∧ IsBalanced back

theorem Unclosed.append {depth : Nat} {tokens back : List ArgToken} (h : Unclosed depth tokens)
    (hback : IsBalanced back) : Unclosed depth (tokens ++ back) := by
  cases depth with
  | zero => exact IsBalanced.append h hback
  | succ depth =>
      obtain ⟨front, inner, rfl, hfront, hinner⟩ := h
      exact ⟨front, inner ++ back, by simp, hfront, hinner.append hback⟩

namespace Reading

/-- The tokens that open frames stand for, the innermost frame first. -/
def StackHolds (frame : Frame) : List Frame → List ArgToken → Prop
  | [], tokens => frame.Holds tokens
  | next :: outer, tokens =>
      ∃ before inner, tokens = before ++ .openParen :: inner ∧ frame.Holds inner ∧
        StackHolds next outer before

theorem StackHolds.addAtom {frame : Frame} {outer : List Frame} {tokens added : List ArgToken}
    {atom : Atom} (h : StackHolds frame outer tokens) (hatom : IsAtom added atom) :
    StackHolds (frame.addAtom atom) outer (tokens ++ added) := by
  cases outer with
  | nil => exact Frame.Holds.addAtom h hatom
  | cons next outer =>
      obtain ⟨before, inner, rfl, hinner, hbefore⟩ := h
      exact ⟨before, inner ++ added, by simp, hinner.addAtom hatom, hbefore⟩

/-- A token that the innermost frame takes leaves the frames around it alone. -/
theorem StackHolds.of_frame {frame next : Frame} {outer : List Frame} {tokens : List ArgToken}
    {token : ArgToken} (h : StackHolds frame outer tokens)
    (hnext : ∀ inner, frame.Holds inner → next.Holds (inner ++ [token])) :
    StackHolds next outer (tokens ++ [token]) := by
  cases outer with
  | nil => exact hnext _ h
  | cons around outer =>
      obtain ⟨before, inner, rfl, hinner, hbefore⟩ := h
      exact ⟨before, inner ++ [token], by simp, hnext inner hinner, hbefore⟩

/-- What the tokens taken so far are in the grammar. -/
def Explains : Reading → List ArgToken → Prop
  | arguments frame outer, tokens => StackHolds frame outer tokens
  | content _ depth frame outer, tokens =>
      ∃ before inner, tokens = before ++ .openBracket :: inner ∧ Unclosed depth inner ∧
        StackHolds frame outer before
  | done closed, tokens => ∃ list rest, tokens = list ++ rest ∧ IsArguments list closed

theorem explains_closeInto {frame : Frame} {outer : List Frame} {tokens : List ArgToken}
    {position : Nat} {closed : List Argument} (h : StackHolds frame outer tokens)
    (hclosed : frame.close position = .ok closed) :
    (closeInto closed outer).Explains (tokens ++ [.closeParen]) := by
  cases outer with
  | nil => exact ⟨_, [], (List.append_nil _).symm, Frame.Holds.close h hclosed⟩
  | cons next outer =>
      obtain ⟨before, inner, rfl, hinner, hbefore⟩ := h
      have hgroup := hbefore.addAtom (.group (hinner.close hclosed))
      simpa [closeInto, Explains] using hgroup

theorem explains_stepArguments {frame : Frame} {outer : List Frame} {tokens : List ArgToken}
    {located : ArgToken.Located} {next : Reading} (h : StackHolds frame outer tokens)
    (hnext : stepArguments frame outer located = .ok next) :
    next.Explains (tokens ++ [located.token]) := by
  obtain ⟨token, start, stop⟩ := located
  cases token with
  | openParen =>
      cases hnext
      exact ⟨tokens, [], rfl, Frame.holds_empty, h⟩
  | openBracket =>
      cases hnext
      exact ⟨tokens, [], rfl, IsBalanced.nil, h⟩
  | closeParen =>
      obtain ⟨closed, hclosed, rfl⟩ := exists_of_map_eq_ok hnext
      exact explains_closeInto h hclosed
  | comma =>
      obtain ⟨changed, hframe, rfl⟩ := exists_of_map_eq_ok hnext
      exact StackHolds.of_frame h fun _ hinner => hinner.comma hframe
  | colon =>
      obtain ⟨changed, hframe, rfl⟩ := exists_of_map_eq_ok hnext
      exact StackHolds.of_frame h fun _ hinner => hinner.colon hframe
  | closeBracket => cases hnext
  | length literal =>
      cases hnext
      exact StackHolds.addAtom h (.length literal)
  | number literal =>
      cases hnext
      exact StackHolds.addAtom h (.number literal)
  | text body =>
      cases hnext
      exact StackHolds.addAtom h (.text body)
  | name name =>
      cases hnext
      exact StackHolds.addAtom h (.ident name)
  | other =>
      cases hnext
      exact StackHolds.addAtom h .other

/-- Between brackets only brackets count. -/
theorem stepContent_of_ne {token : ArgToken} (hopen : token ≠ .openBracket)
    (hclose : token ≠ .closeBracket) (start depth : Nat) (frame : Frame) (outer : List Frame) :
    stepContent start depth frame outer token = content start depth frame outer := by
  unfold stepContent
  split
  · exact absurd rfl hopen
  · exact absurd rfl hclose
  · rfl

theorem explains_stepContent {start depth : Nat} {frame : Frame} {outer : List Frame}
    {tokens : List ArgToken} (h : (content start depth frame outer).Explains tokens)
    (token : ArgToken) :
    (stepContent start depth frame outer token).Explains (tokens ++ [token]) := by
  obtain ⟨before, inner, rfl, hinner, hbefore⟩ := h
  by_cases hopen : token = .openBracket
  · subst hopen
    exact ⟨before, inner ++ [.openBracket], by simp, ⟨inner, [], rfl, hinner, .nil⟩, hbefore⟩
  · by_cases hclose : token = .closeBracket
    · subst hclose
      cases depth with
      | zero =>
          have hcontent := hbefore.addAtom (.content hinner)
          simpa [stepContent, Explains] using hcontent
      | succ depth =>
          -- The bracket closes the innermost of those that are open between the outer two.
          obtain ⟨front, back, rfl, hfront, hback⟩ := hinner
          have hnested := hfront.append (.nested hback .nil)
          refine ⟨before, front ++ .openBracket :: back ++ [.closeBracket], by simp, ?_, hbefore⟩
          simpa using hnested
    · rw [stepContent_of_ne hopen hclose]
      exact ⟨before, inner ++ [token], by simp, hinner.append (.token hopen hclose .nil), hbefore⟩

/-- One token keeps the explanation up. -/
theorem explains_step {reading next : Reading} {tokens : List ArgToken}
    {located : ArgToken.Located} (h : reading.Explains tokens)
    (hnext : reading.step located = .ok next) : next.Explains (tokens ++ [located.token]) := by
  cases reading with
  | arguments frame outer => exact explains_stepArguments h hnext
  | content start depth frame outer =>
      rw [← Except.ok.inj hnext]
      exact explains_stepContent h located.token
  | done closed =>
      obtain ⟨list, rest, rfl, hlist⟩ := h
      rw [← Except.ok.inj hnext]
      exact ⟨list, rest ++ [located.token], List.append_assoc .., hlist⟩

/-- What the reader accepts starts with a list of the grammar. -/
theorem exists_isArguments {position : Nat} {reading : Reading} {before : List ArgToken}
    {coming : List ArgToken.Located} {closed : List Argument} (h : reading.Explains before)
    (hread : readArguments position reading coming = .ok closed) :
    ∃ list rest, before ++ coming.map (·.token) = list ++ rest ∧ IsArguments list closed := by
  induction coming generalizing reading before with
  | nil =>
      cases reading with
      | arguments frame outer => cases hread
      | content start depth frame outer => cases hread
      | done found =>
          cases hread
          rw [List.map_nil, List.append_nil]
          exact h
  | cons located coming ih =>
      rw [readArguments_cons] at hread
      cases hstep : reading.step located with
      | error error =>
          rw [hstep] at hread
          cases hread
      | ok next =>
          rw [hstep] at hread
          have hrest := ih (explains_step h hstep) hread
          rwa [List.append_assoc] at hrest

end Reading

/-! ## What is in the grammar is read -/

theorem AreAtoms.ne_nil {tokens : List ArgToken} {atoms : List Atom} (h : AreAtoms tokens atoms) :
    atoms ≠ [] := by
  cases h <;> exact List.cons_ne_nil _ _

theorem IsArgument.atoms_ne_nil {tokens : List ArgToken} {argument : Argument}
    (h : IsArgument tokens argument) : argument.atoms ≠ [] := by
  cases h with
  | positional h => exact h.ne_nil
  | named h => exact h.ne_nil

namespace Frame

variable {frame : Frame}

theorem comma_of_ne_nil (h : frame.atoms ≠ []) (position : Nat) :
    frame.comma position = .ok frame.addArgument := by
  simp [Frame.comma, h]

theorem close_of_ne_nil (h : frame.atoms ≠ []) (position : Nat) :
    frame.close position = .ok frame.addArgument.arguments := by
  unfold Frame.close
  split
  · contradiction
  · contradiction
  · rfl

end Frame

/-- A token among others, found with its place. -/
theorem exists_of_map_eq_append_cons {front back : List ArgToken} {token : ArgToken}
    {located : List ArgToken.Located} (h : located.map (·.token) = front ++ token :: back) :
    ∃ before start stop behind, located = before ++ ⟨token, start, stop⟩ :: behind ∧
      before.map (·.token) = front ∧ behind.map (·.token) = back := by
  obtain ⟨before, rest, rfl, hfront, hrest⟩ := List.map_eq_append_iff.mp h
  obtain ⟨⟨_, start, stop⟩, behind, rfl, rfl, hback⟩ := List.map_eq_cons_iff.mp hrest
  exact ⟨before, start, stop, behind, rfl, hfront, hback⟩

theorem exists_of_map_eq_singleton {token : ArgToken} {located : List ArgToken.Located}
    (h : located.map (·.token) = [token]) : ∃ start stop, located = [⟨token, start, stop⟩] := by
  obtain ⟨⟨_, start, stop⟩, rest, rfl, rfl, hrest⟩ := List.map_eq_cons_iff.mp h
  obtain rfl := List.map_eq_nil_iff.mp hrest
  exact ⟨start, stop, rfl⟩

/-- Balanced tokens between brackets are passed over. -/
theorem readArguments_of_isBalanced {position start depth : Nat} {frame : Frame}
    {outer : List Frame} {tokens : List ArgToken} {located coming : List ArgToken.Located}
    (h : IsBalanced tokens) (htokens : located.map (·.token) = tokens) :
    readArguments position (.content start depth frame outer) (located ++ coming) =
      readArguments position (.content start depth frame outer) coming := by
  induction h generalizing depth located coming with
  | nil =>
      obtain rfl := List.map_eq_nil_iff.mp htokens
      rfl
  | token hopen hclose _ ih =>
      obtain ⟨first, others, rfl, rfl, hothers⟩ := List.map_eq_cons_iff.mp htokens
      rw [List.cons_append, readArguments_cons, Reading.step,
        Reading.stepContent_of_ne hopen hclose]
      exact ih hothers
  | nested _ _ ihinner ihrest =>
      obtain ⟨_, _, _, back, rfl, hfront, hback⟩ := exists_of_map_eq_append_cons htokens
      obtain ⟨⟨_, _, _⟩, inner, rfl, rfl, hinner⟩ := List.map_eq_cons_iff.mp hfront
      rw [List.append_assoc]
      exact (ihinner hinner).trans (ihrest hback)

mutual

/-- A list of the grammar hands its arguments to what is around its parentheses. -/
theorem readArguments_of_isArguments {position : Nat} {tokens : List ArgToken}
    {located coming : List ArgToken.Located} {arguments : List Argument}
    (h : IsArguments tokens arguments) (htokens : located.map (·.token) = tokens)
    (before : List Argument) (outer : List Frame) :
    readArguments position (.arguments ⟨before, none, []⟩ outer) (located ++ coming) =
      readArguments position (Reading.closeInto (before ++ arguments) outer) coming := by
  cases h with
  | close =>
      obtain ⟨_, _, rfl⟩ := exists_of_map_eq_singleton htokens
      rw [List.append_nil]
      rfl
  | @last _ argument h =>
      obtain ⟨front, start, _, back, rfl, hfront, hback⟩ := exists_of_map_eq_append_cons htokens
      obtain rfl := List.map_eq_nil_iff.mp hback
      rw [List.append_assoc, readArguments_of_isArgument h hfront, List.singleton_append,
        readArguments_cons, Reading.step, Reading.stepArguments,
        Frame.close_of_ne_nil h.atoms_ne_nil]
      rfl
  | @comma _ _ argument others h hrest =>
      obtain ⟨front, start, _, back, rfl, hfront, hback⟩ := exists_of_map_eq_append_cons htokens
      rw [List.append_assoc, readArguments_of_isArgument h hfront, List.cons_append,
        readArguments_cons, Reading.step, Reading.stepArguments,
        Frame.comma_of_ne_nil h.atoms_ne_nil, List.append_cons]
      exact readArguments_of_isArguments hrest hback (before ++ [argument]) outer

/-- An argument fills a frame in which none was begun. -/
theorem readArguments_of_isArgument {position : Nat} {tokens : List ArgToken}
    {located coming : List ArgToken.Located} {argument : Argument}
    (h : IsArgument tokens argument) (htokens : located.map (·.token) = tokens)
    (before : List Argument) (outer : List Frame) :
    readArguments position (.arguments ⟨before, none, []⟩ outer) (located ++ coming) =
      readArguments position (.arguments ⟨before, argument.name, argument.atoms⟩ outer) coming := by
  cases h with
  | positional h => exact readArguments_of_areAtoms h htokens ⟨before, none, []⟩ outer
  | @named name _ _ h =>
      obtain ⟨⟨_, _, _⟩, rest, rfl, rfl, hrest⟩ := List.map_eq_cons_iff.mp htokens
      obtain ⟨⟨_, _, _⟩, value, rfl, rfl, hvalue⟩ := List.map_eq_cons_iff.mp hrest
      exact readArguments_of_areAtoms h hvalue ⟨before, some name, []⟩ outer

/-- Atoms are added to a frame in their order. -/
theorem readArguments_of_areAtoms {position : Nat} {tokens : List ArgToken}
    {located coming : List ArgToken.Located} {atoms : List Atom}
    (h : AreAtoms tokens atoms) (htokens : located.map (·.token) = tokens)
    (frame : Frame) (outer : List Frame) :
    readArguments position (.arguments frame outer) (located ++ coming) =
      readArguments position (.arguments ⟨frame.arguments, frame.name, frame.atoms ++ atoms⟩ outer)
        coming := by
  cases h with
  | single h => exact readArguments_of_isAtom h htokens frame outer
  | @cons _ _ atom others h hrest =>
      obtain ⟨front, back, rfl, hfront, hback⟩ := List.map_eq_append_iff.mp htokens
      rw [List.append_assoc, readArguments_of_isAtom h hfront, List.append_cons]
      exact readArguments_of_areAtoms hrest hback (frame.addAtom atom) outer

/-- An atom is added to a frame. -/
theorem readArguments_of_isAtom {position : Nat} {tokens : List ArgToken}
    {located coming : List ArgToken.Located} {atom : Atom}
    (h : IsAtom tokens atom) (htokens : located.map (·.token) = tokens)
    (frame : Frame) (outer : List Frame) :
    readArguments position (.arguments frame outer) (located ++ coming) =
      readArguments position (.arguments (frame.addAtom atom) outer) coming := by
  cases h with
  | group h =>
      obtain ⟨⟨_, _, _⟩, inner, rfl, rfl, hinner⟩ := List.map_eq_cons_iff.mp htokens
      exact readArguments_of_isArguments h hinner [] (frame :: outer)
  | content h =>
      obtain ⟨⟨_, _, _⟩, inside, rfl, rfl, hinside⟩ := List.map_eq_cons_iff.mp htokens
      obtain ⟨inner, _, _, back, rfl, hinner, hback⟩ := exists_of_map_eq_append_cons hinside
      obtain rfl := List.map_eq_nil_iff.mp hback
      rw [List.cons_append, List.append_assoc]
      exact readArguments_of_isBalanced h hinner
  | length literal =>
      obtain ⟨_, _, rfl⟩ := exists_of_map_eq_singleton htokens
      rfl
  | number literal =>
      obtain ⟨_, _, rfl⟩ := exists_of_map_eq_singleton htokens
      rfl
  | text body =>
      obtain ⟨_, _, rfl⟩ := exists_of_map_eq_singleton htokens
      rfl
  | ident name =>
      obtain ⟨_, _, rfl⟩ := exists_of_map_eq_singleton htokens
      rfl
  | other =>
      obtain ⟨_, _, rfl⟩ := exists_of_map_eq_singleton htokens
      rfl

end

/-- Behind the last parenthesis nothing changes. -/
theorem readArguments_done (position : Nat) (closed : List Argument)
    (coming : List ArgToken.Located) :
    readArguments position (.done closed) coming = .ok closed := by
  induction coming with
  | nil => rfl
  | cons located coming ih => exact ih

/-! ## Set rules -/

namespace SetRule

variable {source : Text} {rule : SetRule}

theorem derives_of_parse (h : parse source = .ok rule) : Derives (ArgToken.tokens source) rule := by
  unfold parse at h
  simp only at h
  split at h
  · rename_i target _ _ _ _ rest htokens
    obtain ⟨closed, hread, rfl⟩ := exists_of_map_eq_ok h
    have hstart : (Reading.arguments .empty []).Explains [] := Frame.holds_empty
    obtain ⟨list, behind, hsplit, hlist⟩ := Reading.exists_isArguments hstart hread
    refine ⟨list, behind, ?_, hlist⟩
    rw [ArgToken.tokens, htokens, List.map_cons, List.map_cons, ← hsplit]
    rfl
  · cases h
  · cases h

theorem parse_of_derives (h : Derives (ArgToken.tokens source) rule) :
    parse source = .ok rule := by
  obtain ⟨list, behind, htokens, hlist⟩ := h
  obtain ⟨⟨_, _, _⟩, others, hlex, rfl, hothers⟩ := List.map_eq_cons_iff.mp htokens
  obtain ⟨⟨_, _, _⟩, rest, rfl, rfl, hrest⟩ := List.map_eq_cons_iff.mp hothers
  obtain ⟨front, back, rfl, hfront, -⟩ := List.map_eq_append_iff.mp hrest
  have hread : ∀ position, readArguments position (.arguments .empty []) (front ++ back) =
      .ok rule.arguments := fun position =>
    (readArguments_of_isArguments hlist hfront [] []).trans (readArguments_done position _ back)
  unfold parse
  simp only [hlex, hread]
  rfl

theorem parse_eq_ok_iff_derives :
    parse source = .ok rule ↔ Derives (ArgToken.tokens source) rule :=
  ⟨derives_of_parse, parse_of_derives⟩

end SetRule

end MarkupPreview
