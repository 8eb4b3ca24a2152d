import MarkupPreview.Directive.ArgToken
import MarkupPreview.Directive.Argument
import MarkupPreview.Decimal.Form

/-!
# Set rules

A set rule is a target and a list of arguments in parentheses:

* arguments are separated by commas, and a comma may follow the last one;
* an argument is an optional name with a colon, and then atoms;
* an atom is a length, a number, a string, a name, a token that is none of
  these, a parenthesised list of arguments, or tokens in balanced brackets.

Anything may follow the closing parenthesis.

The reader takes one token at a time. It holds a `Frame` for every open
parenthesis, innermost first, and inside brackets it only counts their depth.
A colon after a name that stands alone makes that name the name of the
argument, so no token has to be looked at twice.

## Main results

* `readArguments_cons` — reading is one step per token.
-/

namespace MarkupPreview

/-- A target and its arguments. -/
structure SetRule where
  target : Text
  arguments : List Argument

/-! ## Errors -/

/-- What a reader was waiting for when something else came. -/
inductive Expected where
  | target
  | argumentValue
deriving DecidableEq, Repr

/-- Why a source is no set rule. Positions count bytes. -/
inductive SetRuleError where
  /-- Another token stands there, or the end of the source. -/
  | unexpectedToken (position : Nat) (expected : Expected) (found : Option ArgToken)
  /-- A parenthesis or a bracket is never closed. -/
  | unclosedGroup (position : Nat)
  /-- An argument has no atom. Without a name of its own its name is empty. -/
  | missingValue (position : Nat) (name : Text)
  /-- No parenthesis follows the target. -/
  | missingArguments (target : Text)
deriving DecidableEq, Repr

namespace SetRuleError

/-- Where the error is, if it has a place. -/
def position? : SetRuleError → Option Nat
  | unexpectedToken position _ _ => some position
  | unclosedGroup position => some position
  | missingValue position _ => some position
  | missingArguments _ => none

/-- What was expected, in a message. -/
def expectedText : Expected → Text
  | .target => "set target".toList
  | .argumentValue => "argument value".toList

/-- What was found, in a message. -/
def foundText : Option ArgToken → Text
  | some token => token.describe
  | none => "end of directive".toList

/-- The error as a message. -/
def message : SetRuleError → Text
  | unexpectedToken position expected found =>
      "Unexpected token at ".toList ++ Decimal.natText position ++ ": expected ".toList ++
        expectedText expected ++ ", found ".toList ++ foundText found
  | unclosedGroup position =>
      "Unclosed group starting before ".toList ++ Decimal.natText position
  | missingValue position name =>
      "Missing value for argument \x27".toList ++ name ++ "\x27 at ".toList ++
        Decimal.natText position
  | missingArguments target =>
      '\x27' :: target ++ "\x27 has no argument list".toList

end SetRuleError

/-! ## The argument reader -/

/-- An open parenthesis: the arguments read so far, and the name and the atoms
of the one being read. -/
structure Frame where
  arguments : List Argument
  name : Option Text
  atoms : List Atom

namespace Frame

/-- A parenthesis just opened. -/
def empty : Frame := ⟨[], none, []⟩

/-- One more atom of the argument being read. -/
def addAtom (frame : Frame) (atom : Atom) : Frame :=
  { frame with atoms := frame.atoms ++ [atom] }

/-- The argument being read is complete. -/
def addArgument (frame : Frame) : Frame :=
  ⟨frame.arguments ++ [⟨frame.name, frame.atoms⟩], none, []⟩

/-- A comma ends an argument, which has to have an atom. -/
def comma (frame : Frame) (position : Nat) : Except SetRuleError Frame :=
  if frame.atoms.isEmpty then .error (.missingValue position (frame.name.getD []))
  else .ok frame.addArgument

/-- A closing parenthesis ends the argument being read, if one was begun, and
the list. -/
def close (frame : Frame) (position : Nat) : Except SetRuleError (List Argument) :=
  match frame.name, frame.atoms with
  | none, [] => .ok frame.arguments
  | some name, [] => .error (.missingValue position name)
  | _, _ :: _ => .ok frame.addArgument.arguments

/-- A colon turns a name that stands alone into the name of the argument. -/
def colon (frame : Frame) (position : Nat) : Except SetRuleError Frame :=
  match frame.name, frame.atoms with
  | none, [.ident name] => .ok { frame with name := some name, atoms := [] }
  | _, _ => .error (.unexpectedToken position .argumentValue (some .colon))

/-- The source ended inside the list. -/
def atEnd (frame : Frame) (position : Nat) : SetRuleError :=
  match frame.name, frame.atoms with
  | some name, [] => .missingValue position name
  | _, _ => .unclosedGroup position

end Frame

/-- How far an argument list has been read. -/
inductive Reading where
  /-- Inside parentheses: the innermost frame, and those around it. -/
  | arguments (frame : Frame) (outer : List Frame)
  /-- Inside brackets that were opened at `start`, `depth` of them nested in
  each other below the first. -/
  | content (start depth : Nat) (frame : Frame) (outer : List Frame)
  /-- Behind the last parenthesis. -/
  | done (arguments : List Argument)

namespace Reading

/-- Hands the arguments of a closed parenthesis to the frame around it. -/
def closeInto (closed : List Argument) : List Frame → Reading
  | [] => done closed
  | frame :: outer => arguments (frame.addAtom (.group closed)) outer

/-- Reads a token between parentheses. -/
def stepArguments (frame : Frame) (outer : List Frame) (located : ArgToken.Located) :
    Except SetRuleError Reading :=
  match located.token with
  | .openParen => .ok (arguments .empty (frame :: outer))
  | .openBracket => .ok (content located.start 0 frame outer)
  | .closeParen => (frame.close located.start).map (closeInto · outer)
  | .comma => (frame.comma located.start).map (arguments · outer)
  | .colon => (frame.colon located.start).map (arguments · outer)
  | .closeBracket =>
      .error (.unexpectedToken located.start .argumentValue (some .closeBracket))
  | .length literal => .ok (arguments (frame.addAtom (.ofLengthLiteral literal)) outer)
  | .number literal => .ok (arguments (frame.addAtom (.ofNumberLiteral literal)) outer)
  | .text body => .ok (arguments (frame.addAtom (.text body)) outer)
  | .name name => .ok (arguments (frame.addAtom (.ident name)) outer)
  | .other => .ok (arguments (frame.addAtom .other) outer)

/-- Reads a token between brackets. -/
def stepContent (start depth : Nat) (frame : Frame) (outer : List Frame) (token : ArgToken) :
    Reading :=
  match token with
  | .openBracket => content start (depth + 1) frame outer
  | .closeBracket =>
      if depth = 0 then arguments (frame.addAtom .content) outer
      else content start (depth - 1) frame outer
  | _ => content start depth frame outer

/-- Reads a token. Behind the last parenthesis nothing matters any more. -/
def step (reading : Reading) (located : ArgToken.Located) : Except SetRuleError Reading :=
  match reading with
  | arguments frame outer => stepArguments frame outer located
  | content start depth frame outer => .ok (stepContent start depth frame outer located.token)
  | done closed => .ok (done closed)

/-- What has been read when the source ends at the given position. -/
def finish (reading : Reading) (position : Nat) : Except SetRuleError (List Argument) :=
  match reading with
  | arguments frame _ => .error (frame.atEnd position)
  | content start _ _ _ => .error (.unclosedGroup start)
  | done closed => .ok closed

end Reading

/-- Reads tokens one after the other; the source ends at the given position. -/
def readArguments (position : Nat) :
    Reading → List ArgToken.Located → Except SetRuleError (List Argument)
  | reading, [] => reading.finish position
  | reading, located :: rest => (reading.step located).bind (readArguments position · rest)

theorem readArguments_cons (position : Nat) (reading : Reading) (located : ArgToken.Located)
    (rest : List ArgToken.Located) :
    readArguments position reading (located :: rest) =
      (reading.step located).bind (readArguments position · rest) := rfl

/-! ## Reading a set rule -/

namespace SetRule

/-- The end of the last token, or zero without any. -/
def endOf (tokens : List ArgToken.Located) : Nat := (tokens.getLast?.map (·.stop)).getD 0

/-- Reads the text after the keyword. Where no target stands, the error is
placed at the token after the first, or at the end of the last. -/
def parse (source : Text) : Except SetRuleError SetRule :=
  let tokens := ArgToken.lex source
  match tokens with
  | ⟨.name target, _, _⟩ :: ⟨.openParen, _, _⟩ :: rest =>
      (readArguments (endOf tokens) (.arguments .empty []) rest).map (SetRule.mk target)
  | ⟨.name target, _, _⟩ :: _ => .error (.missingArguments target)
  | _ =>
      let position := (tokens[1]?.map (·.start)).getD (endOf tokens)
      .error (.unexpectedToken position .target (tokens.head?.map (·.token)))

/-- The last argument with the given name. -/
def named? (rule : SetRule) (name : Text) : Option Argument :=
  rule.arguments.reverse.find? (·.name == some name)

end SetRule

end MarkupPreview
