import MarkupPreview.Json.Spelling

/-!
# JSON documents

A document is a JSON text read as far as its grammar goes. The text is cut into
tokens, and the tokens are read one at a time: a stack of *holders* keeps the
arrays and objects that are still open, each with what has been read into it.

## Main results

* `cut?_shorter` — every token takes something off the front of the text.
-/

namespace MarkupPreview.Json

/-! ## Tokens -/

/-- A token of a JSON text. -/
inductive JsonToken where
  | openBrace
  | closeBrace
  | openBracket
  | closeBracket
  | colon
  | comma
  | null
  | boolean (value : Bool)
  | number (numeral : Numeral)
  | string (units : List StringUnit)
deriving DecidableEq, Repr

/-- The characters that separate tokens. -/
def isGap (c : Char) : Bool := c == ' ' || c == '\n' || c == '\t' || c == '\r'

/-- The token at the front of a text, and what follows it. -/
def cut? : Text → Option (JsonToken × Text)
  | '\x7b' :: rest => some (.openBrace, rest)
  | '\x7d' :: rest => some (.closeBrace, rest)
  | '[' :: rest => some (.openBracket, rest)
  | ']' :: rest => some (.closeBracket, rest)
  | ':' :: rest => some (.colon, rest)
  | ',' :: rest => some (.comma, rest)
  | 'n' :: 'u' :: 'l' :: 'l' :: rest => some (.null, rest)
  | 't' :: 'r' :: 'u' :: 'e' :: rest => some (.boolean true, rest)
  | 'f' :: 'a' :: 'l' :: 's' :: 'e' :: rest => some (.boolean false, rest)
  | '"' :: rest => (stringUnits? rest).map fun (units, after) => (.string units, after)
  | text => (numeral? text).map fun (numeral, after) => (.number numeral, after)

theorem cut?_shorter {text rest : Text} {token : JsonToken} (h : cut? text = some (token, rest)) :
    rest.length < text.length := by
  unfold cut? at h
  split at h
  case h_10 tail =>
      simp only [Option.map_eq_some_iff, Prod.mk.injEq] at h
      obtain ⟨⟨_, _⟩, hfound, _, rfl⟩ := h
      exact Nat.lt_succ_of_lt (stringUnits?_shorter hfound)
  case h_11 =>
      simp only [Option.map_eq_some_iff, Prod.mk.injEq] at h
      obtain ⟨⟨_, _⟩, hfound, _, rfl⟩ := h
      exact numeral?_shorter hfound
  all_goals
    simp only [Option.some.injEq, Prod.mk.injEq] at h
    simp only [← h.2, List.length_cons]
    omega

/-- The tokens of a text, if it consists of tokens. -/
def tokens? (text : Text) : Option (List JsonToken) :=
  match text with
  | [] => some []
  | c :: rest =>
      if isGap c then tokens? rest
      else
        match _h : cut? (c :: rest) with
        | none => none
        | some (token, after) => (tokens? after).map (token :: ·)
termination_by text.length
decreasing_by
  · simp
  · exact cut?_shorter _h

/-! ## Documents -/

/-- A JSON text, read as far as its grammar goes. -/
inductive Document where
  | null
  | boolean (value : Bool)
  | number (numeral : Numeral)
  | string (units : List StringUnit)
  | array (items : List Document)
  | object (fields : List (List StringUnit × Document))

/-- An array or an object that is still open, with what has been read into
it. -/
inductive Holder where
  | array (before : List Document)
  | object (before : List (List StringUnit × Document)) (key : List StringUnit)

/-- What has to come next. -/
inductive Expecting where
  /-- A value, or the bracket of an array just opened. -/
  | value (holders : List Holder) (mayClose : Bool)
  /-- A key, or the brace of an object just opened. -/
  | key (before : List (List StringUnit × Document)) (holders : List Holder) (mayClose : Bool)
  /-- The colon behind a key. -/
  | colon (before : List (List StringUnit × Document)) (key : List StringUnit)
    (holders : List Holder)
  /-- A comma or the end of what is open. -/
  | next (complete : Document) (holders : List Holder)

namespace Expecting

/-- A token where a value is expected. -/
def readValue (holders : List Holder) (mayClose : Bool) : JsonToken → Option Expecting
  | .null => some (next .null holders)
  | .boolean truth => some (next (.boolean truth) holders)
  | .number numeral => some (next (.number numeral) holders)
  | .string units => some (next (.string units) holders)
  | .openBracket => some (value (.array [] :: holders) true)
  | .openBrace => some (key [] holders true)
  | .closeBracket =>
      match mayClose, holders with
      | true, .array before :: outer => some (next (.array before) outer)
      | _, _ => none
  | _ => none

/-- A token behind a value. -/
def readNext (complete : Document) : List Holder → JsonToken → Option Expecting
  | .array before :: outer, .comma =>
      some (value (.array (before ++ [complete]) :: outer) false)
  | .array before :: outer, .closeBracket => some (next (.array (before ++ [complete])) outer)
  | .object before held :: outer, .comma =>
      some (key (before ++ [(held, complete)]) outer false)
  | .object before held :: outer, .closeBrace =>
      some (next (.object (before ++ [(held, complete)])) outer)
  | _, _ => none

/-- Reads a token. -/
def step (expecting : Expecting) (token : JsonToken) : Option Expecting :=
  match expecting with
  | value holders mayClose => readValue holders mayClose token
  | key before holders mayClose =>
      match token, mayClose with
      | .string units, _ => some (colon before units holders)
      | .closeBrace, true => some (next (.object before) holders)
      | _, _ => none
  | colon before held holders =>
      match token with
      | .colon => some (value (.object before held :: holders) false)
      | _ => none
  | next complete holders => readNext complete holders token

/-- Reads tokens one after the other, up to the end of the text. -/
def run : Expecting → List JsonToken → Option Document
  | next complete [], [] => some complete
  | _, [] => none
  | expecting, token :: rest => (expecting.step token).bind (run · rest)

end Expecting

namespace Document

/-- Reads a JSON text. -/
def parse? (text : Text) : Option Document :=
  (tokens? text).bind (Expecting.value [] false).run

/-! ## Reading values -/

/-- The text of a string. -/
def text? : Document → Option Text
  | string units => decode? units
  | _ => none

/-- The double of a number. -/
def float? : Document → Option Float
  | number numeral => numeral.toFloat?
  | _ => none

/-- The 64-bit integer of a number. -/
def word64? : Document → Option Nat
  | number numeral => numeral.toWord64?
  | _ => none

/-- The value of the only field with the given name; the inner option is empty
if there is no such field, and the outer if there are two. -/
def only? (name : Text) (fields : List (Text × Document)) : Option (Option Document) :=
  match fields.filter (·.1 == name) with
  | [] => some none
  | [(_, value)] => some (some value)
  | _ => none

/-- Decodes the keys of an object. -/
def decodeKeys? : List (List StringUnit × Document) → Option (List (Text × Document))
  | [] => some []
  | (units, value) :: rest => do
      let key ← decode? units
      let others ← decodeKeys? rest
      return (key, value) :: others

/-- The values of a record with the given fields, each empty if it is missing.
A record is an object, of which other fields are ignored, or an array of values
in the order of the fields, from which the last may be missing. -/
def record? (names : List String) : Document → Option (List (Option Document))
  | object fields => do
      let decoded ← decodeKeys? fields
      names.mapM fun name => only? name.toList decoded
  | array items =>
      if items.length ≤ names.length then
        some (items.map some ++ List.replicate (names.length - items.length) none)
      else none
  | _ => none

end Document

end MarkupPreview.Json
