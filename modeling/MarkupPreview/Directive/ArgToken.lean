import MarkupPreview.Lexeme.Numeral
import MarkupPreview.Text.Quoted

/-!
# Tokens of an argument list

The arguments of a directive are lexed on their own, over all its lines at
once. Spaces, tabs, carriage returns and line feeds separate tokens and are
skipped; no other white space is. What belongs to no token is a token of its
own kind, `other`: one character, or everything from a quote on that is never
closed.

Positions count the bytes of the source.

## Main results

* `cut_append`, `cut_ne_nil` — a token takes something off the front and loses
  nothing.
-/

namespace MarkupPreview

open Lexeme

/-- A token of an argument list. Strings are kept without their quotes. -/
inductive ArgToken where
  | name (text : Text)
  | text (body : Text)
  | number (literal : Text)
  | length (literal : Text)
  | openParen
  | closeParen
  | openBracket
  | closeBracket
  | colon
  | comma
  | other
deriving DecidableEq, Repr

namespace ArgToken

/-- A token with its place in the source, the end not included. -/
structure Located where
  token : ArgToken
  start : Nat
  stop : Nat
deriving DecidableEq, Repr

/-- The characters that separate tokens. -/
def isSeparator (c : Char) : Bool := c == ' ' || c == '\t' || c == '\r' || c == '\n'

/-- The tokens of a single fixed character. -/
def punctuation? : Char → Option ArgToken
  | '(' => some openParen
  | ')' => some closeParen
  | '[' => some openBracket
  | ']' => some closeBracket
  | ':' => some colon
  | ',' => some comma
  | _ => none

/-- A string at a quote, or everything that is left where the quote is not
closed. -/
def cutQuoted (quote : Char) (rest : Text) : ArgToken × Text × Text :=
  match enclosed? quote (quote :: rest) with
  | some (body, after) => (text body, quote :: body ++ [quote], after)
  | none => (other, quote :: rest, [])

/-- The token at the front of a text that is not empty, with its characters and
what follows them. -/
def cut (c : Char) (rest : Text) : ArgToken × Text × Text :=
  match name? (c :: rest) with
  | some (found, after) => (name found, found, after)
  | none =>
      if isQuote c then cutQuoted c rest
      else match quantity? (c :: rest) with
        | some (numeral, none, after) => (number numeral, numeral, after)
        | some (numeral, some unit, after) =>
            (length (numeral ++ unit.suffix), numeral ++ unit.suffix, after)
        | none => ((punctuation? c).getD other, [c], rest)

theorem cutQuoted_append (quote : Char) (rest : Text) :
    (cutQuoted quote rest).2.1 ++ (cutQuoted quote rest).2.2 = quote :: rest := by
  unfold cutQuoted
  split
  · rename_i body after h
    simpa using enclosed?_append h
  · simp

theorem cut_append (c : Char) (rest : Text) :
    (cut c rest).2.1 ++ (cut c rest).2.2 = c :: rest := by
  unfold cut
  split
  · rename_i found after h
    exact name?_append h
  · split
    · exact cutQuoted_append c rest
    · split
      · rename_i numeral after h
        simpa [unitText] using quantity?_append h
      · rename_i numeral unit after h
        simpa [unitText] using quantity?_append h
      · simp

theorem cut_ne_nil (c : Char) (rest : Text) : (cut c rest).2.1 ≠ [] := by
  unfold cut
  split
  · rename_i found after h
    exact name?_ne_nil h
  · split
    · unfold cutQuoted
      split <;> simp
    · split
      · rename_i numeral after h
        exact quantity?_ne_nil h
      · rename_i numeral unit after h
        simp [quantity?_ne_nil h]
      · simp

theorem cut_shorter (c : Char) (rest : Text) : (cut c rest).2.2.length < (c :: rest).length := by
  have happend := congrArg List.length (cut_append c rest)
  have hpos := List.length_pos_iff.2 (cut_ne_nil c rest)
  rw [List.length_append] at happend
  omega

theorem cut_quote {c : Char} (hquote : isQuote c = true) (rest : Text) :
    cut c rest = cutQuoted c rest := by
  have hname : name? (c :: rest) = none := by
    have hstart : isNameStart c = false := by
      simp only [isQuote, Bool.or_eq_true, beq_iff_eq] at hquote
      rcases hquote with rfl | rfl <;> decide
    simp [name?, hstart]
  simp only [cut, hname, if_pos hquote]

/-- The tokens of a text that starts at the given position. -/
def lexFrom (start : Nat) (source : Text) : List Located :=
  match source with
  | [] => []
  | c :: rest =>
      if isSeparator c then lexFrom (start + c.utf8Size) rest
      else
        let lexeme := (cut c rest).2.1
        ⟨(cut c rest).1, start, start + lexeme.bytes⟩ ::
          lexFrom (start + lexeme.bytes) (cut c rest).2.2
termination_by source.length
decreasing_by
  · simp
  · exact cut_shorter c rest

/-- The tokens of an argument list. -/
def lex (source : Text) : List Located := lexFrom 0 source

/-! ## Open groups -/

/-- What a token adds to the number of open groups. -/
def opening : ArgToken → Int
  | openParen | openBracket => 1
  | closeParen | closeBracket => -1
  | _ => 0

/-- The number of groups a source opens, less the number it closes. Brackets
inside strings do not count. -/
def balance (source : Text) : Int :=
  (lex source).foldl (fun depth located => depth + located.token.opening) 0

/-! ## Tokens in messages -/

/-- A token as a message names it. -/
def describe : ArgToken → Text
  | name found => "Ident(".toList ++ found.quoted ++ [')']
  | text body => "String(".toList ++ body.quoted ++ [')']
  | number literal => "Number(".toList ++ literal.quoted ++ [')']
  | length literal => "Length(".toList ++ literal.quoted ++ [')']
  | openParen => "LParen".toList
  | closeParen => "RParen".toList
  | openBracket => "LBracket".toList
  | closeBracket => "RBracket".toList
  | colon => "Colon".toList
  | comma => "Comma".toList
  | other => "unrecognized character".toList

end ArgToken

end MarkupPreview
