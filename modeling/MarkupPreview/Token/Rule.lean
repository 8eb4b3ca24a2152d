import MarkupPreview.Lexeme.Numeral
import MarkupPreview.Token.Basic

/-!
# The rules of the line lexer

Markup inside a line is recognised by eight rules, tried in a fixed order at
each position. A rule looks at the rest of the line and answers with its longest
lexeme there and what follows it.

| rule | lexeme | kind |
|---|---|---|
| `comment` | `//` and everything after it | comment |
| `math` | `$`, no dollar sign, `$` | inline math |
| `keyword` | `#` and a reserved word that no word character follows | keyword |
| `reference` | `#` and a name | function call |
| `call` | a built-in name and white space, directly before `(` | function call |
| `quotation` | a quote, none of the same quote, the same quote | string |
| `number` | a numeral and an optional unit | number |
| `emphasis` | `*` or `_`, at least one other character, the same mark | emphasis |

Only `keyword` and `reference` can both match at one position; the order makes
the keyword win, also where the name would run further (`#set-x`).

## Main results

* `Rule.cut?_append` — a rule takes something off the front and loses nothing.
* `firstRule?_shorter` — so the lexer always moves on.
-/

namespace MarkupPreview

open Lexeme

/-! ## Word lists -/

/-- The words that make a keyword after `#`. -/
def reservedWords : List Text :=
  ["set", "let", "show", "import", "include", "if", "else", "for", "while", "break", "continue",
   "return", "none", "auto", "true", "false"].map String.toList

/-- The function names that are recognised without `#` when a parenthesis
follows. -/
def builtinNames : List Text :=
  ["page", "text", "par", "figure", "table", "image", "box", "block", "grid", "stack", "align",
   "h", "v", "rect", "circle", "line", "path", "polygon", "place", "move", "scale", "rotate",
   "link", "ref", "cite", "footnote", "heading", "outline", "list", "enum", "terms", "raw",
   "code", "emph", "strong", "underline", "strike", "overline", "highlight", "smallcaps", "sub",
   "super", "lorem"].map String.toList

/-- Whether a name is that of a built-in function. -/
def isBuiltin (name : Text) : Bool := builtinNames.contains name

/-! ## The rules -/

/-- The rules for markup inside a line. -/
inductive Rule where
  | comment
  | math
  | keyword
  | reference
  | call
  | quotation
  | number
  | emphasis
deriving DecidableEq, Repr

namespace Rule

/-- The order in which the rules are tried. -/
def order : List Rule := [comment, math, keyword, reference, call, quotation, number, emphasis]

/-- The kind of token that a rule makes. -/
def kind : Rule → TokenKind
  | comment => .comment
  | math => .mathInline
  | keyword => .keyword
  | reference => .functionCall
  | call => .functionCall
  | quotation => .stringLiteral
  | number => .numberLiteral
  | emphasis => .emphasisMarkup

/-- Two slashes take the rest of the line. -/
def comment? : Text → Option (Text × Text)
  | '/' :: '/' :: rest => some ('/' :: '/' :: rest, [])
  | _ => none

/-- A text between two equal marks, marks included. -/
def marked? (mark : Char) (text : Text) : Option (Text × Text) :=
  (enclosed? mark text).map fun (body, rest) => (mark :: body ++ [mark], rest)

/-- A number sign and the run of word characters after it, if that run is a
reserved word. -/
def keyword? : Text → Option (Text × Text)
  | '#' :: rest =>
      if reservedWords.contains (rest.takeWhile isWord) then
        some ('#' :: rest.takeWhile isWord, rest.dropWhile isWord)
      else none
  | _ => none

/-- A number sign and a name. -/
def reference? : Text → Option (Text × Text)
  | '#' :: rest => (name? rest).map fun (name, after) => ('#' :: name, after)
  | _ => none

/-- A built-in name with the white space after it, if a parenthesis comes
next. The parenthesis is not part of the lexeme. -/
def call? (text : Text) : Option (Text × Text) :=
  let name := text.takeWhile Char.isLower
  let after := text.dropWhile Char.isLower
  let rest := after.dropWhile isSpace
  if isBuiltin name && rest.head? == some '(' then
    some (name ++ after.takeWhile isSpace, rest)
  else none

/-- A text in double or in single quotes. -/
def quotation? : Text → Option (Text × Text)
  | [] => none
  | c :: rest => if isQuote c then marked? c (c :: rest) else none

/-- A numeral with its unit. -/
def number? (text : Text) : Option (Text × Text) :=
  (quantity? text).map fun (numeral, unit, rest) => (numeral ++ unitText unit, rest)

/-- Whether a character marks emphasis. -/
def isEmphasisMark (c : Char) : Bool := c == '*' || c == '_'

/-- A text between two stars or two underscores, not empty. -/
def emphasis? : Text → Option (Text × Text)
  | [] => none
  | c :: rest =>
      if isEmphasisMark c && rest.head? != some c then marked? c (c :: rest) else none

/-- The longest lexeme of a rule at the front of a text, and what follows it. -/
def cut? : Rule → Text → Option (Text × Text)
  | comment => comment?
  | math => marked? '$'
  | keyword => keyword?
  | reference => reference?
  | call => call?
  | quotation => quotation?
  | number => number?
  | emphasis => emphasis?

/-! ## Rules lose nothing and take something -/

theorem marked?_append {mark : Char} {text lexeme rest : Text}
    (h : marked? mark text = some (lexeme, rest)) : lexeme ++ rest = text ∧ lexeme ≠ [] := by
  simp only [marked?, Option.map_eq_some_iff, Prod.mk.injEq] at h
  obtain ⟨⟨body, after⟩, hbody, rfl, rfl⟩ := h
  exact ⟨by simpa using enclosed?_append hbody, by simp⟩

theorem cut?_append {rule : Rule} {text lexeme rest : Text}
    (h : rule.cut? text = some (lexeme, rest)) : lexeme ++ rest = text ∧ lexeme ≠ [] := by
  cases rule with
  | comment =>
      simp only [cut?, comment?] at h
      split at h
      · simp only [Option.some.injEq, Prod.mk.injEq] at h
        obtain ⟨rfl, rfl⟩ := h
        simp
      · simp at h
  | math => exact marked?_append h
  | keyword =>
      simp only [cut?, keyword?] at h
      split at h
      · split at h
        · simp only [Option.some.injEq, Prod.mk.injEq] at h
          obtain ⟨rfl, rfl⟩ := h
          simp
        · simp at h
      · simp at h
  | reference =>
      simp only [cut?, reference?] at h
      split at h
      · simp only [Option.map_eq_some_iff, Prod.mk.injEq] at h
        obtain ⟨⟨name, after⟩, hname, rfl, rfl⟩ := h
        exact ⟨by simpa using name?_append hname, by simp⟩
      · simp at h
  | call =>
      simp only [cut?, call?] at h
      split at h
      · rename_i hcall
        simp only [Option.some.injEq, Prod.mk.injEq] at h
        obtain ⟨rfl, rfl⟩ := h
        refine ⟨by rw [List.append_assoc, List.takeWhile_append_dropWhile,
          List.takeWhile_append_dropWhile], ?_⟩
        intro hnil
        rw [List.append_eq_nil_iff] at hnil
        rw [hnil.1] at hcall
        simp [isBuiltin, builtinNames] at hcall
      · simp at h
  | quotation =>
      simp only [cut?, quotation?] at h
      split at h
      · simp at h
      · split at h
        · exact marked?_append h
        · simp at h
  | number =>
      simp only [cut?, number?, Option.map_eq_some_iff, Prod.mk.injEq] at h
      obtain ⟨⟨numeral, unit, after⟩, hquantity, rfl, rfl⟩ := h
      exact ⟨quantity?_append hquantity, by simp [quantity?_ne_nil hquantity]⟩
  | emphasis =>
      simp only [cut?, emphasis?] at h
      split at h
      · simp at h
      · split at h
        · exact marked?_append h
        · simp at h

end Rule

/-! ## The first rule that matches -/

/-- The kind and the lexeme of the first rule that matches at the front of a
text, and what follows. -/
def firstRule? (text : Text) : Option (TokenKind × Text × Text) :=
  Rule.order.findSome? fun rule => (rule.cut? text).map fun cut => (rule.kind, cut)

theorem exists_rule_of_firstRule? {text lexeme rest : Text} {kind : TokenKind}
    (h : firstRule? text = some (kind, lexeme, rest)) :
    ∃ rule : Rule, rule.kind = kind ∧ rule.cut? text = some (lexeme, rest) := by
  obtain ⟨rule, _, hrule⟩ := List.exists_of_findSome?_eq_some h
  simp only [Option.map_eq_some_iff, Prod.mk.injEq] at hrule
  obtain ⟨cut, hcut, hkind, rfl⟩ := hrule
  exact ⟨rule, hkind, hcut⟩

theorem firstRule?_append {text lexeme rest : Text} {kind : TokenKind}
    (h : firstRule? text = some (kind, lexeme, rest)) :
    lexeme ++ rest = text ∧ lexeme ≠ [] := by
  obtain ⟨rule, _, hcut⟩ := exists_rule_of_firstRule? h
  exact Rule.cut?_append hcut

theorem firstRule?_shorter {text lexeme rest : Text} {kind : TokenKind}
    (h : firstRule? text = some (kind, lexeme, rest)) : rest.length < text.length := by
  obtain ⟨rfl, hne⟩ := firstRule?_append h
  have := List.length_pos_iff.2 hne
  simp only [List.length_append]
  omega

end MarkupPreview
