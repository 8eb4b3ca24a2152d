import MarkupPreview.Text.Blank
import MarkupPreview.Text.Quoted
import MarkupPreview.Decimal.Form

/-!
# Tokens

A token is a classified run of characters of one source line. It knows its
text, the line it stands on and the column it starts at, both counted from
zero; columns count characters.

## Main results

* `spelling_append` — the text of a line is put together from the texts of its
  tokens.
-/

namespace MarkupPreview

/-- What a token is. -/
inductive TokenKind where
  | keyword
  | functionCall
  | stringLiteral
  | numberLiteral
  | comment
  | emphasisMarkup
  | mathInline
  | heading
  | plainText
deriving DecidableEq, Repr

namespace TokenKind

/-- All kinds. -/
def all : List TokenKind :=
  [keyword, functionCall, stringLiteral, numberLiteral, comment, emphasisMarkup, mathInline,
   heading, plainText]

/-- The word that a listing of tokens shows. -/
def label : TokenKind → String
  | keyword => "keyword"
  | functionCall => "function"
  | stringLiteral => "string"
  | numberLiteral => "number"
  | comment => "comment"
  | emphasisMarkup => "markup"
  | mathInline => "math"
  | heading => "heading"
  | plainText => "text"

/-- The word that stands for the kind in a data file. -/
def key : TokenKind → String
  | keyword => "keyword"
  | functionCall => "function_call"
  | stringLiteral => "string_literal"
  | numberLiteral => "number_literal"
  | comment => "comment"
  | emphasisMarkup => "emphasis_markup"
  | mathInline => "math_inline"
  | heading => "heading"
  | plainText => "plain_text"

/-- The kind that a word of a data file stands for. -/
def ofKey? (word : String) : Option TokenKind := all.find? (·.key == word)

end TokenKind

/-- A classified run of characters of one line. -/
structure Token where
  kind : TokenKind
  text : Text
  line : Nat
  column : Nat
deriving DecidableEq, Repr

namespace Token

/-- Plain text, which is what no rule of the lexer claims. -/
def isPlain (token : Token) : Bool := token.kind == .plainText

/-- Plain text of white space only. -/
def isBlank (token : Token) : Bool := token.isPlain && token.text.isBlank

/-- The same token on another line. -/
def onLine (line : Nat) (token : Token) : Token := { token with line }

/-- The token in a listing: kind, quoted text, and position. -/
def display (token : Token) : Text :=
  token.kind.label.toList ++ ' ' :: token.text.quoted ++ [' ', '@'] ++
    Decimal.natText token.line ++ ':' :: Decimal.natText token.column

end Token

/-- The text of a line, from its tokens. -/
def spelling (tokens : List Token) : Text := tokens.flatMap (·.text)

@[simp] theorem spelling_nil : spelling [] = [] := rfl

@[simp] theorem spelling_cons (token : Token) (rest : List Token) :
    spelling (token :: rest) = token.text ++ spelling rest := rfl

@[simp] theorem spelling_append (front back : List Token) :
    spelling (front ++ back) = spelling front ++ spelling back := by
  simp [spelling]

end MarkupPreview
