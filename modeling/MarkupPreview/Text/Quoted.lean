import MarkupPreview.Text.Basic
import MarkupPreview.Text.Hidden

/-!
# Quoted texts

The form in which messages and token listings show a text: in double quotes,
on one line, and with an escape for every character that could not be seen or
would end the quotes.

* `\"`, `\\`, `\t`, `\n`, `\r` and `\0` stand for themselves after a backslash;
* a hidden character is `\u` and its code point in lower-case hexadecimal
  between braces, without leading zeros;
* everything else, the single quote included, is written as it is.
-/

namespace MarkupPreview

/-- A number in lower-case hexadecimal, without leading zeros. -/
def hexDigits (n : Nat) : Text := Nat.toDigits 16 n

namespace Text

/-- A character as it stands inside quotes. -/
def quotedChar (c : Char) : Text :=
  match c with
  | '"' => ['\\', '"']
  | '\\' => ['\\', '\\']
  | '\t' => ['\\', 't']
  | '\n' => ['\\', 'n']
  | '\r' => ['\\', 'r']
  | '\x00' => ['\\', '0']
  | c => if isHidden c then "\\u\x7b".toList ++ hexDigits c.toNat ++ "\x7d".toList else [c]

/-- A text in double quotes, with escapes. -/
def quoted (text : Text) : Text :=
  '"' :: text.flatMap quotedChar ++ ['"']

end Text

end MarkupPreview
