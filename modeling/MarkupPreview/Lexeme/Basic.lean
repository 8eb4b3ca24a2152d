import MarkupPreview.Text.Basic

/-!
# Lexemes

A *lexeme* is what a lexer takes off the front of a text in one go. A
recogniser answers with the lexeme and the text after it, or with nothing when
the text does not start with such a lexeme. This module holds the shapes that
the line lexer and the argument lexer share: names, and texts enclosed between
two equal characters.

## Main results

* `name?_append`, `enclosed?_append` — the lexeme and what is left make up the
  text that was read.
* `enclosed?_notMem` — the delimiter does not occur between the delimiters.
-/

namespace MarkupPreview.Lexeme

/-! ## Character classes -/

/-- A letter of the ASCII alphabet or an underscore. -/
def isNameStart (c : Char) : Bool := c.isAlpha || c == '_'

/-- A letter, a digit or an underscore. -/
def isWord (c : Char) : Bool := c.isAlphanum || c == '_'

/-- A letter, a digit, an underscore or a hyphen. -/
def isNamePart (c : Char) : Bool := isWord c || c == '-'

/-- The double and the single quote. -/
def isQuote (c : Char) : Bool := c == '"' || c == '\x27'

/-! ## Names -/

/-- The longest name at the front of a text. -/
def name? : Text → Option (Text × Text)
  | [] => none
  | c :: rest =>
      if isNameStart c then some (c :: rest.takeWhile isNamePart, rest.dropWhile isNamePart)
      else none

theorem name?_append {text name rest : Text} (h : name? text = some (name, rest)) :
    name ++ rest = text := by
  unfold name? at h
  split at h
  · simp at h
  · split at h
    · simp only [Option.some.injEq, Prod.mk.injEq] at h
      obtain ⟨rfl, rfl⟩ := h
      simp
    · simp at h

theorem name?_ne_nil {text name rest : Text} (h : name? text = some (name, rest)) :
    name ≠ [] := by
  unfold name? at h
  split at h
  · simp at h
  · split at h
    · simp only [Option.some.injEq, Prod.mk.injEq] at h
      obtain ⟨rfl, rfl⟩ := h
      simp
    · simp at h

/-! ## Enclosed texts -/

/-- The text between a delimiter at the front and the next one, and what
follows that next one. Without a second delimiter nothing is enclosed. -/
def enclosed? (delimiter : Char) : Text → Option (Text × Text)
  | [] => none
  | c :: rest =>
      if c = delimiter then
        match rest.dropWhile (· != delimiter) with
        | [] => none
        | _ :: after => some (rest.takeWhile (· != delimiter), after)
      else none

theorem enclosed?_append {delimiter : Char} {text body rest : Text}
    (h : enclosed? delimiter text = some (body, rest)) :
    delimiter :: body ++ delimiter :: rest = text := by
  unfold enclosed? at h
  split at h
  · simp at h
  · rename_i c tail
    split at h
    · rename_i hc
      split at h
      · simp at h
      · rename_i d after hdrop
        simp only [Option.some.injEq, Prod.mk.injEq] at h
        obtain ⟨rfl, rfl⟩ := h
        have hd : d = delimiter := by
          have := List.head?_dropWhile_not (· != delimiter) tail
          rw [hdrop] at this
          simpa using this
        subst hc hd
        have := List.takeWhile_append_dropWhile (p := (· != d)) (l := tail)
        rw [hdrop] at this
        simp [this]
    · simp at h

theorem enclosed?_notMem {delimiter : Char} {text body rest : Text}
    (h : enclosed? delimiter text = some (body, rest)) : delimiter ∉ body := by
  unfold enclosed? at h
  split at h
  · simp at h
  · split at h
    · split at h
      · simp at h
      · simp only [Option.some.injEq, Prod.mk.injEq] at h
        obtain ⟨rfl, _⟩ := h
        intro hmem
        have := List.all_eq_true.1 List.all_takeWhile delimiter hmem
        simp at this
    · simp at h

end MarkupPreview.Lexeme
