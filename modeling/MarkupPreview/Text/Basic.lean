/-!
# Text

Everything the lexers, the compiler and the preview work on is a *text*: a
list of characters. A list has the recursion that every scanner needs, and
positions are counted on it in the two units that matter here, characters
(`List.length`) and bytes of the UTF-8 encoding (`Text.bytes`).

Lines are separated by the line feed alone: a carriage return is an ordinary
character of the line it ends.

## Main results

* `joinLines_lines` — cutting a text into lines and joining them again loses
  nothing.
* `newline_notMem_of_mem_lines` — no line holds a line feed.
* `bytes_append` — byte lengths add up.
-/

namespace MarkupPreview

/-- A text is the list of its characters. -/
abbrev Text := List Char

namespace Text

/-! ## Bytes -/

/-- Number of bytes in the UTF-8 encoding. -/
def bytes : Text → Nat
  | [] => 0
  | c :: rest => c.utf8Size + bytes rest

@[simp] theorem bytes_nil : bytes [] = 0 := rfl

@[simp] theorem bytes_cons (c : Char) (rest : Text) :
    bytes (c :: rest) = c.utf8Size + bytes rest := rfl

@[simp] theorem bytes_append (front back : Text) :
    bytes (front ++ back) = bytes front + bytes back := by
  induction front with
  | nil => simp
  | cons c rest ih => simp [ih, Nat.add_assoc]

/-! ## Lines -/

/-- The first line of a text, and the lines after it. -/
def splitLines : Text → Text × List Text
  | [] => ([], [])
  | c :: rest =>
      if c = '\n' then ([], (splitLines rest).1 :: (splitLines rest).2)
      else (c :: (splitLines rest).1, (splitLines rest).2)

/-- The lines of a text. There is always at least one, and a text that ends
in a line feed has an empty last line. -/
def lines (text : Text) : List Text :=
  (splitLines text).1 :: (splitLines text).2

/-- Puts a line feed between each line and the next. -/
def joinLines : List Text → Text
  | [] => []
  | line :: rest => line ++ rest.flatMap ('\n' :: ·)

@[simp] theorem lines_nil : lines [] = [[]] := rfl

theorem lines_newline (rest : Text) : lines ('\n' :: rest) = [] :: lines rest := by
  simp [lines, splitLines]

theorem lines_ne_nil (text : Text) : lines text ≠ [] := by
  simp [lines]

theorem joinLines_lines (text : Text) : joinLines (lines text) = text := by
  induction text with
  | nil => rfl
  | cons c rest ih =>
      simp only [lines, joinLines] at ih ⊢
      by_cases hc : c = '\n'
      · simp [splitLines, hc, ih]
      · simp [splitLines, hc, ih]

theorem newline_notMem_of_mem_lines {text line : Text} (h : line ∈ lines text) :
    '\n' ∉ line := by
  induction text generalizing line with
  | nil => simp_all
  | cons c rest ih =>
      by_cases hc : c = '\n'
      · subst hc
        rw [lines_newline] at h
        rcases List.mem_cons.1 h with rfl | h
        · simp
        · exact ih h
      · simp only [lines, splitLines, hc, if_false, List.mem_cons] at h
        rcases h with rfl | h
        · have hfirst : (splitLines rest).1 ∈ lines rest := by simp [lines]
          simpa [Ne.symm hc] using ih hfirst
        · exact ih (by simp [lines, h])

end Text

end MarkupPreview
