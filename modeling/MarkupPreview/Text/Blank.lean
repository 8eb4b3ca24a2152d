import MarkupPreview.Text.Basic

/-!
# Blank characters and trimming

Which characters are white space is data of the Unicode standard: the
property `White_Space`, a property of twenty-five characters in ten ranges.
The zero-width space, the byte-order mark and the information separators are
not among them.

## Main results

* `trimStart_eq_nil_iff`, `isBlank_iff` — a text trims to nothing exactly when
  all of it is white space.
* `not_isSpace_of_head?_trimStart` — what a trimmed text starts with is not white
  space.
* `trim_append_of_isBlank` — white space at the end does not matter to a trimmed text.
-/

namespace MarkupPreview

/-- The ranges of code points with the property `White_Space`, both ends
included. -/
def spaceRanges : List (Nat × Nat) :=
  [(0x9, 0xD), (0x20, 0x20), (0x85, 0x85), (0xA0, 0xA0), (0x1680, 0x1680),
   (0x2000, 0x200A), (0x2028, 0x2029), (0x202F, 0x202F), (0x205F, 0x205F),
   (0x3000, 0x3000)]

/-- Whether a character is white space. -/
def isSpace (c : Char) : Bool :=
  spaceRanges.any fun range => range.1 ≤ c.toNat && c.toNat ≤ range.2

namespace Text

/-- All of the text is white space. -/
def isBlank (text : Text) : Bool := text.all isSpace

/-- Drops white space from the front. -/
def trimStart (text : Text) : Text := text.dropWhile isSpace

/-- Drops white space from the end. -/
def trimEnd (text : Text) : Text := (text.reverse.dropWhile isSpace).reverse

/-- Drops white space from both ends. -/
def trim (text : Text) : Text := trimEnd (trimStart text)

@[simp] theorem isBlank_nil : isBlank [] = true := rfl

@[simp] theorem isBlank_append (front back : Text) :
    isBlank (front ++ back) = (isBlank front && isBlank back) := by
  simp [isBlank]

theorem isBlank_iff {text : Text} : isBlank text = true ↔ ∀ c ∈ text, isSpace c = true := by
  simp [isBlank]

theorem trimStart_eq_nil_iff {text : Text} : trimStart text = [] ↔ isBlank text = true := by
  induction text with
  | nil => exact iff_of_true rfl rfl
  | cons c rest ih =>
      cases hc : isSpace c with
      | true =>
          rw [trimStart, List.dropWhile_cons_of_pos hc, isBlank, List.all_cons, hc, Bool.true_and]
          exact ih
      | false => simp [trimStart, isBlank, hc]

theorem not_isSpace_of_head?_trimStart {text : Text} {c : Char}
    (h : (trimStart text).head? = some c) : isSpace c = false := by
  have hnot := List.head?_dropWhile_not isSpace text
  rw [← trimStart, h] at hnot
  exact hnot

/-- What trimming the front takes off is blank. -/
theorem exists_blank_append_trimStart (text : Text) :
    ∃ blank, isBlank blank = true ∧ text = blank ++ trimStart text := by
  refine ⟨text.takeWhile isSpace, ?_, (List.takeWhile_append_dropWhile ..).symm⟩
  simp only [isBlank, List.all_eq_true]
  intro c hc
  exact List.all_eq_true.1 (List.all_takeWhile) c hc

/-! ## Trimming -/

theorem trimStart_ne_nil {text : Text} (h : text.isBlank = false) : trimStart text ≠ [] := by
  rw [Ne, trimStart_eq_nil_iff, h]
  exact Bool.false_ne_true

theorem trimStart_append_of_isBlank {blank : Text} (h : blank.isBlank = true) (back : Text) :
    trimStart (blank ++ back) = trimStart back :=
  List.dropWhile_append_of_pos (isBlank_iff.mp h)

theorem trimStart_append_of_not_isBlank {text : Text} (h : text.isBlank = false) (back : Text) :
    trimStart (text ++ back) = trimStart text ++ back := by
  have hne := trimStart_ne_nil h
  rw [trimStart, List.dropWhile_append, if_neg]
  · rfl
  · rwa [List.isEmpty_iff]

theorem isBlank_reverse (text : Text) : isBlank text.reverse = text.isBlank := List.all_reverse

theorem trimEnd_eq_nil_iff {text : Text} : trimEnd text = [] ↔ text.isBlank = true := by
  rw [← isBlank_reverse text, ← trimStart_eq_nil_iff]
  exact List.reverse_eq_nil_iff

theorem trimEnd_ne_nil {text : Text} (h : text.isBlank = false) : trimEnd text ≠ [] := by
  rw [Ne, trimEnd_eq_nil_iff, h]
  exact Bool.false_ne_true

theorem exists_trimEnd_append_blank (text : Text) :
    ∃ blank, isBlank blank = true ∧ text = trimEnd text ++ blank := by
  obtain ⟨blank, hblank, hsplit⟩ := exists_blank_append_trimStart text.reverse
  refine ⟨blank.reverse, by rw [isBlank_reverse, hblank], ?_⟩
  have hreverse := congrArg List.reverse hsplit
  rwa [List.reverse_append, List.reverse_reverse] at hreverse

theorem trimEnd_append_of_isBlank (text : Text) {blank : Text} (h : blank.isBlank = true) :
    trimEnd (text ++ blank) = trimEnd text := by
  rw [trimEnd, trimEnd, List.reverse_append, List.dropWhile_append_of_pos]
  intro c hc
  exact isBlank_iff.mp h c (List.mem_reverse.mp hc)

theorem trimEnd_append_of_not_isBlank (front : Text) {text : Text} (h : text.isBlank = false) :
    trimEnd (front ++ text) = front ++ trimEnd text := by
  have hback : isBlank text.reverse = false := by rw [isBlank_reverse, h]
  have hstart := trimStart_append_of_not_isBlank hback front.reverse
  rw [trimStart, trimStart] at hstart
  rw [trimEnd, trimEnd, List.reverse_append, hstart, List.reverse_append, List.reverse_reverse]

theorem trim_append_of_isBlank (text : Text) {blank : Text} (h : blank.isBlank = true) :
    trim (text ++ blank) = trim text := by
  cases htext : text.isBlank with
  | true =>
      have hall : (text ++ blank).isBlank = true := by rw [isBlank_append, htext, h, Bool.and_self]
      rw [trim, trim, trimStart_eq_nil_iff.mpr hall, trimStart_eq_nil_iff.mpr htext]
  | false =>
      rw [trim, trim, trimStart_append_of_not_isBlank htext, trimEnd_append_of_isBlank _ h]

end Text

end MarkupPreview
