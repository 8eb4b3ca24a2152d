import MarkupPreview.Directive.SetRule

/-!
# Where the tokens of an argument list stand

The lexer of argument lists counts bytes as it goes, and every token takes up at least one.
So the tokens stand in the order they are found in, none reaches into the next, and none
beyond the source. What is said of a place in an argument list rests on that.

## Main results

* `bounds_lexFrom` — a token is not empty and lies in the text that was read.
* `pairwise_lexFrom` — a token ends before the next one starts.
-/

namespace MarkupPreview

theorem Text.bytes_pos {text : Text} (h : text ≠ []) : 0 < text.bytes := by
  obtain ⟨c, rest, rfl⟩ := List.exists_cons_of_ne_nil h
  have hsize := c.utf8Size_pos
  rw [bytes_cons]
  omega

namespace ArgToken

/-- The bytes of a token and of what follows it are those of the text. -/
theorem bytes_cut (c : Char) (rest : Text) :
    (cut c rest).2.1.bytes + (cut c rest).2.2.bytes = Text.bytes (c :: rest) := by
  rw [← Text.bytes_append, cut_append]

theorem bounds_lexFrom {start : Nat} {source : Text} {located : Located}
    (h : located ∈ lexFrom start source) :
    start ≤ located.start ∧ located.start < located.stop ∧
      located.stop ≤ start + source.bytes := by
  fun_induction lexFrom start source with
  | case1 => cases h
  | case2 start c rest hseparator ih =>
      have hrest := ih h
      rw [Text.bytes_cons]
      omega
  | case3 start c rest hseparator lexeme ih =>
      have hbytes : lexeme.bytes + (cut c rest).2.2.bytes = Text.bytes (c :: rest) :=
        bytes_cut c rest
      have hpos : 0 < lexeme.bytes := Text.bytes_pos (cut_ne_nil c rest)
      rcases List.mem_cons.mp h with rfl | h
      · simp only
        omega
      · have hrest := ih h
        omega

theorem pairwise_lexFrom (start : Nat) (source : Text) :
    (lexFrom start source).Pairwise fun a b => a.stop ≤ b.start := by
  fun_induction lexFrom start source with
  | case1 => exact .nil
  | case2 start c rest hseparator ih => exact ih
  | case3 start c rest hseparator lexeme ih =>
      exact .cons (fun located h => (bounds_lexFrom h).1) ih

/-! ## Places -/

/-- A place among tokens: where one of them starts, or where the last of them ends. -/
def IsPlace (tokens : List Located) (position : Nat) : Prop :=
  (∃ located ∈ tokens, located.start = position) ∨ position = SetRule.endOf tokens

/-- The places among the tokens of a source lie in the source. -/
theorem IsPlace.le_bytes {source : Text} {position : Nat} (h : IsPlace (lex source) position) :
    position ≤ source.bytes := by
  have hinside : ∀ located ∈ lex source, located.start ≤ source.bytes ∧
      located.stop ≤ source.bytes := by
    intro located hmem
    have hbounds := bounds_lexFrom hmem
    omega
  rcases h with ⟨located, hmem, rfl⟩ | rfl
  · exact (hinside located hmem).1
  · unfold SetRule.endOf
    cases hlast : (lex source).getLast? with
    | none => exact Nat.zero_le _
    | some last => exact (hinside last (List.mem_of_getLast? hlast)).2

end ArgToken

end MarkupPreview
