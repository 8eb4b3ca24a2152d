import MarkupPreview.Token.Rule

/-!
# Lexing a line

Lexing is local to a line. A line that starts with `=` is one heading token. In
any other line the first rule that matches takes its lexeme, and where none
matches one character is plain text; neighbouring plain pieces are then joined,
and the columns counted off.

The three passes are kept apart: `pieces` cuts the line, `mergePlain` joins
plain text, and `stamp` places the pieces. None of them adds or drops a
character.

## Main results

* `spelling_ofLine` — the tokens of a line make up the line.
* `joinLines_ofSource` — the tokens of a source make up the source.
* `line_of_mem_ofLine` — every token carries the number of its line.
* `onLine_ofLine` — lexing does not depend on the line number.
-/

namespace MarkupPreview

/-- A classified run of characters, not yet placed. -/
structure Piece where
  kind : TokenKind
  text : Text
deriving DecidableEq, Repr

namespace Piece

/-- Cuts a text by the rules; what no rule claims is plain, one character at a
time. -/
def pieces (text : Text) : List Piece :=
  match text with
  | [] => []
  | c :: rest =>
      match _h : firstRule? (c :: rest) with
      | some (kind, lexeme, after) => ⟨kind, lexeme⟩ :: pieces after
      | none => ⟨.plainText, [c]⟩ :: pieces rest
termination_by text.length
decreasing_by
  · exact firstRule?_shorter _h
  · simp

/-- Joins a piece to the pieces after it: plain text runs into plain text. -/
def joinPlain (piece : Piece) : List Piece → List Piece
  | [] => [piece]
  | next :: rest =>
      if piece.kind = .plainText ∧ next.kind = .plainText then
        ⟨.plainText, piece.text ++ next.text⟩ :: rest
      else piece :: next :: rest

/-- Joins neighbouring plain pieces. -/
def mergePlain (pieces : List Piece) : List Piece := pieces.foldr joinPlain []

/-- The pieces of a line. -/
def ofLine : Text → List Piece
  | '=' :: rest => [⟨.heading, '=' :: rest⟩]
  | text => mergePlain (pieces text)

/-- Places pieces one after the other on a line, from a column on. -/
def stamp (line : Nat) : Nat → List Piece → List Token
  | _, [] => []
  | column, piece :: rest =>
      ⟨piece.kind, piece.text, line, column⟩ :: stamp line (column + piece.text.length) rest

/-! ## Nothing is lost -/

/-- The characters of some pieces. -/
def textOf (pieces : List Piece) : Text := pieces.flatMap (·.text)

theorem textOf_pieces (text : Text) : textOf (pieces text) = text := by
  fun_induction pieces text with
  | case1 => rfl
  | case2 c rest kind lexeme after h ih =>
      simp only [textOf, List.flatMap_cons] at ih ⊢
      rw [ih, (firstRule?_append h).1]
  | case3 c rest h ih =>
      simp only [textOf, List.flatMap_cons] at ih ⊢
      rw [ih]
      rfl

theorem textOf_joinPlain (piece : Piece) (rest : List Piece) :
    textOf (joinPlain piece rest) = piece.text ++ textOf rest := by
  unfold joinPlain
  split
  · simp [textOf]
  · split <;> simp [textOf]

theorem textOf_mergePlain (pieces : List Piece) : textOf (mergePlain pieces) = textOf pieces := by
  induction pieces with
  | nil => rfl
  | cons piece rest ih =>
      rw [mergePlain, List.foldr_cons, textOf_joinPlain, ← mergePlain, ih]
      rfl

theorem textOf_ofLine (text : Text) : textOf (ofLine text) = text := by
  unfold ofLine
  split
  · simp [textOf]
  · rw [textOf_mergePlain, textOf_pieces]

theorem spelling_stamp (line column : Nat) (pieces : List Piece) :
    spelling (stamp line column pieces) = textOf pieces := by
  induction pieces generalizing column with
  | nil => rfl
  | cons piece rest ih => simp [stamp, ih, textOf]

end Piece

namespace Token

/-! ## Lines and sources -/

/-- The tokens of a line with the given number. -/
def ofLine (index : Nat) (line : Text) : List Token := Piece.stamp index 0 (Piece.ofLine line)

/-- The tokens of a source, line by line. -/
def ofSource (source : Text) : List (List Token) := source.lines.mapIdx ofLine

theorem spelling_ofLine (index : Nat) (line : Text) : spelling (ofLine index line) = line := by
  rw [ofLine, Piece.spelling_stamp, Piece.textOf_ofLine]

theorem joinLines_ofSource (source : Text) :
    Text.joinLines ((ofSource source).map spelling) = source := by
  have hlines : (ofSource source).map spelling = source.lines := by
    apply List.ext_getElem
    · simp [ofSource]
    · intro i _ _
      simp [ofSource, spelling_ofLine]
  rw [hlines, Text.joinLines_lines]

theorem onLine_stamp (line line' column : Nat) (pieces : List Piece) :
    (Piece.stamp line column pieces).map (onLine line') = Piece.stamp line' column pieces := by
  induction pieces generalizing column with
  | nil => rfl
  | cons piece rest ih => simp [Piece.stamp, onLine, ih]

theorem onLine_ofLine (index index' : Nat) (line : Text) :
    (ofLine index line).map (onLine index') = ofLine index' line :=
  onLine_stamp ..

theorem line_of_mem_ofLine {index : Nat} {line : Text} {token : Token}
    (h : token ∈ ofLine index line) : token.line = index := by
  rw [← onLine_ofLine index index line, List.mem_map] at h
  obtain ⟨_, _, rfl⟩ := h
  rfl

end Token

end MarkupPreview
