import MarkupPreview.Proofs.ArgumentPatterns
import MarkupPreview.Proofs.ArgumentSpans

/-!
# The tokens of an argument list as a tiling

The tokens of an argument list lie side by side in it, with nothing but separators between
them. `IsTiling` says so of the places of the tokens alone: none of them is empty, they stand
in order, each reads what stands at its place, and a character that none of them covers is
a separator. It does not say how the tokens are found.

Every text has exactly one tiling. A separator at the front of a text belongs to no token,
and any other character is the first of a token that the patterns determine. These two steps
are the recursion of the lexer.

## Main results

* `isTiling_separator`, `IsTiling.cons`, `IsTiling.exists_cons` — a tiling by what stands at
  the front of the text.
* `lex_eq_iff_isTiling` — the tokens of a source are its one tiling.
-/

namespace MarkupPreview

/-! ## Prefixes by bytes -/

namespace Text

theorem eq_nil_of_bytes {text : Text} (h : text.bytes = 0) : text = [] := by
  by_contra hne
  have hpos := bytes_pos hne
  omega

/-- Of two prefixes of a text the one with more bytes goes on with the other. -/
theorem exists_of_bytes_le {front back front' back' : Text}
    (h : front ++ back = front' ++ back') (hle : front.bytes ≤ front'.bytes) :
    ∃ between, front' = front ++ between ∧ back = between ++ back' := by
  rcases List.append_eq_append_iff.mp h with ⟨between, hfront, hback⟩ | ⟨between, rfl, rfl⟩
  · exact ⟨between, hfront, hback⟩
  · rw [bytes_append] at hle
    obtain rfl : between = [] := eq_nil_of_bytes (by omega)
    exact ⟨[], by simp, rfl⟩

end Text

namespace ArgToken

/-! ## Tilings -/

/-- A byte of the source is one of the token's. -/
def Located.Covers (located : Located) (position : Nat) : Prop :=
  located.start ≤ position ∧ position < located.stop

/-- The tokens lie side by side in a text that starts at the given position, and leave only
separators out. -/
structure IsTiling (start : Nat) (text : Text) (tokens : List Located) : Prop where
  nonempty : ∀ located ∈ tokens, located.start < located.stop
  ordered : tokens.Pairwise fun a b => a.stop ≤ b.start
  /-- A token reads the text from its place on. -/
  reads : ∀ located ∈ tokens, ∃ front lexeme rest : Text, front ++ (lexeme ++ rest) = text ∧
    located.start = start + front.bytes ∧ located.stop = start + front.bytes + lexeme.bytes ∧
    Reads lexeme rest located.token
  outside : ∀ (front : Text) (c : Char) (rest : Text), front ++ c :: rest = text →
    (∀ located ∈ tokens, ¬ located.Covers (start + front.bytes)) → isSeparator c = true

variable {start : Nat} {text : Text} {tokens : List Located} {located : Located}

theorem IsTiling.start_le (h : IsTiling start text tokens) (hmem : located ∈ tokens) :
    start ≤ located.start := by
  obtain ⟨front, lexeme, rest, -, hstart, -⟩ := h.reads located hmem
  omega

theorem isTiling_nil : IsTiling start [] tokens ↔ tokens = [] := by
  constructor
  · intro h
    rw [List.eq_nil_iff_forall_not_mem]
    intro located hmem
    obtain ⟨front, lexeme, rest, hsplit, -, -, hreads⟩ := h.reads located hmem
    obtain ⟨c, tail, rfl, -⟩ := hreads.exists_start
    simp at hsplit
  · rintro rfl
    exact ⟨nofun, .nil, nofun, by simp⟩

/-- A separator at the front of a text is in no token. -/
theorem isTiling_separator {c : Char} {rest : Text} (hc : isSeparator c = true) :
    IsTiling start (c :: rest) tokens ↔ IsTiling (start + c.utf8Size) rest tokens := by
  constructor
  · intro h
    refine ⟨h.nonempty, h.ordered, fun located hmem => ?_,
      fun front d behind hsplit hcovers => ?_⟩
    · obtain ⟨front, lexeme, behind, hsplit, hstart, hstop, hreads⟩ := h.reads located hmem
      obtain ⟨d, tail, rfl, hd⟩ := hreads.exists_start
      cases front with
      | nil =>
          -- The token would start with the separator.
          obtain rfl : d = c := (List.cons.inj hsplit).1
          rw [hc] at hd
          cases hd
      | cons first front =>
          obtain ⟨rfl, rfl⟩ := List.cons.inj hsplit
          rw [Text.bytes_cons] at hstart hstop
          exact ⟨front, d :: tail, behind, rfl, by omega, by omega, hreads⟩
    · refine h.outside (c :: front) d behind (by rw [List.cons_append, hsplit]) ?_
      rwa [Text.bytes_cons, ← Nat.add_assoc]
  · intro h
    refine ⟨h.nonempty, h.ordered, fun located hmem => ?_,
      fun front d behind hsplit hcovers => ?_⟩
    · obtain ⟨front, lexeme, behind, rfl, hstart, hstop, hreads⟩ := h.reads located hmem
      refine ⟨c :: front, lexeme, behind, rfl, ?_, ?_, hreads⟩
      · rw [Text.bytes_cons]
        omega
      · rw [Text.bytes_cons]
        omega
    · cases front with
      | nil =>
          obtain rfl : d = c := (List.cons.inj hsplit).1
          exact hc
      | cons first front =>
          obtain ⟨rfl, hrest⟩ := List.cons.inj hsplit
          refine h.outside front d behind hrest ?_
          rwa [Text.bytes_cons, ← Nat.add_assoc] at hcovers

/-- The token at the front of a text, and a tiling of the rest, are a tiling. -/
theorem IsTiling.cons {lexeme rest : Text} {token : ArgToken} (hreads : Reads lexeme rest token)
    (h : IsTiling (start + lexeme.bytes) rest tokens) :
    IsTiling start (lexeme ++ rest) (⟨token, start, start + lexeme.bytes⟩ :: tokens) where
  nonempty := by
    obtain ⟨c, tail, rfl, -⟩ := hreads.exists_start
    have hpos : 0 < Text.bytes (c :: tail) := Text.bytes_pos (List.cons_ne_nil c tail)
    refine List.forall_mem_cons.mpr ⟨?_, h.nonempty⟩
    show start < start + Text.bytes (c :: tail)
    omega
  ordered := List.pairwise_cons.mpr ⟨fun _ hmem => h.start_le hmem, h.ordered⟩
  reads := by
    refine List.forall_mem_cons.mpr ⟨⟨[], lexeme, rest, rfl, rfl, rfl, hreads⟩, ?_⟩
    intro located hmem
    obtain ⟨front, other, behind, rfl, hstart, hstop, hother⟩ := h.reads located hmem
    refine ⟨lexeme ++ front, other, behind, List.append_assoc .., ?_, ?_, hother⟩
    · rw [Text.bytes_append]
      omega
    · rw [Text.bytes_append]
      omega
  outside := by
    intro front c behind hsplit hcovers
    obtain ⟨hfirst, hlater⟩ := List.forall_mem_cons.mp hcovers
    have hle : lexeme.bytes ≤ front.bytes := by
      simp only [Located.Covers] at hfirst
      omega
    obtain ⟨between, rfl, rfl⟩ := Text.exists_of_bytes_le hsplit.symm hle
    refine h.outside between c behind rfl ?_
    rwa [Text.bytes_append, ← Nat.add_assoc] at hlater

/-- Where a tiling has a token at the front of a text, it is the one that is read there. -/
theorem IsTiling.eq_of_start {lexeme rest : Text} {token : ArgToken}
    (h : IsTiling start (lexeme ++ rest) tokens) (hreads : Reads lexeme rest token)
    (hmem : located ∈ tokens) (hstart : located.start = start) :
    located = ⟨token, start, start + lexeme.bytes⟩ := by
  obtain ⟨front, other, behind, hsplit, hfront, hstop, hother⟩ := h.reads located hmem
  obtain rfl : front = [] := Text.eq_nil_of_bytes (by omega)
  obtain ⟨rfl, -, rfl⟩ := hreads.unique hother hsplit.symm
  rw [Text.bytes_nil, Nat.add_zero] at hstop
  rw [← hstop, ← hstart]

/-- A token that is read at the front of a text is the first of each of its tilings. -/
theorem IsTiling.exists_cons {lexeme rest : Text} {token : ArgToken}
    (h : IsTiling start (lexeme ++ rest) tokens) (hreads : Reads lexeme rest token) :
    ∃ later, tokens = ⟨token, start, start + lexeme.bytes⟩ :: later ∧
      IsTiling (start + lexeme.bytes) rest later := by
  -- The first character is no separator, so some token covers it, and that one starts there.
  have hcovered : ∃ located ∈ tokens, located.start = start := by
    obtain ⟨c, tail, rfl, hc⟩ := hreads.exists_start
    by_contra hnone
    have hseparator : isSeparator c = true := by
      refine h.outside [] c (tail ++ rest) rfl fun located hmem hcovers => ?_
      refine hnone ⟨located, hmem, ?_⟩
      have hle := h.start_le hmem
      have hcovered : located.start ≤ start := hcovers.1
      omega
    rw [hc] at hseparator
    cases hseparator
  obtain ⟨located, hmem, hstart⟩ := hcovered
  cases tokens with
  | nil => cases hmem
  | cons first later =>
      have hfirst := h.nonempty first List.mem_cons_self
      have hle : start ≤ first.start := h.start_le List.mem_cons_self
      obtain ⟨hbefore, hordered⟩ := List.pairwise_cons.mp h.ordered
      -- No token behind the first can start where the text does.
      have hhead : first.start = start := by
        rcases List.mem_cons.mp hmem with rfl | hlater
        · exact hstart
        · have hstop := hbefore located hlater
          omega
      obtain rfl := h.eq_of_start hreads List.mem_cons_self hhead
      refine ⟨later, rfl, ?_, hordered, fun located hlater => ?_,
        fun front c behind hsplit hcovers => ?_⟩
      · exact fun located hlater => h.nonempty located (List.mem_cons_of_mem _ hlater)
      · have hstart : start + lexeme.bytes ≤ located.start := hbefore located hlater
        obtain ⟨front, other, behind, hsplit, hfront, hstop, hother⟩ :=
          h.reads located (List.mem_cons_of_mem _ hlater)
        obtain ⟨between, rfl, rfl⟩ := Text.exists_of_bytes_le hsplit.symm (by omega)
        rw [Text.bytes_append] at hfront hstop
        exact ⟨between, other, behind, rfl, by omega, by omega, hother⟩
      · refine h.outside (lexeme ++ front) c behind (by rw [List.append_assoc, hsplit]) ?_
        rw [Text.bytes_append, ← Nat.add_assoc]
        refine List.forall_mem_cons.mpr ⟨fun hcovers => ?_, hcovers⟩
        have hlt : start + lexeme.bytes + front.bytes < start + lexeme.bytes := hcovers.2
        omega

/-! ## The lexer tiles -/

theorem lexFrom_eq_iff_isTiling (start : Nat) (text : Text) :
    ∀ tokens, lexFrom start text = tokens ↔ IsTiling start text tokens := by
  fun_induction lexFrom start text with
  | case1 start =>
      intro tokens
      rw [isTiling_nil, eq_comm]
  | case2 start c rest hseparator ih =>
      intro tokens
      rw [ih, isTiling_separator hseparator]
  | case3 start c rest hseparator lexeme ih =>
      intro tokens
      have hreads : Reads lexeme (cut c rest).2.2 (cut c rest).1 :=
        reads_cut (by simpa using hseparator) rest
      rw [← cut_append c rest]
      constructor
      · rintro rfl
        exact .cons hreads ((ih _).mp rfl)
      · intro h
        obtain ⟨later, rfl, hlater⟩ := h.exists_cons hreads
        rw [(ih later).mpr hlater]

/-- The tokens of an argument list are the only ones of which the following holds. None is
empty, and each ends before the next one starts. A character outside them is a space, a tab,
a carriage return or a line feed. A token of a known kind is spelled by the longest prefix,
from its place on, that matches a pattern. A token of no kind is one character at which no
pattern matches, or a quote without a partner and all that is behind it. -/
theorem lex_eq_iff_isTiling (source : Text) (tokens : List Located) :
    lex source = tokens ↔ IsTiling 0 source tokens :=
  lexFrom_eq_iff_isTiling 0 source tokens

/-- Half a unit is a name, a sign without a digit is no token, and a name takes hyphens. -/
example : (lex "12pt 12p -a-b_1 '".toList).map (·.token) =
    [.length "12pt".toList, .number "12".toList, .name ['p'], .other, .name "a-b_1".toList,
      .other] := by
  decide +kernel

end ArgToken

end MarkupPreview
