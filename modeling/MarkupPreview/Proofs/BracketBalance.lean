import Mathlib.Algebra.Ring.Int.Defs
import MarkupPreview.Block.LineRole
import MarkupPreview.Proofs.InlineText

/-!
# Counting brackets

The balance of a source is defined through the lexer of argument lists. What counts,
though, is one character at a time: a bracket is a token of its own, a string is
passed over as a whole, and no other token holds a bracket or a quote. `scan` counts
so, without lexing, and agrees with the balance.

Over several lines a directive is counted line by line, with the strings that the
line lexer found left out, and it is read as one text with those strings in it. The
two counts agree if the line lexer and the argument lexer see the same strings,
which they do on `QuotesClosed` lines: there every quote belongs to a string or to a
comment.

## Main results

* `balance_eq_scan` — the balance of a source, counted by characters.
* `scan_append` — text without a quote can be counted on its own.
* `balance_joinLines` — the lines of a directive have together the balance of its
  source.
* `sum_lineBalance_eq` — for any run of lines of a source, and both are a plain count of
  brackets.
-/

namespace MarkupPreview

open Lexeme

namespace ArgToken

/-! ## Counting by characters -/

/-- What a character outside strings adds to the number of open groups. -/
def bracket (c : Char) : Int := ((punctuation? c).getD other).opening

/-- The number of groups that a text opens, less the number it closes, if none of it
is in a string. -/
def brackets : Text → Int
  | [] => 0
  | c :: rest => bracket c + brackets rest

/-- The same count with strings passed over. Behind a quote that is never closed
nothing counts. -/
def scan (text : Text) : Int :=
  match text with
  | [] => 0
  | c :: rest =>
      if isQuote c then
        match _h : enclosed? c (c :: rest) with
        | some (_, after) => scan after
        | none => 0
      else bracket c + scan rest
termination_by text.length
decreasing_by
  · have hlength := congrArg List.length (enclosed?_append _h)
    simp only [List.length_append, List.length_cons] at hlength ⊢
    omega
  · simp

@[simp] theorem brackets_nil : brackets [] = 0 := rfl

@[simp] theorem brackets_cons (c : Char) (rest : Text) :
    brackets (c :: rest) = bracket c + brackets rest := rfl

@[simp] theorem brackets_append (front back : Text) :
    brackets (front ++ back) = brackets front + brackets back := by
  induction front with
  | nil => simp
  | cons c rest ih => rw [List.cons_append, brackets_cons, brackets_cons, ih, Int.add_assoc]

@[simp] theorem scan_nil : scan [] = 0 := by
  rw [scan]

theorem scan_cons {c : Char} (h : isQuote c = false) (rest : Text) :
    scan (c :: rest) = bracket c + scan rest := by
  rw [scan, if_neg (by simp [h])]

theorem scan_quote {c : Char} (h : isQuote c = true) (rest : Text) :
    scan (c :: rest) = ((enclosed? c (c :: rest)).map fun cut => scan cut.2).getD 0 := by
  rw [scan, if_pos h]
  split <;> simp_all

/-- Text without a quote can be counted on its own. -/
theorem scan_append {front : Text} (h : ∀ c ∈ front, isQuote c = false) (back : Text) :
    scan (front ++ back) = brackets front + scan back := by
  induction front with
  | nil => simp
  | cons c rest ih =>
      have hrest : ∀ d ∈ rest, isQuote d = false := fun d hd => h d (List.mem_cons_of_mem c hd)
      rw [List.cons_append, scan_cons (h c List.mem_cons_self), ih hrest, brackets_cons,
        Int.add_assoc]

/-- The brackets of a text, counted kind by kind. -/
theorem brackets_eq_count (text : Text) :
    brackets text = ((text.count '(' + text.count '[' : Nat) : Int) -
      ((text.count ')' + text.count ']' : Nat) : Int) := by
  induction text with
  | nil => rfl
  | cons c rest ih =>
      rw [brackets_cons, ih]
      simp only [List.count_cons]
      unfold bracket punctuation?
      split <;> simp_all [opening] <;> omega

theorem scan_eq_brackets {text : Text} (h : ∀ c ∈ text, isQuote c = false) :
    scan text = brackets text := by
  have happend := scan_append h []
  simpa using happend

/-- A string is passed over. -/
theorem scan_marked {quote : Char} {body lexeme : Text} (hquote : isQuote quote = true)
    (h : IsMarked quote body lexeme) (back : Text) : scan (lexeme ++ back) = scan back := by
  obtain ⟨hbody, rfl⟩ := h
  have hshape : quote :: body ++ [quote] ++ back = quote :: (body ++ quote :: back) := by simp
  have henclosed : enclosed? quote (quote :: (body ++ quote :: back)) = some (body, back) :=
    Rule.enclosed?_of_notMem hbody
  rw [hshape, scan_quote hquote, henclosed]
  rfl

/-! ## Characters that do not count -/

/-- The characters that count or begin a string. -/
def signs : Text := ['"', '\x27', '(', ')', '[', ']']

theorem neutral_of_notMem_signs {c : Char} (h : c ∉ signs) :
    isQuote c = false ∧ bracket c = 0 := by
  simp only [signs, List.mem_cons, List.not_mem_nil, or_false, not_or] at h
  refine ⟨by simp [isQuote, h], ?_⟩
  unfold bracket punctuation?
  split <;> simp_all [opening]

theorem brackets_of_notMem_signs {text : Text} (h : ∀ c ∈ text, c ∉ signs) :
    brackets text = 0 := by
  induction text with
  | nil => rfl
  | cons c rest ih =>
      have hrest := ih fun d hd => h d (List.mem_cons_of_mem c hd)
      rw [brackets_cons, (neutral_of_notMem_signs (h c List.mem_cons_self)).2, hrest]
      rfl

/-- Text of characters that do not count can be passed over. -/
theorem scan_append_of_notMem_signs {front : Text} (h : ∀ c ∈ front, c ∉ signs) (back : Text) :
    scan (front ++ back) = scan back := by
  have hquotes : ∀ c ∈ front, isQuote c = false := fun c hc =>
    (neutral_of_notMem_signs (h c hc)).1
  rw [scan_append hquotes, brackets_of_notMem_signs h, Int.zero_add]

theorem notMem_signs_of_isNamePart {c : Char} (h : isNamePart c = true) : c ∉ signs :=
  Text.notMem_of_class (by decide) h

theorem notMem_signs_of_isDigit {c : Char} (h : c.isDigit = true) : c ∉ signs :=
  Text.notMem_of_class (by decide) h

theorem notMem_signs_of_isSeparator {c : Char} (h : isSeparator c = true) : c ∉ signs :=
  Text.notMem_of_class (by decide) h

theorem notMem_signs_of_name? {text name rest : Text} (h : name? text = some (name, rest)) :
    ∀ c ∈ name, c ∉ signs := by
  unfold name? at h
  split at h
  · simp at h
  · rename_i first tail
    split at h
    · rename_i hfirst
      simp only [Option.some.injEq, Prod.mk.injEq] at h
      obtain ⟨rfl, -⟩ := h
      intro c hc
      rcases List.mem_cons.mp hc with rfl | hc
      · exact Text.notMem_of_class (by decide) hfirst
      · exact notMem_signs_of_isNamePart (Text.mem_takeWhile hc)
    · simp at h

theorem notMem_signs_of_isNumeral {text : Text} (h : IsNumeral text) : ∀ c ∈ text, c ∉ signs :=
  h.forall_mem (fun _ => notMem_signs_of_isDigit) (by decide) (by decide)

theorem notMem_signs_of_suffix (unit : LengthUnit) : ∀ c ∈ unit.suffix, c ∉ signs := by
  have hall : unit.suffix.all (fun c => !signs.contains c) = true := by
    cases unit <;> rfl
  intro c hc
  simpa using List.all_eq_true.mp hall c hc

/-! ## The balance of a source -/

/-- The number of groups that tokens open, less the number they close. -/
def groups : List Located → Int
  | [] => 0
  | located :: rest => located.token.opening + groups rest

@[simp] theorem groups_nil : groups [] = 0 := rfl

@[simp] theorem groups_cons (located : Located) (rest : List Located) :
    groups (located :: rest) = located.token.opening + groups rest := rfl

theorem foldl_opening (tokens : List Located) (depth : Int) :
    tokens.foldl (fun depth located => depth + located.token.opening) depth =
      depth + groups tokens := by
  induction tokens generalizing depth with
  | nil => simp
  | cons located rest ih => rw [List.foldl_cons, ih, groups_cons, Int.add_assoc]

theorem balance_eq_groups (source : Text) : balance source = groups (lex source) := by
  rw [balance, foldl_opening, Int.zero_add]

/-- One token counts what its characters count. -/
theorem opening_cut_add_scan (c : Char) (rest : Text) :
    (cut c rest).1.opening + scan (cut c rest).2.2 = scan (c :: rest) := by
  unfold cut
  split
  · rename_i found after hname
    rw [← name?_append hname, scan_append_of_notMem_signs (notMem_signs_of_name? hname)]
    exact Int.zero_add _
  · split
    · rename_i hquote
      rw [scan_quote hquote, cutQuoted]
      split
      · rename_i body after henclosed
        rw [henclosed]
        exact Int.zero_add _
      · rename_i henclosed
        rw [henclosed]
        simp [opening]
    · rename_i hquote
      split
      · rename_i numeral after hquantity
        have happend := quantity?_append hquantity
        rw [unitText, List.append_nil] at happend
        rw [← happend, scan_append_of_notMem_signs
          (notMem_signs_of_isNumeral (Rule.isNumeral_of_quantity? hquantity))]
        exact Int.zero_add _
      · rename_i numeral unit after hquantity
        have happend := quantity?_append hquantity
        rw [unitText, List.append_assoc] at happend
        rw [← happend, scan_append_of_notMem_signs
            (notMem_signs_of_isNumeral (Rule.isNumeral_of_quantity? hquantity)),
          scan_append_of_notMem_signs (notMem_signs_of_suffix unit)]
        exact Int.zero_add _
      · rw [scan_cons (by simpa using hquote)]
        rfl

theorem groups_lexFrom (start : Nat) (source : Text) :
    groups (lexFrom start source) = scan source := by
  fun_induction lexFrom start source with
  | case1 => simp
  | case2 start c rest hseparator ih =>
      obtain ⟨hquote, hzero⟩ :=
        neutral_of_notMem_signs (notMem_signs_of_isSeparator hseparator)
      rw [ih, scan_cons hquote, hzero, Int.zero_add]
  | case3 start c rest hseparator lexeme ih =>
      rw [groups_cons, ih, opening_cut_add_scan]

theorem balance_eq_scan (source : Text) : balance source = scan source := by
  rw [balance_eq_groups, lex, groups_lexFrom]

end ArgToken

/-! ## The lines of a directive -/

/-- Every quote in the tokens belongs to a string or to a comment. -/
def QuotesClosed (tokens : List Token) : Prop :=
  ∀ token ∈ tokens, token.kind ≠ .comment → token.kind ≠ .stringLiteral →
    ∀ c ∈ token.text, isQuote c = false

instance (tokens : List Token) : Decidable (QuotesClosed tokens) :=
  decidable_of_iff (tokens.all fun token => token.kind == .comment ||
      (token.kind == .stringLiteral || token.text.all fun c => !isQuote c)) (by
    simp [QuotesClosed, or_iff_not_imp_left])

/-- The tokens stand on a lexed line. -/
def Lexed (tokens : List Token) : Prop :=
  ∃ index line, ∀ token ∈ tokens, token ∈ Token.ofLine index line

theorem Token.isMarked_of_stringLiteral {index : Nat} {line : Text} {token : Token}
    (h : token ∈ ofLine index line) (hkind : token.kind = .stringLiteral) :
    ∃ quote body, isQuote quote = true ∧ IsMarked quote body token.text := by
  obtain ⟨rest, hmarked⟩ := accepts_of_kind .quotation h hkind (by decide)
  exact hmarked

/-- The text of a line that its balance is counted on. -/
def countedText (tokens : List Token) : Text :=
  spelling (tokens.filter fun token => token.kind != .comment && token.kind != .stringLiteral)

theorem withoutComments_cons (token : Token) (rest : List Token) :
    withoutComments (token :: rest) =
      (if token.kind = .comment then [] else token.text) ++ withoutComments rest := by
  by_cases h : token.kind = .comment <;> simp [withoutComments, h]

theorem countedText_cons (token : Token) (rest : List Token) :
    countedText (token :: rest) =
      (if token.kind = .comment ∨ token.kind = .stringLiteral then [] else token.text) ++
        countedText rest := by
  by_cases hcomment : token.kind = .comment
  · simp [countedText, hcomment]
  · by_cases hstring : token.kind = .stringLiteral <;> simp [countedText, hcomment, hstring]

@[simp] theorem countedText_append (front back : List Token) :
    countedText (front ++ back) = countedText front ++ countedText back := by
  simp [countedText]

theorem QuotesClosed.of_cons {token : Token} {rest : List Token}
    (h : QuotesClosed (token :: rest)) : QuotesClosed rest :=
  fun other hother => h other (List.mem_cons_of_mem token hother)

theorem Lexed.of_cons {token : Token} {rest : List Token} (h : Lexed (token :: rest)) :
    Lexed rest := by
  obtain ⟨index, line, hmem⟩ := h
  exact ⟨index, line, fun other hother => hmem other (List.mem_cons_of_mem token hother)⟩

theorem lineBalance_eq_scan (tokens : List Token) :
    lineBalance tokens = ArgToken.scan (countedText tokens) :=
  ArgToken.balance_eq_scan _

theorem QuotesClosed.lineBalance_eq {tokens : List Token} (h : QuotesClosed tokens) :
    lineBalance tokens = ArgToken.brackets (countedText tokens) := by
  have hquotes : ∀ c ∈ countedText tokens, isQuote c = false := by
    intro c hc
    obtain ⟨token, htoken, hmem⟩ := List.mem_flatMap.mp hc
    obtain ⟨htokens, hkind⟩ := List.mem_filter.mp htoken
    simp only [Bool.and_eq_true, bne_iff_ne, ne_eq] at hkind
    exact h token htokens hkind.1 hkind.2 c hmem
  rw [lineBalance_eq_scan, ArgToken.scan_eq_brackets hquotes]

/-- The source of a directive counts what the balance of its line counts: a comment is
not in it, and a string is passed over. -/
theorem scan_withoutComments {tokens : List Token} (hclosed : QuotesClosed tokens)
    (hlexed : Lexed tokens) (back : Text) :
    ArgToken.scan (withoutComments tokens ++ back) = lineBalance tokens + ArgToken.scan back := by
  rw [hclosed.lineBalance_eq]
  induction tokens with
  | nil => simp [withoutComments, countedText]
  | cons token rest ih =>
      have hrest := ih hclosed.of_cons hlexed.of_cons
      rw [withoutComments_cons, countedText_cons, List.append_assoc]
      by_cases hcomment : token.kind = .comment
      · rw [if_pos hcomment, if_pos (.inl hcomment)]
        exact hrest
      · rw [if_neg hcomment]
        by_cases hstring : token.kind = .stringLiteral
        · obtain ⟨index, line, hmem⟩ := hlexed
          obtain ⟨quote, body, hquote, hmarked⟩ :=
            Token.isMarked_of_stringLiteral (hmem token List.mem_cons_self) hstring
          rw [ArgToken.scan_marked hquote hmarked, hrest, if_pos (.inr hstring)]
          rfl
        · have hquotes := hclosed token List.mem_cons_self hcomment hstring
          rw [ArgToken.scan_append hquotes, hrest, if_neg (by simp [hcomment, hstring]),
            ArgToken.brackets_append, Int.add_assoc]

/-- The balance of some lines together. -/
def linesBalance : List (List Token) → Int
  | [] => 0
  | line :: rest => lineBalance line + linesBalance rest

@[simp] theorem linesBalance_nil : linesBalance [] = 0 := rfl

@[simp] theorem linesBalance_cons (line : List Token) (rest : List (List Token)) :
    linesBalance (line :: rest) = lineBalance line + linesBalance rest := rfl

@[simp] theorem linesBalance_append (front back : List (List Token)) :
    linesBalance (front ++ back) = linesBalance front + linesBalance back := by
  induction front with
  | nil => simp
  | cons line rest ih =>
      rw [List.cons_append, linesBalance_cons, linesBalance_cons, ih, Int.add_assoc]

theorem linesBalance_eq_sum (lines : List (List Token)) :
    linesBalance lines = (lines.map lineBalance).sum := by
  induction lines with
  | nil => rfl
  | cons line rest ih => rw [linesBalance_cons, ih, List.map_cons, List.sum_cons]

/-- The lines count the brackets that stand on them outside strings and comments. -/
theorem linesBalance_eq_brackets {lines : List (List Token)}
    (h : ∀ tokens ∈ lines, QuotesClosed tokens) :
    linesBalance lines = ArgToken.brackets (countedText lines.flatten) := by
  induction lines with
  | nil => rfl
  | cons line rest ih =>
      obtain ⟨hline, hrest⟩ := List.forall_mem_cons.mp h
      rw [linesBalance_cons, hline.lineBalance_eq, ih hrest, List.flatten_cons,
        countedText_append, ArgToken.brackets_append]

/-- Lines that follow others, with their line feeds. -/
theorem scan_flatMap_withoutComments {lines : List (List Token)}
    (h : ∀ tokens ∈ lines, QuotesClosed tokens ∧ Lexed tokens) :
    ArgToken.scan ((lines.map withoutComments).flatMap ('\n' :: ·)) = linesBalance lines := by
  induction lines with
  | nil => simp
  | cons tokens rest ih =>
      have htokens := h tokens List.mem_cons_self
      have hrest := ih fun other hother => h other (List.mem_cons_of_mem tokens hother)
      have hfeed : ArgToken.bracket '\n' = 0 := rfl
      rw [List.map_cons, List.flatMap_cons, List.cons_append, ArgToken.scan_cons (by decide),
        hfeed, Int.zero_add, scan_withoutComments htokens.1 htokens.2, hrest, linesBalance_cons]

/-- The lines of a directive, counted one by one, have together the balance of its
source. -/
theorem balance_joinLines {lines : List (List Token)}
    (h : ∀ tokens ∈ lines, QuotesClosed tokens ∧ Lexed tokens) :
    ArgToken.balance (Text.joinLines (lines.map withoutComments)) = linesBalance lines := by
  rw [ArgToken.balance_eq_scan]
  cases lines with
  | nil => simp [Text.joinLines]
  | cons first rest =>
      have hfirst := h first List.mem_cons_self
      have hrest := scan_flatMap_withoutComments fun tokens htokens =>
        h tokens (List.mem_cons_of_mem first htokens)
      rw [List.map_cons, Text.joinLines, scan_withoutComments hfirst.1 hfirst.2, hrest,
        linesBalance_cons]

theorem Token.lexed_of_mem_ofSource {source : Text} {tokens : List Token}
    (h : tokens ∈ ofSource source) : Lexed tokens := by
  obtain ⟨index, hindex, rfl⟩ := List.mem_mapIdx.mp h
  exact ⟨index, _, fun token hmem => hmem⟩

/-- Take any run of lines of a source whose quotes all belong to a string or to a comment.
Counted line by line they have the balance of their joined text, and that is the number of
brackets that open on them less the number that close, strings and comments apart. -/
theorem sum_lineBalance_eq {source : Text} {lines : List (List Token)}
    (hrun : lines <:+: Token.ofSource source)
    (hquotes : ∀ tokens ∈ lines, QuotesClosed tokens) :
    (lines.map lineBalance).sum =
        ArgToken.balance (Text.joinLines (lines.map withoutComments)) ∧
      (lines.map lineBalance).sum =
        (((countedText lines.flatten).count '(' +
            (countedText lines.flatten).count '[' : Nat) : Int) -
          (((countedText lines.flatten).count ')' +
            (countedText lines.flatten).count ']' : Nat) : Int) := by
  have hlines : ∀ tokens ∈ lines, QuotesClosed tokens ∧ Lexed tokens := fun tokens hmem =>
    ⟨hquotes tokens hmem, Token.lexed_of_mem_ofSource (hrun.subset hmem)⟩
  rw [← linesBalance_eq_sum]
  refine ⟨(balance_joinLines hlines).symm, ?_⟩
  rw [linesBalance_eq_brackets hquotes, ArgToken.brackets_eq_count]

/-- Two lines with brackets in strings and in a comment, in front of one with a stray quote. -/
theorem sum_lineBalance_eq_directive :
    let source : Text := "#set a(\"(\", // it's (\n')' [(b\nit's".toList
    let lines := (Token.ofSource source).take 2
    lines <:+: Token.ofSource source ∧ (∀ tokens ∈ lines, QuotesClosed tokens) ∧
      (lines.map lineBalance).sum = 3 ∧
      ArgToken.balance (Text.joinLines (lines.map withoutComments)) = 3 := by
  intro source lines
  have hrun : lines <:+: Token.ofSource source := (List.take_prefix 2 _).isInfix
  have hquotes : ∀ tokens ∈ lines, QuotesClosed tokens := by decide +kernel
  obtain ⟨hbalance, hcount⟩ := sum_lineBalance_eq hrun hquotes
  have hthree : (lines.map lineBalance).sum = 3 := by
    rw [hcount]
    decide +kernel
  exact ⟨hrun, hquotes, hthree, by rw [← hbalance, hthree]⟩

end MarkupPreview
