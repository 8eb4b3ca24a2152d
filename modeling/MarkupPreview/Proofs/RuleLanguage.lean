import Mathlib.Data.List.Basic
import MarkupPreview.Token.Rule

/-!
# The languages of the lexer's rules

Each rule of the line lexer stands for a language: the lexemes it accepts, some
of them only before certain text. `Rule.Accepts` writes these languages down by
their shape, without saying how a lexeme is found. The lexer's own `Rule.cut?`
scans greedily from the left and never goes back over more than a fraction or a
unit, so it has to be shown that what it finds is in the language and that no
longer prefix is.

Six of the eight languages hold at most one prefix of a text. References and
numbers can be cut shorter, and there the scan takes all it can.

## Main results

* `Rule.cut?_eq_some_iff` — a rule cuts off exactly its longest lexeme.
* `Rule.cut?_eq_none_iff` — a rule cuts nothing exactly when no prefix is one of
  its lexemes.
* `firstRule?_eq_some_iff`, `firstRule?_eq_none_iff` — of the rules the first
  that matches is taken.
-/

namespace MarkupPreview

open Lexeme

/-! ## Runs of characters -/

/-- A text starts with no character of a class: it is empty or starts with
another one. -/
def Text.Stops (p : Char → Bool) (text : Text) : Prop := ∀ c ∈ text.head?, p c = false

namespace Text

variable {p : Char → Bool} {run rest : Text}

theorem stops_cons {c : Char} : Stops p (c :: rest) ↔ p c = false := by
  simp [Stops]

theorem stops_dropWhile (text : Text) : Stops p (text.dropWhile p) := by
  intro c hc
  have h := List.head?_dropWhile_not p text
  rw [Option.mem_def.mp hc] at h
  exact h

theorem takeWhile_of_stops (h : Stops p rest) : rest.takeWhile p = [] := by
  cases rest with
  | nil => rfl
  | cons c rest => simp [stops_cons.mp h]

theorem dropWhile_of_stops (h : Stops p rest) : rest.dropWhile p = rest := by
  cases rest with
  | nil => rfl
  | cons c rest => simp [stops_cons.mp h]

theorem takeWhile_run (hrun : ∀ c ∈ run, p c = true) (h : Stops p rest) :
    (run ++ rest).takeWhile p = run := by
  rw [List.takeWhile_append_of_pos hrun, takeWhile_of_stops h, List.append_nil]

theorem dropWhile_run (hrun : ∀ c ∈ run, p c = true) (h : Stops p rest) :
    (run ++ rest).dropWhile p = rest := by
  rw [List.dropWhile_append_of_pos hrun, dropWhile_of_stops h]

theorem mem_takeWhile {text : Text} {c : Char} (h : c ∈ text.takeWhile p) : p c = true :=
  List.all_eq_true.mp List.all_takeWhile c h

/-- A character is none of those listed if it is in a class that has none of them. -/
theorem notMem_of_class {listed : Text} (hp : listed.all (!p ·) = true) {c : Char}
    (h : p c = true) : c ∉ listed := by
  intro hmem
  have hc := List.all_eq_true.mp hp c hmem
  rw [h] at hc
  cases hc

end Text

/-! ## Languages -/

/-- One decimal digit or more. -/
def IsDigits (text : Text) : Prop := text ≠ [] ∧ ∀ c ∈ text, c.isDigit = true

/-- A minus sign or nothing. -/
def IsSign (text : Text) : Prop := text = [] ∨ text = ['-']

/-- A point with digits behind it, or nothing. -/
def IsFraction (text : Text) : Prop :=
  text = [] ∨ ∃ decimals, IsDigits decimals ∧ text = '.' :: decimals

/-- A sign, digits and a fraction, of which only the digits have to be there. -/
def IsNumeral (text : Text) : Prop :=
  ∃ sign digits fraction, IsSign sign ∧ IsDigits digits ∧ IsFraction fraction ∧
    text = sign ++ digits ++ fraction

/-- A numeral holds digits, a minus sign and a point. -/
theorem IsNumeral.forall_mem {p : Char → Prop} {numeral : Text} (h : IsNumeral numeral)
    (hdigit : ∀ c, c.isDigit = true → p c) (hminus : p '-') (hpoint : p '.') :
    ∀ c ∈ numeral, p c := by
  obtain ⟨sign, digits, fraction, hsign, hdigits, hfraction, rfl⟩ := h
  intro c hc
  rcases List.mem_append.mp hc with hc | hc
  · rcases List.mem_append.mp hc with hc | hc
    · rcases hsign with rfl | rfl
      · cases hc
      · exact List.mem_singleton.mp hc ▸ hminus
    · exact hdigit c (hdigits.2 c hc)
  · rcases hfraction with rfl | ⟨decimals, hdecimals, rfl⟩
    · cases hc
    · rcases List.mem_cons.mp hc with rfl | hc
      · exact hpoint
      · exact hdigit c (hdecimals.2 c hc)

/-- A text between two equal marks, and without that mark. -/
def IsMarked (mark : Char) (body lexeme : Text) : Prop :=
  mark ∉ body ∧ lexeme = mark :: body ++ [mark]

namespace Rule

/-- The language of a rule: the lexemes it accepts where `rest` comes next. -/
def Accepts : Rule → (lexeme rest : Text) → Prop
  | comment, lexeme, rest => (∃ body, lexeme = '/' :: '/' :: body) ∧ rest = []
  | math, lexeme, _ => ∃ body, IsMarked '$' body lexeme
  | keyword, lexeme, rest => (∃ word ∈ reservedWords, lexeme = '#' :: word) ∧ rest.Stops isWord
  | reference, lexeme, _ =>
      ∃ first others, isNameStart first = true ∧ (∀ c ∈ others, isNamePart c = true) ∧
        lexeme = '#' :: first :: others
  | call, lexeme, rest =>
      (∃ name ∈ builtinNames, ∃ blank, Text.isBlank blank = true ∧ lexeme = name ++ blank) ∧
        rest.head? = some '('
  | quotation, lexeme, _ => ∃ quote body, isQuote quote = true ∧ IsMarked quote body lexeme
  | number, lexeme, _ => ∃ numeral unit, IsNumeral numeral ∧ lexeme = numeral ++ unitText unit
  | emphasis, lexeme, _ =>
      ∃ mark body, isEmphasisMark mark = true ∧ body ≠ [] ∧ IsMarked mark body lexeme

/-- Some prefix of the text is a lexeme of the rule. -/
def Matches (rule : Rule) (text : Text) : Prop :=
  ∃ lexeme rest, lexeme ++ rest = text ∧ rule.Accepts lexeme rest

/-- The lexeme is the longest prefix of the text that the rule accepts. -/
structure Longest (rule : Rule) (text lexeme rest : Text) : Prop where
  split : lexeme ++ rest = text
  accepts : rule.Accepts lexeme rest
  longest : ∀ other after, other ++ after = text → rule.Accepts other after →
    other.length ≤ lexeme.length

/-- The rule is the first in the order that matches the text, and the lexeme its
longest one there. -/
structure Takes (rule : Rule) (text lexeme rest : Text) : Prop
    extends rule.Longest text lexeme rest where
  first : ∃ earlier later, order = earlier ++ rule :: later ∧
    ∀ other ∈ earlier, ¬ other.Matches text

/-! ## Comments and enclosed texts -/

theorem comment?_eq_some_iff {text lexeme rest : Text} :
    comment? text = some (lexeme, rest) ↔ lexeme ++ rest = text ∧ comment.Accepts lexeme rest := by
  constructor
  · intro h
    unfold comment? at h
    split at h
    · simp only [Option.some.injEq, Prod.mk.injEq] at h
      obtain ⟨rfl, rfl⟩ := h
      exact ⟨by simp, ⟨_, rfl⟩, rfl⟩
    · simp at h
  · rintro ⟨rfl, ⟨body, rfl⟩, rfl⟩
    simp [comment?]

theorem enclosed?_of_notMem {mark : Char} {body rest : Text} (h : mark ∉ body) :
    enclosed? mark (mark :: body ++ mark :: rest) = some (body, rest) := by
  have hbody : ∀ c ∈ body, (c != mark) = true := by
    intro c hc
    simpa using ne_of_mem_of_not_mem hc h
  have hstops : Text.Stops (· != mark) (mark :: rest) := by simp [Text.stops_cons]
  simp [enclosed?, Text.takeWhile_run hbody hstops, Text.dropWhile_run hbody hstops]

theorem enclosed?_cons_eq_none_iff {delimiter : Char} {rest : Text} :
    enclosed? delimiter (delimiter :: rest) = none ↔ delimiter ∉ rest := by
  refine ⟨fun h hmem => ?_, fun h => ?_⟩
  · obtain ⟨body, after, rfl, hbody⟩ := List.eq_append_cons_of_mem hmem
    have hfound : enclosed? delimiter (delimiter :: (body ++ delimiter :: after)) =
        some (body, after) := enclosed?_of_notMem hbody
    rw [hfound] at h
    cases h
  · rw [Option.eq_none_iff_forall_ne_some]
    rintro ⟨body, after⟩ hfound
    have hsplit := enclosed?_append hfound
    rw [List.cons_append, List.cons.injEq] at hsplit
    exact h (hsplit.2 ▸ List.mem_append_right body List.mem_cons_self)

theorem marked?_eq_some_iff {mark : Char} {text lexeme rest : Text} :
    marked? mark text = some (lexeme, rest) ↔
      lexeme ++ rest = text ∧ ∃ body, IsMarked mark body lexeme := by
  constructor
  · intro h
    refine ⟨(marked?_append h).1, ?_⟩
    simp only [marked?, Option.map_eq_some_iff, Prod.mk.injEq] at h
    obtain ⟨⟨body, after⟩, hbody, rfl, -⟩ := h
    exact ⟨body, enclosed?_notMem hbody, rfl⟩
  · rintro ⟨rfl, body, hbody, rfl⟩
    have hshape : mark :: body ++ [mark] ++ rest = mark :: body ++ mark :: rest := by simp
    rw [marked?, hshape, enclosed?_of_notMem hbody]
    rfl

theorem quotation?_eq_some_iff {text lexeme rest : Text} :
    quotation? text = some (lexeme, rest) ↔
      lexeme ++ rest = text ∧ quotation.Accepts lexeme rest := by
  constructor
  · intro h
    unfold quotation? at h
    split at h
    · simp at h
    · split at h
      · rename_i hquote
        obtain ⟨hsplit, body, hbody⟩ := marked?_eq_some_iff.mp h
        exact ⟨hsplit, _, body, hquote, hbody⟩
      · simp at h
  · rintro ⟨rfl, quote, body, hquote, hbody⟩
    have hmarked : marked? quote (lexeme ++ rest) = some (lexeme, rest) :=
      marked?_eq_some_iff.mpr ⟨rfl, body, hbody⟩
    obtain ⟨-, rfl⟩ := hbody
    simpa [quotation?, hquote] using hmarked

theorem emphasis?_eq_some_iff {text lexeme rest : Text} :
    emphasis? text = some (lexeme, rest) ↔
      lexeme ++ rest = text ∧ emphasis.Accepts lexeme rest := by
  constructor
  · intro h
    unfold emphasis? at h
    split at h
    · simp at h
    · rename_i c tail
      split at h
      · rename_i hmark
        simp only [Bool.and_eq_true, bne_iff_ne, ne_eq] at hmark
        obtain ⟨hsplit, body, hbody⟩ := marked?_eq_some_iff.mp h
        refine ⟨hsplit, c, body, hmark.1, ?_, hbody⟩
        -- Between two adjacent marks there would be nothing.
        rintro rfl
        obtain ⟨-, rfl⟩ := hbody
        simp only [List.nil_append, List.cons_append, List.cons.injEq, true_and] at hsplit
        exact hmark.2 (by rw [← hsplit]; rfl)
      · simp at h
  · rintro ⟨rfl, mark, body, hmark, hne, hbody⟩
    have hmarked : marked? mark (lexeme ++ rest) = some (lexeme, rest) :=
      marked?_eq_some_iff.mpr ⟨rfl, body, hbody⟩
    obtain ⟨hnotMem, rfl⟩ := hbody
    obtain ⟨first, others, rfl⟩ := List.exists_cons_of_ne_nil hne
    -- The guard against an empty text cannot strike: the text starts with no mark.
    have hfirst : first ≠ mark := fun h => hnotMem (by simp [h])
    simpa [emphasis?, hmark, hfirst] using hmarked

/-! ## Names -/

theorem isWord_of_mem_reservedWords {word : Text} (h : word ∈ reservedWords) :
    ∀ c ∈ word, isWord c = true := by
  have hall : reservedWords.all (·.all isWord) = true := by decide
  exact List.all_eq_true.mp (List.all_eq_true.mp hall word h)

theorem keyword?_eq_some_iff {text lexeme rest : Text} :
    keyword? text = some (lexeme, rest) ↔ lexeme ++ rest = text ∧ keyword.Accepts lexeme rest := by
  constructor
  · intro h
    unfold keyword? at h
    split at h
    · rename_i tail
      split at h
      · rename_i hword
        simp only [Option.some.injEq, Prod.mk.injEq] at h
        obtain ⟨rfl, rfl⟩ := h
        exact ⟨by simp, ⟨_, List.contains_iff_mem.mp hword, rfl⟩, Text.stops_dropWhile tail⟩
      · simp at h
    · simp at h
  · rintro ⟨rfl, ⟨word, hword, rfl⟩, hstops⟩
    have hall := isWord_of_mem_reservedWords hword
    simp [keyword?, Text.takeWhile_run hall hstops, Text.dropWhile_run hall hstops, hword]

theorem accepts_of_reference? {text lexeme rest : Text}
    (h : reference? text = some (lexeme, rest)) : reference.Accepts lexeme rest := by
  unfold reference? at h
  split at h
  · simp only [Option.map_eq_some_iff, Prod.mk.injEq] at h
    obtain ⟨⟨name, after⟩, hname, rfl, rfl⟩ := h
    unfold name? at hname
    split at hname
    · simp at hname
    · rename_i first tail
      split at hname
      · rename_i hfirst
        simp only [Option.some.injEq, Prod.mk.injEq] at hname
        obtain ⟨rfl, rfl⟩ := hname
        exact ⟨first, _, hfirst, fun c hc => Text.mem_takeWhile hc, rfl⟩
      · simp at hname
  · simp at h

/-- A name that goes on is read to its end. -/
theorem exists_reference?_of_accepts {lexeme rest : Text} (h : reference.Accepts lexeme rest) :
    ∃ longest after, reference? (lexeme ++ rest) = some (longest, after) ∧
      lexeme.length ≤ longest.length := by
  obtain ⟨first, others, hfirst, hothers, rfl⟩ := h
  refine ⟨'#' :: first :: (others ++ rest.takeWhile isNamePart), rest.dropWhile isNamePart, ?_, ?_⟩
  · simp [reference?, name?, hfirst, List.takeWhile_append_of_pos hothers,
      List.dropWhile_append_of_pos hothers]
  · simp

/-! ## Calls -/

theorem not_isLower_of_isSpace {c : Char} (h : isSpace c = true) : c.isLower = false := by
  simp only [isSpace, spaceRanges, List.any_cons, List.any_nil, Bool.or_false, Bool.or_eq_true,
    Bool.and_eq_true, decide_eq_true_eq] at h
  show (decide (c.val ≥ 'a'.val) && decide (c.val ≤ 'z'.val)) = false
  simp only [Bool.and_eq_false_iff, decide_eq_false_iff_not, ge_iff_le, UInt32.le_iff_toNat_le]
  simp only [Char.toNat] at h
  have ha : 'a'.val.toNat = 97 := rfl
  have hz : 'z'.val.toNat = 122 := rfl
  omega

theorem isLower_of_mem_builtinNames {name : Text} (h : name ∈ builtinNames) :
    ∀ c ∈ name, c.isLower = true := by
  have hall : builtinNames.all (·.all Char.isLower) = true := by decide
  exact List.all_eq_true.mp (List.all_eq_true.mp hall name h)

/-- Neither white space nor a parenthesis goes on with a name. -/
theorem stops_isLower {blank rest : Text} (hblank : Text.isBlank blank = true)
    (hrest : rest.head? = some '(') : Text.Stops Char.isLower (blank ++ rest) := by
  cases blank with
  | nil =>
      intro c hc
      rw [List.nil_append, hrest, Option.mem_some_iff] at hc
      exact hc ▸ rfl
  | cons c blank => exact Text.stops_cons.mpr (not_isLower_of_isSpace (by simp_all [Text.isBlank]))

theorem call?_eq_some_iff {text lexeme rest : Text} :
    call? text = some (lexeme, rest) ↔ lexeme ++ rest = text ∧ call.Accepts lexeme rest := by
  constructor
  · intro h
    have hcut : call.cut? text = some (lexeme, rest) := h
    refine ⟨(cut?_append hcut).1, ?_⟩
    simp only [call?] at h
    split at h
    · rename_i hcall
      simp only [Bool.and_eq_true, beq_iff_eq, isBuiltin, List.contains_eq_mem,
        decide_eq_true_eq] at hcall
      simp only [Option.some.injEq, Prod.mk.injEq] at h
      obtain ⟨rfl, rfl⟩ := h
      exact ⟨⟨_, hcall.1, _, Text.isBlank_iff.mpr fun c hc => Text.mem_takeWhile hc, rfl⟩, hcall.2⟩
    · simp at h
  · rintro ⟨rfl, ⟨name, hname, blank, hblank, rfl⟩, hrest⟩
    have hlower := isLower_of_mem_builtinNames hname
    have hstops := stops_isLower hblank hrest
    have hspace : Text.Stops isSpace rest := by
      intro c hc
      rw [hrest, Option.mem_some_iff] at hc
      exact hc ▸ rfl
    have hall := Text.isBlank_iff.mp hblank
    simp [call?, List.append_assoc, Text.takeWhile_run hlower hstops,
      Text.dropWhile_run hlower hstops, Text.takeWhile_run hall hspace,
      Text.dropWhile_run hall hspace, isBuiltin, hname, hrest]

/-! ## Numbers -/

theorem isSign_splitSign (text : Text) : IsSign (splitSign text).1 := by
  unfold splitSign
  split
  · exact .inr rfl
  · exact .inl rfl

theorem isDigits_takeWhile {text : Text} (h : text.takeWhile Char.isDigit ≠ []) :
    IsDigits (text.takeWhile Char.isDigit) :=
  ⟨h, fun _ hc => Text.mem_takeWhile hc⟩

theorem isFraction_splitFraction (text : Text) : IsFraction (splitFraction text).1 := by
  unfold splitFraction
  split
  · split
    · exact .inl rfl
    · rename_i hdecimals
      exact .inr ⟨_, isDigits_takeWhile (by simpa using hdecimals), rfl⟩
  · exact .inl rfl

theorem isNumeral_of_numeral? {text numeral rest : Text}
    (h : numeral? text = some (numeral, rest)) : IsNumeral numeral := by
  simp only [numeral?] at h
  split at h
  · simp at h
  · rename_i hdigits
    simp only [Option.some.injEq, Prod.mk.injEq] at h
    obtain ⟨rfl, -⟩ := h
    exact ⟨_, _, _, isSign_splitSign text, isDigits_takeWhile (by simpa using hdigits),
      isFraction_splitFraction _, rfl⟩

theorem isNumeral_of_quantity? {text numeral rest : Text} {unit : Option LengthUnit}
    (h : quantity? text = some (numeral, unit, rest)) : IsNumeral numeral := by
  simp only [quantity?, Option.map_eq_some_iff] at h
  obtain ⟨⟨found, after⟩, hfound, h⟩ := h
  have hnumeral : found = numeral := by
    simp only at h
    split at h <;> exact congrArg Prod.fst h
  exact hnumeral ▸ isNumeral_of_numeral? hfound

/-- A numeral makes a number, with whatever unit comes behind it. -/
theorem exists_number?_of_numeral? {text numeral after : Text}
    (h : numeral? text = some (numeral, after)) :
    ∃ unit rest, number? text = some (numeral ++ unitText unit, rest) := by
  cases hunit : LengthUnit.split? after with
  | none => exact ⟨none, after, by simp [number?, quantity?, h, hunit]⟩
  | some found => exact ⟨some found.1, found.2, by simp [number?, quantity?, h, hunit]⟩

theorem accepts_of_number? {text lexeme rest : Text} (h : number? text = some (lexeme, rest)) :
    number.Accepts lexeme rest := by
  cases hnumeral : numeral? text with
  | none => simp [number?, quantity?, hnumeral] at h
  | some found =>
      obtain ⟨unit, rest', hnumber⟩ := exists_number?_of_numeral? hnumeral
      rw [h] at hnumber
      cases hnumber
      exact ⟨found.1, unit, isNumeral_of_numeral? hnumeral, rfl⟩

/-- A sign is read as one before digits. -/
theorem splitSign_digits {sign digits : Text} (hsign : IsSign sign) (hdigits : IsDigits digits)
    (rest : Text) : splitSign (sign ++ digits ++ rest) = (sign, digits ++ rest) := by
  obtain ⟨first, others, rfl⟩ := List.exists_cons_of_ne_nil hdigits.1
  rcases hsign with rfl | rfl
  · have hfirst : first ≠ '-' := by
      rintro rfl
      exact absurd (hdigits.2 '-' (by simp)) (by decide)
    simp only [List.nil_append, List.cons_append]
    unfold splitSign
    split
    · rename_i heq
      exact absurd (List.cons.inj heq).1 hfirst
    · rfl
  · rfl

/-- What the scan finds at a sign and digits, whatever follows. -/
theorem numeral?_digits {sign digits : Text} (hsign : IsSign sign) (hdigits : IsDigits digits)
    (rest : Text) :
    numeral? (sign ++ digits ++ rest) =
      some (sign ++ (digits ++ rest.takeWhile Char.isDigit) ++
          (splitFraction (rest.dropWhile Char.isDigit)).1,
        (splitFraction (rest.dropWhile Char.isDigit)).2) := by
  simp only [numeral?, splitSign_digits hsign hdigits, List.takeWhile_append_of_pos hdigits.2,
    List.dropWhile_append_of_pos hdigits.2]
  simp [hdigits.1]

/-- What the scan finds at a sign, digits, a point and more digits. -/
theorem numeral?_fraction {sign digits decimals : Text} (hsign : IsSign sign)
    (hdigits : IsDigits digits) (hdecimals : IsDigits decimals) (rest : Text) :
    numeral? (sign ++ digits ++ '.' :: decimals ++ rest) =
      some (sign ++ digits ++ '.' :: (decimals ++ rest.takeWhile Char.isDigit),
        rest.dropWhile Char.isDigit) := by
  have hpoint : Text.Stops Char.isDigit ('.' :: (decimals ++ rest)) := Text.stops_cons.mpr rfl
  have hscan := numeral?_digits hsign hdigits ('.' :: (decimals ++ rest))
  rw [Text.takeWhile_of_stops hpoint, Text.dropWhile_of_stops hpoint] at hscan
  simpa [splitFraction, List.takeWhile_append_of_pos hdecimals.2,
    List.dropWhile_append_of_pos hdecimals.2, hdecimals.1] using hscan

/-- Whether a character could go on with a numeral. -/
def extendsNumeral (c : Char) : Bool := c.isDigit || c == '.'

/-- A numeral is read to its end and not beyond, where nothing goes on with it. -/
theorem numeral?_of_stops {numeral rest : Text} (h : IsNumeral numeral)
    (hrest : rest.Stops extendsNumeral) : numeral? (numeral ++ rest) = some (numeral, rest) := by
  have hdigit : rest.Stops Char.isDigit := fun c hc => (Bool.or_eq_false_iff.mp (hrest c hc)).1
  obtain ⟨sign, digits, fraction, hsign, hdigits, rfl | ⟨decimals, hdecimals, rfl⟩, rfl⟩ := h
  · have hfraction : splitFraction rest = ([], rest) := by
      unfold splitFraction
      split
      · simp [Text.stops_cons, extendsNumeral] at hrest
      · rfl
    rw [List.append_nil, numeral?_digits hsign hdigits, Text.takeWhile_of_stops hdigit,
      Text.dropWhile_of_stops hdigit, hfraction, List.append_nil, List.append_nil]
  · rw [numeral?_fraction hsign hdigits hdecimals, Text.takeWhile_of_stops hdigit,
      Text.dropWhile_of_stops hdigit, List.append_nil]

/-- A numeral that goes on is read at least so far. -/
theorem exists_numeral?_of_isNumeral {numeral : Text} (h : IsNumeral numeral) (rest : Text) :
    ∃ longest after, numeral? (numeral ++ rest) = some (longest, after) ∧
      numeral.length ≤ longest.length := by
  obtain ⟨sign, digits, fraction, hsign, hdigits, rfl | ⟨decimals, hdecimals, rfl⟩, rfl⟩ := h
  · rw [List.append_nil]
    refine ⟨_, _, numeral?_digits hsign hdigits rest, ?_⟩
    simp only [List.length_append]
    omega
  · refine ⟨_, _, numeral?_fraction hsign hdigits hdecimals rest, ?_⟩
    simp only [List.length_append, List.length_cons]
    omega

theorem stops_suffix_append (unit : LengthUnit) (rest : Text) :
    Text.Stops extendsNumeral (unit.suffix ++ rest) := by
  cases unit <;> exact Text.stops_cons.mpr rfl

theorem split?_suffix_append (unit : LengthUnit) (rest : Text) :
    LengthUnit.split? (unit.suffix ++ rest) = some (unit, rest) := by
  cases unit <;> rfl

theorem exists_number?_of_accepts {lexeme rest : Text} (h : number.Accepts lexeme rest) :
    ∃ longest after, number? (lexeme ++ rest) = some (longest, after) ∧
      lexeme.length ≤ longest.length := by
  obtain ⟨numeral, unit, hnumeral, rfl⟩ := h
  cases unit with
  | none =>
      obtain ⟨longest, after, hfound, hle⟩ := exists_numeral?_of_isNumeral hnumeral rest
      obtain ⟨unit, rest', hnumber⟩ := exists_number?_of_numeral? hfound
      refine ⟨_, _, by rw [unitText, List.append_nil]; exact hnumber, ?_⟩
      simp only [unitText, List.append_nil, List.length_append]
      omega
  | some unit =>
      have hfound := numeral?_of_stops hnumeral (stops_suffix_append unit rest)
      refine ⟨numeral ++ unit.suffix, rest, ?_, Nat.le_refl _⟩
      simp [number?, quantity?, unitText, hfound, split?_suffix_append]

/-! ## Longest lexemes -/

/-- What a rule cuts off is in its language. -/
theorem accepts_of_cut? {rule : Rule} {text lexeme rest : Text}
    (h : rule.cut? text = some (lexeme, rest)) : rule.Accepts lexeme rest := by
  cases rule with
  | comment => exact (comment?_eq_some_iff.mp h).2
  | math => exact (marked?_eq_some_iff.mp h).2
  | keyword => exact (keyword?_eq_some_iff.mp h).2
  | reference => exact accepts_of_reference? h
  | call => exact (call?_eq_some_iff.mp h).2
  | quotation => exact (quotation?_eq_some_iff.mp h).2
  | number => exact accepts_of_number? h
  | emphasis => exact (emphasis?_eq_some_iff.mp h).2

/-- Where a rule has a lexeme it cuts one off, and none that is shorter. -/
theorem exists_cut?_of_accepts {rule : Rule} {lexeme rest : Text} (h : rule.Accepts lexeme rest) :
    ∃ longest after, rule.cut? (lexeme ++ rest) = some (longest, after) ∧
      lexeme.length ≤ longest.length := by
  cases rule with
  | comment => exact ⟨_, _, comment?_eq_some_iff.mpr ⟨rfl, h⟩, Nat.le_refl _⟩
  | math => exact ⟨_, _, marked?_eq_some_iff.mpr ⟨rfl, h⟩, Nat.le_refl _⟩
  | keyword => exact ⟨_, _, keyword?_eq_some_iff.mpr ⟨rfl, h⟩, Nat.le_refl _⟩
  | reference => exact exists_reference?_of_accepts h
  | call => exact ⟨_, _, call?_eq_some_iff.mpr ⟨rfl, h⟩, Nat.le_refl _⟩
  | quotation => exact ⟨_, _, quotation?_eq_some_iff.mpr ⟨rfl, h⟩, Nat.le_refl _⟩
  | number => exact exists_number?_of_accepts h
  | emphasis => exact ⟨_, _, emphasis?_eq_some_iff.mpr ⟨rfl, h⟩, Nat.le_refl _⟩

theorem cut?_eq_some_iff {rule : Rule} {text lexeme rest : Text} :
    rule.cut? text = some (lexeme, rest) ↔ rule.Longest text lexeme rest := by
  constructor
  · intro h
    refine ⟨(cut?_append h).1, accepts_of_cut? h, ?_⟩
    rintro other after rfl haccepts
    obtain ⟨longest, after', hfound, hle⟩ := exists_cut?_of_accepts haccepts
    rw [h] at hfound
    cases hfound
    exact hle
  · rintro ⟨rfl, haccepts, hlongest⟩
    obtain ⟨longest, after, hfound, hle⟩ := exists_cut?_of_accepts haccepts
    have hsplit := (cut?_append hfound).1
    have hge := hlongest longest after hsplit (accepts_of_cut? hfound)
    -- Two prefixes of a text that are equally long are equal.
    obtain ⟨rfl, rfl⟩ := List.append_inj hsplit (by omega)
    exact hfound

theorem cut?_eq_none_iff {rule : Rule} {text : Text} :
    rule.cut? text = none ↔ ¬ rule.Matches text := by
  constructor
  · rintro hnone ⟨lexeme, rest, rfl, haccepts⟩
    obtain ⟨longest, after, hfound, -⟩ := exists_cut?_of_accepts haccepts
    simp [hnone] at hfound
  · intro h
    rw [Option.eq_none_iff_forall_ne_some]
    rintro ⟨lexeme, rest⟩ hfound
    exact h ⟨lexeme, rest, (cut?_append hfound).1, accepts_of_cut? hfound⟩

end Rule

/-! ## The first rule -/

/-- No rule matches the text. -/
def Unclaimed (text : Text) : Prop := ∀ rule : Rule, ¬ rule.Matches text

theorem firstRule?_eq_some_iff {text lexeme rest : Text} {kind : TokenKind} :
    firstRule? text = some (kind, lexeme, rest) ↔
      ∃ rule : Rule, rule.kind = kind ∧ rule.Takes text lexeme rest := by
  simp only [firstRule?, List.findSome?_eq_some_iff, Option.map_eq_some_iff,
    Option.map_eq_none_iff, Prod.mk.injEq, Rule.cut?_eq_none_iff]
  constructor
  · rintro ⟨earlier, rule, later, horder, ⟨_, hcut, hkind, rfl⟩, hfirst⟩
    exact ⟨rule, hkind, Rule.cut?_eq_some_iff.mp hcut, earlier, later, horder, hfirst⟩
  · rintro ⟨rule, hkind, hlongest, earlier, later, horder, hfirst⟩
    exact ⟨earlier, rule, later, horder,
      ⟨_, Rule.cut?_eq_some_iff.mpr hlongest, hkind, rfl⟩, hfirst⟩

theorem Rule.mem_order (rule : Rule) : rule ∈ Rule.order := by
  cases rule <;> simp [Rule.order]

theorem firstRule?_eq_none_iff {text : Text} : firstRule? text = none ↔ Unclaimed text := by
  simp only [firstRule?, List.findSome?_eq_none_iff, Option.map_eq_none_iff,
    Rule.cut?_eq_none_iff]
  exact ⟨fun h rule => h rule rule.mem_order, fun h rule _ => h rule⟩

end MarkupPreview
