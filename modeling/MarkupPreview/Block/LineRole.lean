import MarkupPreview.Block.Basic
import MarkupPreview.Directive.ArgToken

/-!
# The role of a line

What a line means for the structure of a document is decided by its *lead*, the
first token that is not blank:

* no lead: the line is blank;
* a heading: a heading of the level that its equals signs count;
* one of five keywords: a directive, whose arguments start after the lead;
* inline math alone on the line, with white space just inside both dollar
  signs: a math block;
* anything else: content.

## Main results

* `LineRole.of_eq_blank_iff` — a line is blank exactly when each of its tokens
  is.
* `LineRole.of_eq_heading_iff`, `of_eq_directive_iff`, `of_eq_mathBlock_iff` — the
  leads of the other roles.
-/

namespace MarkupPreview

/-- What a line means for the structure of a document. -/
inductive LineRole where
  | blank
  | heading (level : Nat)
  /-- A directive: its keyword, and the tokens of the line after it. -/
  | directive (keyword : Text) (arguments : List Token)
  | mathBlock
  | content
deriving DecidableEq, Repr

/-- The keyword of directives that change the style. -/
def setKeyword : Text := "#set".toList

/-- The keywords that make a line a directive. -/
def directiveKeywords : List Text :=
  [setKeyword, "#let".toList, "#show".toList, "#import".toList, "#include".toList]

/-- A text without its first and its last character. -/
def interior (text : Text) : Text := (text.drop 1).dropLast

@[simp] theorem interior_marked (mark : Char) (body : Text) :
    interior (mark :: body ++ [mark]) = body := by
  simp [interior]

/-- Whether there is white space just inside both delimiters. -/
def isSpacedInside (text : Text) : Bool :=
  (interior text).head?.any isSpace && (interior text).getLast?.any isSpace

namespace LineRole

/-- The role of a line with the given tokens. -/
def of (tokens : List Token) : LineRole :=
  match tokens.dropWhile Token.isBlank with
  | [] => blank
  | lead :: after =>
      match lead.kind with
      | .heading => heading (headingParts lead.text).1
      | .keyword => if lead.text ∈ directiveKeywords then directive lead.text after else content
      | .mathInline =>
          if after.all Token.isBlank && isSpacedInside lead.text then mathBlock else content
      | _ => content

/-- Whether a line is content. -/
def isContent (tokens : List Token) : Bool := of tokens == content

theorem of_eq_blank_iff {tokens : List Token} :
    of tokens = blank ↔ ∀ token ∈ tokens, token.isBlank = true := by
  rw [← List.all_eq_true]
  induction tokens with
  | nil => simp [of]
  | cons token rest ih =>
      cases hblank : token.isBlank with
      | true =>
          have hof : of (token :: rest) = of rest := by simp [of, hblank]
          simp [hof, hblank, ih]
      | false =>
          simp only [of, List.dropWhile_cons, hblank, List.all_cons, Bool.false_and]
          refine ⟨fun h => ?_, fun h => by simp at h⟩
          simp only [Bool.false_eq_true, if_false] at h
          split at h <;> (try split at h) <;> simp at h

/-! ## Leads -/

theorem not_isBlank_of_kind {token : Token} (h : token.kind ≠ .plainText) :
    token.isBlank = false := by
  simp [Token.isBlank, Token.isPlain, h]

theorem dropWhile_lead {before after : List Token} {lead : Token}
    (hbefore : ∀ token ∈ before, token.isBlank = true) (hlead : lead.isBlank = false) :
    (before ++ lead :: after).dropWhile Token.isBlank = lead :: after := by
  rw [List.dropWhile_append_of_pos hbefore, List.dropWhile_cons_of_neg (by simp [hlead])]

/-- A line that is not blank has a lead. -/
theorem exists_lead {tokens : List Token} (h : of tokens ≠ blank) :
    ∃ before lead after, tokens = before ++ lead :: after ∧
      (∀ token ∈ before, token.isBlank = true) ∧ lead.isBlank = false := by
  have hhead := List.head?_dropWhile_not Token.isBlank tokens
  cases hdrop : tokens.dropWhile Token.isBlank with
  | nil => simp [of, hdrop] at h
  | cons lead after =>
      rw [hdrop] at hhead
      refine ⟨tokens.takeWhile Token.isBlank, lead, after, ?_, ?_, by simpa using hhead⟩
      · rw [← hdrop, List.takeWhile_append_dropWhile]
      · exact List.all_eq_true.mp List.all_takeWhile

theorem of_eq_heading_iff {tokens : List Token} {level : Nat} :
    of tokens = heading level ↔
      ∃ before lead after, tokens = before ++ lead :: after ∧
        (∀ token ∈ before, token.isBlank = true) ∧
          lead.kind = .heading ∧ (headingParts lead.text).1 = level := by
  constructor
  · intro h
    have hsome : of tokens ≠ blank := by simp [h]
    obtain ⟨before, lead, after, rfl, hbefore, hlead⟩ := exists_lead hsome
    rw [of, dropWhile_lead hbefore hlead] at h
    simp only at h
    split at h
    · rename_i hkind
      exact ⟨before, lead, after, rfl, hbefore, hkind, heading.inj h⟩
    · split at h <;> cases h
    · split at h <;> cases h
    · cases h
  · intro h
    obtain ⟨before, lead, after, rfl, hbefore, hkind, rfl⟩ := h
    rw [of, dropWhile_lead hbefore (not_isBlank_of_kind (by simp [hkind]))]
    simp only [hkind]

theorem of_eq_directive_iff {tokens arguments : List Token} {keyword : Text} :
    of tokens = directive keyword arguments ↔
      ∃ before lead, tokens = before ++ lead :: arguments ∧
        (∀ token ∈ before, token.isBlank = true) ∧
          lead.kind = .keyword ∧ lead.text = keyword ∧ keyword ∈ directiveKeywords := by
  constructor
  · intro h
    have hsome : of tokens ≠ blank := by simp [h]
    obtain ⟨before, lead, after, rfl, hbefore, hlead⟩ := exists_lead hsome
    rw [of, dropWhile_lead hbefore hlead] at h
    simp only at h
    split at h
    · cases h
    · rename_i hkind
      split at h
      · rename_i hmem
        obtain ⟨rfl, rfl⟩ := directive.inj h
        exact ⟨before, lead, rfl, hbefore, hkind, rfl, hmem⟩
      · cases h
    · split at h <;> cases h
    · cases h
  · intro h
    obtain ⟨before, lead, rfl, hbefore, hkind, rfl, hmem⟩ := h
    rw [of, dropWhile_lead hbefore (not_isBlank_of_kind (by simp [hkind]))]
    simp only [hkind, if_pos hmem]

theorem of_eq_mathBlock_iff {tokens : List Token} :
    of tokens = mathBlock ↔
      ∃ before lead after, tokens = before ++ lead :: after ∧
        (∀ token ∈ before, token.isBlank = true) ∧ (∀ token ∈ after, token.isBlank = true) ∧
          lead.kind = .mathInline ∧ isSpacedInside lead.text = true := by
  constructor
  · intro h
    have hsome : of tokens ≠ blank := by simp [h]
    obtain ⟨before, lead, after, rfl, hbefore, hlead⟩ := exists_lead hsome
    rw [of, dropWhile_lead hbefore hlead] at h
    simp only at h
    split at h
    · cases h
    · split at h <;> cases h
    · rename_i hkind
      split at h
      · rename_i halone
        rw [Bool.and_eq_true, List.all_eq_true] at halone
        exact ⟨before, lead, after, rfl, hbefore, halone.1, hkind, halone.2⟩
      · cases h
    · cases h
  · intro h
    obtain ⟨before, lead, after, rfl, hbefore, hafter, hkind, hspaced⟩ := h
    rw [of, dropWhile_lead hbefore (not_isBlank_of_kind (by simp [hkind]))]
    simp only [hkind, List.all_eq_true.mpr hafter, hspaced, Bool.and_self, if_true]

end LineRole

/-! ## Directives over several lines -/

/-- What a line contributes to the source of a directive: its text without
comments. -/
def withoutComments (tokens : List Token) : Text :=
  spelling (tokens.filter (·.kind != .comment))

/-- The number of groups that some tokens leave open. Brackets in comments and
in strings do not count. -/
def lineBalance (tokens : List Token) : Int :=
  ArgToken.balance
    (spelling (tokens.filter fun token => token.kind != .comment && token.kind != .stringLiteral))

/-- The number of lines until `depth` open groups are closed, if they ever
are. -/
def linesToClose? (depth : Int) : List (List Token) → Option Nat
  | [] => none
  | line :: rest =>
      if depth + lineBalance line ≤ 0 then some 1
      else (linesToClose? (depth + lineBalance line) rest).map (· + 1)

/-- The number of lines that belong to a directive besides its first: those
until its groups are closed, and none if they never are. -/
def continuation (arguments : List Token) (following : List (List Token)) : Nat :=
  if lineBalance arguments ≤ 0 then 0
  else (linesToClose? (lineBalance arguments) following).getD 0

theorem linesToClose?_le {depth : Int} {lines : List (List Token)} {count : Nat}
    (h : linesToClose? depth lines = some count) : count ≤ lines.length := by
  induction lines generalizing depth count with
  | nil => simp [linesToClose?] at h
  | cons line rest ih =>
      simp only [linesToClose?] at h
      split at h
      · simp only [Option.some.injEq] at h
        simp [← h]
      · simp only [Option.map_eq_some_iff] at h
        obtain ⟨n, hn, rfl⟩ := h
        simpa using ih hn

theorem continuation_le (arguments : List Token) (following : List (List Token)) :
    continuation arguments following ≤ following.length := by
  unfold continuation
  split
  · simp
  · cases h : linesToClose? (lineBalance arguments) following with
    | none => simp
    | some count => simpa using linesToClose?_le h

end MarkupPreview
