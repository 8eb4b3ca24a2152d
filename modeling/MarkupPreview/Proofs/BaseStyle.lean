import MarkupPreview.Preview.Config
import MarkupPreview.Proofs.FirstFault
import MarkupPreview.Proofs.SinglePass

/-!
# Which base styles are accepted

A configuration is checked before any document is seen, and a document is rendered without
a look at the configuration. So both have to draw the line at the same styles. A style that
is refused must be of no use, and one that is accepted must never be what a compilation
fails for.

The style of a block is the base style changed by the set rules in front of it. Where no
line is led by the keyword of set rules every block has the base style, whatever the other
directives say, so a faulty paragraph would mean a faulty base style. The other way round a
paragraph that comes first in a source has no directive in front of it, and it fails if the
base style does.

## Main results

* `style_of_setsNothing` — without set rules every block has the base style.
* `exists_first_block` — content that comes first opens a paragraph in the base style.
* `check_iff_compiles` — a configuration is accepted exactly if every source without set
  rules compiles in its base style.
-/

namespace MarkupPreview

/-! ## Sources without set rules -/

/-- No line of the source is led by the keyword of set rules. -/
def Text.SetsNothing (source : Text) : Prop :=
  ∀ line ∈ source.lines, ¬ line.LeadsWith setKeyword

variable {base : Style} {source : Text}

theorem setRule?_of_setsNothing (h : source.SetsNothing) {segment : Segment}
    (hmem : segment ∈ segments (Token.ofSource source)) : segment.setRule? = none := by
  obtain ⟨tokens, following, hdrop, -, -, htokens⟩ := exists_extent_of_mem hmem
  have hfirst : (Token.ofSource source)[segment.lines.start]? = some tokens := by
    rw [← List.head?_drop, hdrop]
    rfl
  obtain ⟨line, hline, rfl⟩ := Token.getElem?_ofSource hfirst
  cases hrole : LineRole.of (Token.ofLine segment.lines.start line) with
  | directive keyword arguments =>
      have hleads := (LineRole.of_ofLine_eq_directive_iff segment.lines.start).mp ⟨arguments, hrole⟩
      have hkeyword : keyword ≠ setKeyword := by
        rintro rfl
        exact h line (List.mem_of_getElem? hline) hleads.2
      rw [Segment.setRule?_of_directive htokens hrole, if_neg hkeyword]
  | _ =>
      apply Segment.setRule?_of_ne_directive htokens
      rw [hrole]
      exact nofun

/-- Segments without a set rule hand the style on as it is. -/
theorem style_of_mem_styled {found : List Segment} {block : Block}
    (h : ∀ segment ∈ found, segment.setRule? = none)
    (hmem : block ∈ (styled base found).blocks) : block.style = base := by
  induction found with
  | nil => cases hmem
  | cons segment rest ih =>
      obtain ⟨hsegment, hrest⟩ := List.forall_mem_cons.mp h
      have heffect : segment.effect base = base := by
        rw [Segment.effect, hsegment]
      rcases List.mem_cons.mp hmem with rfl | hmem
      · rfl
      · rw [heffect] at hmem
        exact ih hrest hmem

/-- Without set rules every block has the base style. -/
theorem style_of_setsNothing (h : source.SetsNothing) {block : Block}
    (hmem : block ∈ (classify base (Token.ofSource source)).blocks) : block.style = base :=
  style_of_mem_styled (fun _ => setRule?_of_setsNothing h) hmem

theorem exists_ok_of_setsNothing (h : source.SetsNothing) (hsound : base.fault? = none) :
    ∃ result, compileText base source = .ok result := by
  cases hcompile : compileText base source with
  | ok result => exact ⟨result, rfl⟩
  | error error =>
      exfalso
      obtain ⟨-, failure, hfailure, -⟩ := compileText_eq_error_iff.mp hcompile
      obtain ⟨block, hfind, hblock⟩ := renderBlocks_eq_error_iff.mp hfailure
      obtain ⟨-, fault, hfault, -⟩ := renderBlock_eq_error_iff.mp hblock
      rw [style_of_setsNothing h (List.mem_of_find?_eq_some hfind), hsound] at hfault
      cases hfault

/-! ## Sources that start with a paragraph -/

/-- The line with the given index is content, and the lines in front of it are blank. -/
structure Text.OpensParagraph (source : Text) (index : Nat) : Prop where
  blank : ∀ line ∈ source.lines.take index, line.isBlank = true
  content : ∃ line ∈ source.lines[index]?, LineRole.of (Token.ofLine index line) = .content

theorem segmentsFrom_append_of_blank {front : List (List Token)}
    (h : ∀ tokens ∈ front, LineRole.of tokens = .blank) (index : Nat)
    (behind : List (List Token)) :
    segmentsFrom index (front ++ behind) = segmentsFrom (index + front.length) behind := by
  induction front generalizing index with
  | nil => rfl
  | cons line rest ih =>
      obtain ⟨hline, hrest⟩ := List.forall_mem_cons.mp h
      rw [List.cons_append, segmentsFrom_of_blank hline, ih hrest, List.length_cons]
      congr 1
      omega

/-- Content that comes first opens a paragraph in the base style. -/
theorem exists_first_block {index : Nat} (h : source.OpensParagraph index) (base : Style) :
    ∃ block rest, (classify base (Token.ofSource source)).blocks = block :: rest ∧
      block.kind = .paragraph ∧ block.lines.start = index ∧ block.style = base := by
  obtain ⟨line, hline, hrole⟩ := h.content
  have htokens := getElem?_ofSource_of_line hline
  obtain ⟨hlt, hfirst⟩ := List.getElem?_eq_some_iff.mp htokens
  have hfront : ∀ tokens ∈ (Token.ofSource source).take index, LineRole.of tokens = .blank := by
    intro tokens hmem
    obtain ⟨i, hi⟩ := List.getElem?_of_mem hmem
    rw [List.getElem?_take, Option.ite_none_right_eq_some] at hi
    obtain ⟨before, hbefore, rfl⟩ := Token.getElem?_ofSource hi.2
    have hbehind : (source.lines.take index)[i]? = some before := by
      rw [List.getElem?_take, if_pos hi.1, hbefore]
    exact (LineRole.of_ofLine_eq_blank_iff i before).mpr
      (h.blank before (List.mem_of_getElem? hbehind))
  have hkind : (LineRole.of (Token.ofLine index line)).kind? = some .paragraph := by
    rw [hrole]
    rfl
  have hsegments : ∃ first rest, segments (Token.ofSource source) = first :: rest ∧
      first.kind = .paragraph ∧ first.lines.start = index := by
    have hlength : 0 + ((Token.ofSource source).take index).length = index := by
      rw [List.length_take]
      omega
    rw [segments, ← List.take_append_drop index (Token.ofSource source),
      segmentsFrom_append_of_blank hfront, hlength, List.drop_eq_getElem_cons hlt, hfirst,
      segmentsFrom_of_kind? hkind]
    exact ⟨_, _, rfl, rfl, rfl⟩
  obtain ⟨first, rest, hsplit, hfirst, hstart⟩ := hsegments
  rw [classify, hsplit]
  exact ⟨_, _, rfl, hfirst, hstart, rfl⟩

/-- It is the first thing that compiling in a faulty base style fails for. -/
theorem compileText_of_opensParagraph {index : Nat} (h : source.OpensParagraph index)
    {fault : StyleFault} (hfault : base.fault? = some fault) :
    compileText base source = .error (.render ⟨fault, index⟩) := by
  obtain ⟨block, rest, hblocks, hkind, hstart, hstyle⟩ := exists_first_block h base
  have hrender : renderBlock block = .error ⟨fault, index⟩ :=
    renderBlock_eq_error_iff.mpr ⟨hkind, fault, by rw [hstyle, hfault], by rw [hstart]⟩
  have hvisible : source.isBlank = false := by
    rw [← Bool.not_eq_true]
    intro hblank
    have hnone := blocks_of_isBlank base hblank
    rw [hblocks] at hnone
    cases hnone
  refine compileText_eq_error_iff.mpr ⟨hvisible, ⟨fault, index⟩, ?_, rfl⟩
  rw [hblocks, renderBlocks, hrender]

/-! ## The law -/

theorem PreviewSettings.check_eq_error_iff {settings : PreviewSettings} {error : ConfigError} :
    settings.check = .error error ↔
      ∃ fault, settings.baseStyle.fault? = some fault ∧ error = .faulty fault := by
  unfold check
  split <;> simp [*, eq_comm]

/-- Settings are accepted exactly if their base style is sound, and exactly if every source
without set rules compiles in it. If they are refused, for the size or else for the family,
every source that starts with a paragraph fails to compile in the base style: for the same
fault, and at the line where the paragraph starts. -/
theorem check_iff_compiles (debounceMs : Nat) (base : Style) :
    let settings : PreviewSettings := ⟨debounceMs, base⟩
    ((∃ accepted, settings.check = .ok accepted) ↔
        IsPositiveNumber base.fontSize ∧ base.fontFamily.isBlank = false) ∧
      ((∃ accepted, settings.check = .ok accepted) ↔
        ∀ source : Text, source.SetsNothing → ∃ result, compileText base source = .ok result) ∧
      ∀ error, settings.check = .error error → ∀ (source : Text) (index : Nat),
        source.OpensParagraph index →
          ∃ fault, error = .faulty fault ∧
            fault = (if IsPositiveNumber base.fontSize then .fontFamily
              else .fontSize base.fontSize) ∧
            compileText base source = .error (.render ⟨fault, index⟩) := by
  intro settings
  rw [PreviewSettings.check_eq_ok_iff]
  refine ⟨?_, ⟨fun hsound source h => exists_ok_of_setsNothing h hsound, fun hall => ?_⟩, ?_⟩
  · rw [Style.fault?_eq_none_iff, Style.isUsableSize_iff]
  · -- A source of a single letter is a paragraph in the base style.
    have hletter : Text.SetsNothing ['a'] := by
      intro line hline
      obtain rfl := List.mem_singleton.mp hline
      rintro ⟨rest, hrest, -⟩
      cases hrest
    have hopens : Text.OpensParagraph ['a'] 0 := ⟨by decide, by decide +kernel⟩
    obtain ⟨result, hresult⟩ := hall ['a'] hletter
    cases hfault : base.fault? with
    | none => rfl
    | some fault =>
        rw [compileText_of_opensParagraph hopens hfault] at hresult
        cases hresult
  · intro error herror source index hopens
    obtain ⟨fault, hfault, rfl⟩ := PreviewSettings.check_eq_error_iff.mp herror
    have hkind := (Style.fault?_eq_some_iff.mp hfault).2
    exact ⟨fault, rfl, hkind, compileText_of_opensParagraph hopens hfault⟩

/-- A negative size is refused, and it fails the paragraph behind two blank lines. The
standard style is accepted, and a definition and a heading compile in it. -/
theorem check_iff_compiles_negative :
    let base : Style := ⟨"Inter".toList, -3.0⟩
    let refused : PreviewSettings := ⟨250, base⟩
    let source : Text := "\n \na\n= T".toList
    let definition : Text := "#let x = 1\n= T".toList
    refused.check = .error (.faulty (.fontSize (-3.0))) ∧ source.OpensParagraph 2 ∧
      compileText base source = .error (.render ⟨.fontSize (-3.0), 2⟩) ∧
      (∃ accepted, PreviewSettings.standard.check = .ok accepted) ∧ definition.SetsNothing ∧
      ∃ result, compileText .standard definition = .ok result := by
  intro base refused source definition
  have herror : refused.check = .error (.faulty (.fontSize (-3.0))) := by decide +kernel
  have hopens : source.OpensParagraph 2 := ⟨by decide, by decide +kernel⟩
  obtain ⟨-, -, hfails⟩ := check_iff_compiles 250 base
  obtain ⟨fault, hfault, -, hcompile⟩ := hfails _ herror source 2 hopens
  obtain rfl : StyleFault.fontSize (-3.0) = fault := ConfigError.faulty.inj hfault
  have haccepted : ∃ accepted, PreviewSettings.standard.check = .ok accepted :=
    ⟨.standard, by decide +kernel⟩
  have hnothing : definition.SetsNothing := by
    have hlines : definition.lines = ["#let x = 1".toList, "= T".toList] := by decide
    intro line hline
    rw [hlines] at hline
    rintro ⟨rest, hrest, -⟩
    simp only [List.mem_cons, List.not_mem_nil, or_false] at hline
    rcases hline with rfl | rfl <;> cases hrest
  obtain ⟨-, hcompiles, -⟩ := check_iff_compiles standardDebounceMs .standard
  exact ⟨herror, hopens, hcompile, haccepted, hnothing,
    hcompiles.mp haccepted definition hnothing⟩

end MarkupPreview
