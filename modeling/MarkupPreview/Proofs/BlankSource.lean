import MarkupPreview.Proofs.BlockCover
import MarkupPreview.Proofs.SessionCourse

/-!
# Blank sources

A blank source is not compiled: the empty result stands for what the pipeline would
make of it. The pipeline finds no block in such a source, so it renders the empty
tree too, and the two trees can differ in one thing only, the style at the end of
the document. The pipeline ends in the base style it started in, and the empty
result always carries the standard style.

## Main results

* `segments_of_isBlank` — a blank source has no blocks, however many lines it has.
* `compileTokens_of_isBlank` — the pipeline renders it to the empty tree in the base
  style.
* `compile_eq_pipeline_iff` — compiling a source agrees with the pipeline exactly if
  the source is not blank or the base style is the standard one.
-/

namespace MarkupPreview

/-! ## Lines of a blank source -/

theorem Text.mem_of_mem_lines {text line : Text} {c : Char} (hline : line ∈ lines text)
    (hc : c ∈ line) : c ∈ text := by
  rw [← joinLines_lines text]
  obtain ⟨first, rest, hlines⟩ := List.exists_cons_of_ne_nil (lines_ne_nil text)
  rw [hlines] at hline ⊢
  rw [joinLines, List.mem_append, List.mem_flatMap]
  rcases List.mem_cons.mp hline with rfl | hline
  · exact .inl hc
  · exact .inr ⟨line, hline, List.mem_cons_of_mem _ hc⟩

theorem Text.isBlank_of_mem_lines {text line : Text} (h : text.isBlank = true)
    (hline : line ∈ lines text) : line.isBlank = true := by
  rw [isBlank_iff] at h ⊢
  intro c hc
  exact h c (mem_of_mem_lines hline hc)

/-! ## The pipeline -/

variable {source : Text}

/-- No line of a blank source opens a segment. -/
theorem segments_of_isBlank (h : source.isBlank = true) :
    segments (Token.ofSource source) = [] := by
  rw [List.eq_nil_iff_forall_not_mem]
  intro segment hmem
  obtain ⟨tokens, htokens, hkind⟩ := ((tiles_segments _).fits_of_mem hmem).opened
  obtain ⟨line, hline, rfl⟩ := Token.getElem?_ofSource htokens
  have hblank : line.isBlank = true := Text.isBlank_of_mem_lines h (List.mem_of_getElem? hline)
  rw [(LineRole.of_ofLine_eq_blank_iff _ line).mpr hblank] at hkind
  cases hkind

theorem compileTokens_of_isBlank (base : Style) (h : source.isBlank = true) :
    compileTokens base (Token.ofSource source) = .ok (.ofTree (.ofNodes [] base)) := by
  have hclassify : classify base (Token.ofSource source) = ⟨[], base⟩ := by
    rw [classify, segments_of_isBlank h]
    rfl
  rw [compileTokens, hclassify]
  rfl

theorem compileText_of_not_isBlank (base : Style) (h : source.isBlank = false) :
    compileText base source = compileTokens base (Token.ofSource source) := by
  simp [compileText, h]

/-- The empty result is that of the pipeline in the standard style alone. -/
theorem empty_eq_ofNodes_iff (base : Style) :
    Compilation.empty = .ofTree (.ofNodes [] base) ↔ base = .standard := by
  constructor
  · intro h
    exact (congrArg (fun result => result.tree.style) h).symm
  · rintro rfl
    rfl

/-! ## The compilers -/

/-- A compiler that has compiled some sources. -/
def CachedCompiler.afterSources (base : Style) (sources : List Text) : CachedCompiler :=
  sources.foldl (fun compiler source => (compiler.compile source).2) (.new base)

theorem CachedCompiler.sound_afterSources (base : Style) (sources : List Text) :
    Sound base (afterSources base sources) := by
  unfold afterSources
  generalize hstart : CachedCompiler.new base = start
  have hsound : Sound base start := hstart ▸ sound_new base
  clear hstart
  induction sources generalizing start with
  | nil => exact hsound
  | cons source rest ih => exact ih _ (hsound.compile source).2

/-- Compiling a source, alone or after any others, gives what lexing, classifying and
rendering it gives, exactly if the source is not blank or the base style is the
standard one. On a blank source the pipeline gives the empty tree in the base style,
so nothing but the style ever differs. -/
theorem compile_eq_pipeline_iff (base : Style) (earlier : List Text) (source : Text) :
    let pipeline := compileTokens base (Token.ofSource source)
    let cached := ((CachedCompiler.afterSources base earlier).compile source).1
    (compileText base source = pipeline ↔ source.isBlank = false ∨ base = .standard) ∧
      (cached = pipeline ↔ source.isBlank = false ∨ base = .standard) ∧
      pipeline =
        if source.isBlank then .ok (.ofTree (.ofNodes [] base)) else compileText base source := by
  intro pipeline cached
  have hcached : cached = compileText base source :=
    ((CachedCompiler.sound_afterSources base earlier).compile source).1
  rw [hcached]
  by_cases hblank : source.isBlank = true
  · have hpipeline : pipeline = .ok (.ofTree (.ofNodes [] base)) :=
      compileTokens_of_isBlank base hblank
    have hagree :
        compileText base source = pipeline ↔ source.isBlank = false ∨ base = .standard := by
      rw [compileText_blank hblank, hpipeline, Except.ok.injEq, empty_eq_ofNodes_iff]
      simp [hblank]
    exact ⟨hagree, hagree, by rw [if_pos hblank, hpipeline]⟩
  · rw [Bool.not_eq_true] at hblank
    have hsame : compileText base source = pipeline := compileText_of_not_isBlank base hblank
    have hagree :
        compileText base source = pipeline ↔ source.isBlank = false ∨ base = .standard :=
      iff_of_true hsame (.inl hblank)
    exact ⟨hagree, hagree, by rw [if_neg (by simp [hblank]), hsame]⟩

/-- In a base style other than the standard one a blank source does not agree: the
style at the end of the document is lost. -/
theorem compile_ne_pipeline_blank :
    let base : Style := ⟨"Inter".toList, 10.0⟩
    let source : Text := " \n\t".toList
    compileText base source ≠ compileTokens base (Token.ofSource source) ∧
      ((CachedCompiler.new base).compile source).1 ≠
        compileTokens base (Token.ofSource source) := by
  intro base source
  have hblank : source.isBlank = true := by decide
  have hstyle : Compilation.empty ≠ .ofTree (.ofNodes [] base) := by
    rw [Ne, empty_eq_ofNodes_iff]
    intro h
    exact absurd (congrArg Style.fontFamily h) (by decide)
  have hlost : (.ok .empty : CompileOutcome) ≠ compileTokens base (Token.ofSource source) := by
    rw [compileTokens_of_isBlank base hblank]
    exact fun h => hstyle (Except.ok.inj h)
  have hcached : ((CachedCompiler.new base).compile source).1 = .ok .empty := by
    simp [CachedCompiler.compile, hblank]
  rw [compileText_blank hblank, hcached]
  exact ⟨hlost, hlost⟩

end MarkupPreview
