import MarkupPreview.Proofs.BlankSource
import MarkupPreview.Proofs.VisibleText

/-!
# The first fault of a document

Directives can bring a style into any state: a relative size can overflow or reach
zero, a family can be blank, and a later directive can repair either. What is drawn
in the style decides whether that matters, and only paragraphs are. So a document
fails exactly if one of its paragraphs was opened in a faulty style, whatever the
styles of headings, formulas and directives, and the failure is about the first such
paragraph.

A faulty size is tested for being at most zero. For a number that is the same as not
being positive, which needs the model of floats (`not_le_zero_iff`); for what is no
number the test for being finite comes first.

## Main results

* `renderBlocks_eq_error_iff` — the first block that cannot be rendered decides.
* `draws_of_renderBlock` — a paragraph that is drawn keeps the style of its block.
* `compileText_faults` — when compiling fails, what the failure says, and what is
  drawn otherwise.
-/

namespace MarkupPreview

/-! ## Faulty styles -/

/-- The size is a positive number. -/
def IsPositiveNumber (size : Float) : Prop := size.isFinite = true ∧ 0 < size

instance (size : Float) : Decidable (IsPositiveNumber size) :=
  inferInstanceAs (Decidable (_ ∧ _))

theorem unpack_zero : (0.0 : Float).toModel.unpack = .zero .positive := rfl

/-- A number is not positive exactly if it is at most zero, either zero. -/
theorem not_le_zero_iff {size : Float} (h : size.isFinite = true) : ¬ size ≤ 0.0 ↔ 0 < size := by
  have hle : size ≤ 0.0 ↔ size.toModel.unpack.le (.zero .positive) = true :=
    unpack_zero ▸ decide_eq_true_iff
  have hlt : 0 < size ↔ (Float.Model.UnpackedFloat.zero .positive).lt size.toModel.unpack = true :=
    unpack_zero ▸ decide_eq_true_iff
  have hfinite : size.toModel.unpack.isFinite = true := h
  rw [hle, hlt]
  cases hsize : size.toModel.unpack with
  | infinity sign =>
      rw [hsize] at hfinite
      cases hfinite
  | notANumber =>
      rw [hsize] at hfinite
      cases hfinite
  | zero sign => cases sign <;> decide
  | finite sign mantissa exponent hpos =>
      cases sign with
      | positive => exact iff_of_true Bool.false_ne_true rfl
      | negative => exact iff_of_false (fun hnot => hnot rfl) Bool.false_ne_true

theorem Style.isUsableSize_iff (size : Float) :
    isUsableSize size = true ↔ IsPositiveNumber size := by
  rw [isUsableSize, IsPositiveNumber, Bool.and_eq_true, Bool.not_eq_true', decide_eq_false_iff_not]
  exact and_congr_right not_le_zero_iff

/-- Nothing can be drawn in the style. -/
def Style.Faulty (style : Style) : Prop :=
  ¬ IsPositiveNumber style.fontSize ∨ style.fontFamily.isBlank = true

/-- The size is looked at first. -/
theorem Style.fault?_eq_some_iff {style : Style} {fault : StyleFault} :
    style.fault? = some fault ↔ style.Faulty ∧
      fault = if IsPositiveNumber style.fontSize then .fontFamily
        else .fontSize style.fontSize := by
  unfold fault? Faulty
  by_cases hsize : IsPositiveNumber style.fontSize
  · have husable := (isUsableSize_iff _).mpr hsize
    cases style.fontFamily.isBlank <;> simp [hsize, husable, eq_comm (b := fault)]
  · have husable : isUsableSize style.fontSize = false := by
      rw [← Bool.not_eq_true, isUsableSize_iff]
      exact hsize
    simp [hsize, husable, eq_comm (b := fault)]

theorem Style.not_faulty_of_fault? {style : Style} (h : style.fault? = none) :
    IsPositiveNumber style.fontSize ∧ style.fontFamily.isBlank = false := by
  rw [fault?_eq_none_iff, isUsableSize_iff] at h
  exact h

/-! ## Blocks that cannot be rendered -/

/-- A paragraph in a faulty style. -/
def Block.Faulty (block : Block) : Prop := block.kind = .paragraph ∧ block.style.Faulty

instance : DecidablePred Block.Faulty := fun block =>
  inferInstanceAs (Decidable (_ ∧ (¬ IsPositiveNumber block.style.fontSize ∨ _)))

theorem renderBlock_eq_error_iff {block : Block} {error : RenderError} :
    renderBlock block = .error error ↔
      block.kind = .paragraph ∧ ∃ fault, block.style.fault? = some fault ∧
        error = ⟨fault, block.lines.start⟩ := by
  unfold renderBlock
  cases hkind : block.kind with
  | paragraph => cases hfault : block.style.fault? <;> simp [eq_comm]
  | _ => simp

theorem exists_error_renderBlock_iff {block : Block} :
    (∃ error, renderBlock block = .error error) ↔ block.Faulty := by
  simp only [renderBlock_eq_error_iff, Style.fault?_eq_some_iff, Block.Faulty]
  constructor
  · rintro ⟨error, hkind, fault, ⟨hfaulty, -⟩, -⟩
    exact ⟨hkind, hfaulty⟩
  · rintro ⟨hkind, hfaulty⟩
    exact ⟨_, hkind, _, ⟨hfaulty, rfl⟩, rfl⟩

/-- The first block that cannot be rendered decides the error. -/
theorem renderBlocks_eq_error_iff {blocks : List Block} {error : RenderError} :
    renderBlocks blocks = .error error ↔
      ∃ block, blocks.find? (·.Faulty) = some block ∧ renderBlock block = .error error := by
  induction blocks with
  | nil => simp [renderBlocks]
  | cons first rest ih =>
      cases hfirst : renderBlock first with
      | error found =>
          have hfaulty : first.Faulty := exists_error_renderBlock_iff.mp ⟨found, hfirst⟩
          have hfind : (first :: rest).find? (·.Faulty) = some first :=
            List.find?_cons_of_pos (by simpa using hfaulty)
          rw [hfind]
          simp [renderBlocks, hfirst]
      | ok node =>
          have hsound : ¬ first.Faulty := by
            rw [← exists_error_renderBlock_iff, hfirst]
            rintro ⟨error, herror⟩
            cases herror
          have hfind : (first :: rest).find? (·.Faulty) = rest.find? (·.Faulty) :=
            List.find?_cons_of_neg (by simpa using hsound)
          rw [hfind, ← ih]
          cases hrest : renderBlocks rest <;> simp [renderBlocks, hfirst, hrest, Except.map]

theorem faulty_of_find? {blocks : List Block} {block : Block}
    (h : blocks.find? (·.Faulty) = some block) : block.Faulty := by
  simpa using List.find?_some h

theorem exists_error_renderBlocks_iff {blocks : List Block} :
    (∃ error, renderBlocks blocks = .error error) ↔ ∃ block ∈ blocks, block.Faulty := by
  simp only [renderBlocks_eq_error_iff]
  constructor
  · rintro ⟨error, block, hfind, -⟩
    exact ⟨block, List.mem_of_find?_eq_some hfind, faulty_of_find? hfind⟩
  · rintro ⟨block, hmem, hfaulty⟩
    have hsome : (blocks.find? (·.Faulty)).isSome :=
      List.find?_isSome.mpr ⟨block, hmem, decide_eq_true hfaulty⟩
    obtain ⟨first, hfirst⟩ := Option.isSome_iff_exists.mp hsome
    obtain ⟨error, herror⟩ := exists_error_renderBlock_iff.mpr (faulty_of_find? hfirst)
    exact ⟨error, first, hfirst, herror⟩

/-! ## What is drawn -/

/-- The node stands for the block. A paragraph keeps the style of its block, in which it
can be drawn. -/
inductive DisplayNode.Draws (block : Block) : DisplayNode → Prop
  | heading {level : Nat} (hkind : block.kind = .heading level) (text : Text) :
      Draws block (.heading (shownLevel level) (headingSize level) text block.lines.start)
  | mathBlock (hkind : block.kind = .mathBlock) (content : Text) :
      Draws block (.mathBlock content block.lines.start)
  | paragraph (hkind : block.kind = .paragraph) (hsize : IsPositiveNumber block.style.fontSize)
      (hfamily : block.style.fontFamily.isBlank = false) (children : List InlineNode) :
      Draws block (.paragraph block.style.fontFamily block.style.fontSize children block.lines)

theorem draws_of_renderBlock {block : Block} {node : DisplayNode}
    (h : renderBlock block = .ok (some node)) : node.Draws block := by
  unfold renderBlock at h
  simp only at h
  split at h
  · cases h
  · rename_i level hkind
    cases h
    exact .heading hkind _
  · rename_i hkind
    cases h
    exact .mathBlock hkind _
  · rename_i hkind
    split at h
    · cases h
    · rename_i hfault
      cases h
      obtain ⟨hsize, hfamily⟩ := Style.not_faulty_of_fault? hfault
      exact .paragraph hkind hsize hfamily _

/-! ## Failures of a source -/

section

variable {base : Style} {source : Text}

theorem compileText_eq_error_iff {error : CompileError} :
    compileText base source = .error error ↔ source.isBlank = false ∧
      ∃ failure, renderBlocks (classify base (Token.ofSource source)).blocks = .error failure ∧
        error = .render failure := by
  unfold compileText compileTokens render
  cases hblank : source.isBlank with
  | true => simp
  | false =>
      cases hnodes : renderBlocks (classify base (Token.ofSource source)).blocks with
      | error failure => simp [hnodes, Except.map, eq_comm]
      | ok nodes => simp [hnodes, Except.map]

/-- A blank source has no block, faulty or not. -/
theorem blocks_of_isBlank (base : Style) (h : source.isBlank = true) :
    (classify base (Token.ofSource source)).blocks = [] := by
  rw [classify, segments_of_isBlank h]
  rfl

/-- A paragraph starts on a line with something on it. -/
theorem exists_line_of_paragraph {block : Block}
    (hmem : block ∈ (classify base (Token.ofSource source)).blocks)
    (hkind : block.kind = .paragraph) :
    ∃ line, source.lines[block.lines.start]? = some line ∧ line.isBlank = false := by
  have hfits := fits_of_mem_blocks hmem
  obtain ⟨tokens, htokens, -⟩ := hfits.opened
  obtain ⟨line, hline, rfl⟩ := Token.getElem?_ofSource htokens
  refine ⟨line, hline, ?_⟩
  have hcontent := hfits.content hkind _ ⟨Nat.le_refl _, hfits.start_lt_stop⟩ _ htokens
  rw [← Bool.not_eq_true, ← LineRole.of_ofLine_eq_blank_iff, hcontent]
  exact LineRole.noConfusion

/-- The failure is about the given block, which is the first faulty one of a source. -/
structure RenderError.IsAbout (source : Text) (blocks : List Block) (block : Block)
    (failure : RenderError) : Prop where
  mem : block ∈ blocks
  faulty : block.Faulty
  /-- Any other faulty block stands further down. -/
  first : ∀ other ∈ blocks, other.Faulty → other = block ∨ block.lines.stop ≤ other.lines.start
  /-- A size that is no positive number is named, and the family only if the size is one. -/
  fault_eq : failure.fault =
    if IsPositiveNumber block.style.fontSize then .fontFamily else .fontSize block.style.fontSize
  line_eq : failure.line = block.lines.start
  visible : ∃ line, source.lines[failure.line]? = some line ∧ line.isBlank = false

theorem isAbout_of_renderBlocks {failure : RenderError}
    (h : renderBlocks (classify base (Token.ofSource source)).blocks = .error failure) :
    ∃ block, failure.IsAbout source (classify base (Token.ofSource source)).blocks block := by
  obtain ⟨block, hfind, hblock⟩ := renderBlocks_eq_error_iff.mp h
  obtain ⟨hkind, fault, hfault, rfl⟩ := renderBlock_eq_error_iff.mp hblock
  obtain ⟨hfaulty, hfault⟩ := Style.fault?_eq_some_iff.mp hfault
  have hmem := List.mem_of_find?_eq_some hfind
  obtain ⟨-, front, back, hsplit, hfront⟩ := List.find?_eq_some_iff_append.mp hfind
  refine ⟨block,
    { mem := hmem
      faulty := ⟨hkind, hfaulty⟩
      first := fun other hother hother' => ?_
      fault_eq := hfault
      line_eq := rfl
      visible := exists_line_of_paragraph hmem hkind }⟩
  -- No block in front is faulty, and those behind start further down.
  have hordered := pairwise_blocks base source
  rw [hsplit] at hordered hother
  rcases List.mem_append.mp hother with hother | hother
  · have hsound := hfront other hother
    simp [hother'] at hsound
  · rcases List.mem_cons.mp hother with rfl | hother
    · exact .inl rfl
    · exact .inr ((List.pairwise_cons.mp (List.pairwise_append.mp hordered).2.1).1 other hother)

end

/-! ## The law -/

/-- Compiling a source fails exactly if the source is not blank and one of its
paragraphs has a faulty style. The failure is then about the first of them, and it and
its diagnostic point at the first line of that paragraph. Otherwise each block but the
directives is drawn as one node, in order, every paragraph in the style of its
block. -/
theorem compileText_faults (base : Style) (source : Text) :
    let blocks := (classify base (Token.ofSource source)).blocks
    ((∃ error, compileText base source = .error error) ↔
        source.isBlank = false ∧ ∃ block ∈ blocks, block.Faulty) ∧
      (∀ error, compileText base source = .error error →
        ∃ failure block, error = .render failure ∧ failure.IsAbout source blocks block ∧
          error.diagnostic.line = some block.lines.start) ∧
      ∀ result, compileText base source = .ok result →
        List.Forall₂ (fun block node => node.Draws block)
          (blocks.filter (·.kind ≠ .directive)) result.tree.nodes := by
  intro blocks
  refine ⟨?_, ?_, ?_⟩
  · rw [← exists_error_renderBlocks_iff]
    constructor
    · rintro ⟨error, herror⟩
      obtain ⟨hblank, failure, hfailure, -⟩ := compileText_eq_error_iff.mp herror
      exact ⟨hblank, failure, hfailure⟩
    · rintro ⟨hblank, failure, hfailure⟩
      exact ⟨.render failure, compileText_eq_error_iff.mpr ⟨hblank, failure, hfailure, rfl⟩⟩
  · intro error herror
    obtain ⟨-, failure, hfailure, rfl⟩ := compileText_eq_error_iff.mp herror
    obtain ⟨block, habout⟩ := isAbout_of_renderBlocks hfailure
    exact ⟨failure, block, rfl, habout, congrArg some habout.line_eq⟩
  · intro result hresult
    cases hblank : source.isBlank with
    | true =>
        have hblocks : blocks = [] := blocks_of_isBlank base hblank
        rw [compileText_blank hblank] at hresult
        cases hresult
        rw [hblocks]
        exact .nil
    | false =>
        have hrendered := forall₂_renderBlocks (renderBlocks_of_compileText hblank hresult)
        exact hrendered.imp fun _ _ hnode => draws_of_renderBlock hnode

/-- A negative size does no harm to a formula. The paragraph behind it fails, although
the size is repaired further down. -/
theorem compileText_faults_negative :
    let source : Text := "#set text(size: -2pt)\n$ x $\na\n#set text(size: 9pt)\nb".toList
    let blocks := (classify .standard (Token.ofSource source)).blocks
    ∃ failure block, compileText .standard source = .error (.render failure) ∧
      failure.IsAbout source blocks block ∧ failure.line = 2 := by
  intro source blocks
  obtain ⟨hfails, hfailure, -⟩ := compileText_faults .standard source
  have hline : (match compileText .standard source with
      | .error error => error.diagnostic.line
      | .ok _ => none) = some 2 := by decide +kernel
  have hfaulty : source.isBlank = false ∧ ∃ block ∈ blocks, block.Faulty := by
    decide +kernel
  obtain ⟨error, herror⟩ := hfails.mpr hfaulty
  obtain ⟨failure, block, rfl, habout, -⟩ := hfailure error herror
  rw [herror] at hline
  exact ⟨failure, block, herror, habout, Option.some.inj hline⟩

end MarkupPreview
