import MarkupPreview.Command
import MarkupPreview.Proofs.JsonReadBack

/-!
# New projects

A project that was just started has to work: the configuration that is written is the one
that is loaded afterwards. It is written from one side and read from the other, by names of
fields that are spelled out on either, and what is read is checked before it is accepted.

So the configuration is followed through its JSON text, record by record. For the quiet
time this needs that it fits into 64 bits, and for the font size that its shortest decimal
is read as the same double, which is a matter of that size alone. The standard size is such
a size.

What was in the folder matters only by the names of two files. A configuration is replaced
by force alone, an example document never is, and no other file is touched.

## Main results

* `Config.ofText_write` — a sound configuration is read back from what is written.
* `Command.init_loads` — a project that was just started loads the standard configuration
  with the quiet time that was asked for, and no file is lost but by force.
-/

namespace MarkupPreview

open Json

/-! ## Records -/

/-- A font size is read back as it is written. -/
def ReadsBack (size : Float) : Prop := (numberDocument size).float? = some size

theorem readsBack_standard : ReadsBack Style.standard.fontSize := by
  have hnumeral : numeral? (numberForm.write Style.standard.fontSize) =
      some (⟨false, ['1', '2'], some ['0'], none⟩, []) := by decide +kernel
  have hfloat : (Numeral.mk false ['1', '2'] (some ['0']) none).toFloat? =
      some Style.standard.fontSize := by
    simp only [Numeral.toFloat?]
    rw [scale]
    decide +kernel
  unfold ReadsBack numberDocument
  rw [hnumeral]
  exact hfloat

theorem Style.ofDocument?_document {style : Style} (hsize : ReadsBack style.fontSize) :
    ofDocument? style.toJson.document = some style := by
  have hrecord : style.toJson.document.record? ["fontFamily", "fontSizePt"] =
      some [some (.string (units style.fontFamily)), some (numberDocument style.fontSize)] := by
    rw [toJson, document, Document.record?, Document.decodeKeys?_fieldDocuments]
    rfl
  have hfamily : (Document.string (units style.fontFamily)).text? = some style.fontFamily :=
    decode?_units style.fontFamily
  have hfloat : (numberDocument style.fontSize).float? = some style.fontSize := hsize
  unfold ofDocument?
  rw [hrecord]
  simp [fieldOr, hfamily, hfloat]

/-- A quiet time is read back if it fits into 64 bits. -/
theorem word64?_natural {n : Nat} (h : n ≤ word64Max) :
    (natural n).document.word64? = some n := by
  have hvalue : Decimal.digitsValue (Decimal.natText n) = n := Decimal.digitsValue_natText n
  have hsign : ¬(n : Int) < 0 := Int.not_lt.mpr (Int.natCast_nonneg n)
  simp [natural, document, Document.word64?, Numeral.toWord64?, Numeral.ofInt, hvalue, hsign, h]

theorem PreviewSettings.ofDocument?_document {settings : PreviewSettings}
    (hsize : ReadsBack settings.baseStyle.fontSize) (hword : settings.debounceMs ≤ word64Max) :
    ofDocument? settings.toJson.document = some settings := by
  have hrecord : settings.toJson.document.record? ["debounceMs", "baseStyle"] =
      some [some (natural settings.debounceMs).document,
        some settings.baseStyle.toJson.document] := by
    rw [toJson, document, Document.record?, Document.decodeKeys?_fieldDocuments]
    rfl
  have hdebounce := word64?_natural hword
  have hstyle := Style.ofDocument?_document hsize
  unfold ofDocument?
  rw [hrecord]
  simp [fieldOr, hdebounce, hstyle]

theorem Config.ofDocument?_document {config : Config}
    (hsize : ReadsBack config.preview.baseStyle.fontSize)
    (hword : config.preview.debounceMs ≤ word64Max) :
    ofDocument? config.toJson.document = some config := by
  have hrecord : config.toJson.document.record? ["preview"] =
      some [some config.preview.toJson.document] := by
    rw [toJson, document, Document.record?, Document.decodeKeys?_fieldDocuments]
    rfl
  have hpreview := PreviewSettings.ofDocument?_document hsize hword
  unfold ofDocument?
  rw [hrecord]
  simp [fieldOr, hpreview]

/-- A sound configuration is read back from what is written, in either layout. -/
theorem Config.ofText_write {config : Config} (layout : Layout)
    (hsize : ReadsBack config.preview.baseStyle.fontSize)
    (hword : config.preview.debounceMs ≤ word64Max)
    (hsound : config.preview.baseStyle.fault? = none) :
    ofText (config.toJson.write layout) = .ok config := by
  have hread : (Document.parse? (config.toJson.write layout)).bind ofDocument? = some config := by
    rw [Document.parse?_write]
    exact ofDocument?_document hsize hword
  have hcheck : config.preview.check = .ok config.preview := by
    unfold PreviewSettings.check
    rw [hsound]
  unfold ofText
  rw [hread]
  simp only [hcheck]
  rfl

/-! ## Folders -/

/-- The standard configuration with the given quiet time. -/
def Config.withDebounce (debounceMs : Nat) : Config :=
  ⟨{ PreviewSettings.standard with debounceMs }⟩

namespace Command

theorem load_initFolder {debounceMs : Nat} (h : debounceMs ≤ word64Max) (folder : Folder) :
    Config.load (initFolder debounceMs folder) = .ok (.withDebounce debounceMs) := by
  have hsound : Style.standard.fault? = none := by decide +kernel
  have htext : Config.ofText (configText debounceMs) = .ok (.withDebounce debounceMs) :=
    Config.ofText_write (.indented 0) readsBack_standard h hsound
  unfold Config.load
  rw [(find?_initFolder debounceMs folder).1]
  simp only [htext]
  rfl

theorem find?_initFolder_of_ne {name : Text} (hconfig : name ≠ configName)
    (hsample : name ≠ sampleName) (debounceMs : Nat) (folder : Folder) :
    (initFolder debounceMs folder).find? name = folder.find? name := by
  simp only [initFolder, Folder.find?_write, hconfig, if_false]
  split
  · rfl
  · rw [Folder.find?_write, if_neg hsample]

/-- Starting a project never fails. Unless there is a configuration and no force, the folder
loads the standard configuration with the quiet time that was asked for afterwards, an
example document that was there is kept, one that was missing is there, and no other file
changes. Otherwise no file changes at all. -/
theorem init_loads {debounceMs : Nat} (h : debounceMs ≤ word64Max) (colours force : Bool)
    (folder : Folder) :
    (init colours force debounceMs folder).1.failure = none ∧
    ((folder.find? configName).isSome ∧ force = false →
      (init colours force debounceMs folder).2 = folder) ∧
    (¬((folder.find? configName).isSome ∧ force = false) →
      Config.load (init colours force debounceMs folder).2 = .ok (.withDebounce debounceMs) ∧
      (init colours force debounceMs folder).2.find? sampleName =
        some ((folder.find? sampleName).getD sampleDocument) ∧
      ∀ name, name ≠ configName → name ≠ sampleName →
        (init colours force debounceMs folder).2.find? name = folder.find? name) := by
  unfold init
  by_cases hspared : (folder.find? configName).isSome ∧ force = false
  · have htest : ((folder.find? configName).isSome && !force) = true := by simp [hspared]
    rw [if_pos htest]
    exact ⟨rfl, fun _ => rfl, fun hnot => absurd hspared hnot⟩
  · have htest : ¬((folder.find? configName).isSome && !force) = true := by simpa using hspared
    rw [if_neg htest]
    refine ⟨rfl, fun hspare => absurd hspare hspared, fun _ => ?_⟩
    exact ⟨load_initFolder h folder, (find?_initFolder debounceMs folder).2,
      fun name hconfig hsample => find?_initFolder_of_ne hconfig hsample debounceMs folder⟩

/-- The longest quiet time, by force over a configuration that does not load. -/
theorem init_loads_longest :
    let folder : Folder := ⟨"p".toList, [(configName, "\x7b".toList), (sampleName, [])]⟩
    let debounceMs := 18446744073709551615
    (Config.load folder).toOption = none ∧ debounceMs ≤ word64Max ∧
      Config.load (init false true debounceMs folder).2 = .ok (.withDebounce debounceMs) ∧
      (init false true debounceMs folder).2.find? sampleName = some [] := by
  intro folder debounceMs
  have hbroken : (Config.load folder).toOption = none := by decide +kernel
  have hword : debounceMs ≤ word64Max := by decide
  obtain ⟨-, -, hstarted⟩ := init_loads hword false true folder
  obtain ⟨hload, hsample, -⟩ := hstarted (by decide)
  exact ⟨hbroken, hword, hload, hsample⟩

end Command

end MarkupPreview
