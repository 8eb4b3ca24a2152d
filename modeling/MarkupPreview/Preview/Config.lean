import MarkupPreview.Json.Basic
import MarkupPreview.Json.Document
import MarkupPreview.Style

/-!
# Configuration of the preview

A configuration says how long the editor has to be quiet before the source is
compiled, and in which style a document starts. It is kept in a JSON file; what
the file leaves out has its default, and what it has besides is ignored.

A configuration with a faulty base style is refused.

## Main results

* `check_eq_ok_iff` — a configuration is accepted exactly when its base style
  has no fault.
-/

namespace MarkupPreview

/-- The settings of the live preview. -/
structure PreviewSettings where
  debounceMs : Nat
  baseStyle : Style
deriving DecidableEq, Repr

/-- The configuration of a project. -/
structure Config where
  preview : PreviewSettings
deriving DecidableEq, Repr

/-- Why a configuration is refused. -/
inductive ConfigError where
  /-- The text is no configuration. -/
  | malformed
  | faulty (fault : StyleFault)
deriving DecidableEq, Repr

/-- The error as a message. The text for `malformed` stands in for the message of the
JSON reader, which says what is wrong with the file and where. -/
def ConfigError.message : ConfigError → Text
  | malformed => "not a valid configuration".toList
  | faulty (.fontSize size) =>
      "Invalid base font size ".toList ++ Style.sizeText size ++
        ": must be a positive number".toList
  | faulty .fontFamily => "Base font family must not be empty".toList

/-! ## Defaults -/

/-- The quiet time unless it is set, in milliseconds. -/
def standardDebounceMs : Nat := 400

/-- The settings unless they are set. -/
def PreviewSettings.standard : PreviewSettings := ⟨standardDebounceMs, .standard⟩

/-- The configuration of a project without a file. -/
def Config.standard : Config := ⟨.standard⟩

/-- The settings, if their base style has no fault. -/
def PreviewSettings.check (config : PreviewSettings) : Except ConfigError PreviewSettings :=
  match config.baseStyle.fault? with
  | some fault => .error (.faulty fault)
  | none => .ok config

theorem PreviewSettings.check_eq_ok_iff {config : PreviewSettings} :
    (∃ accepted, config.check = .ok accepted) ↔ config.baseStyle.fault? = none := by
  unfold check
  split
  · rename_i fault h
    simp [h]
  · rename_i h
    simp [h]

/-! ## Writing -/

/-- A style as a record. -/
def Style.toJson (style : Style) : Json :=
  .object [("fontFamily", .string style.fontFamily), ("fontSizePt", .number style.fontSize)]

/-- The settings as a record. -/
def PreviewSettings.toJson (config : PreviewSettings) : Json :=
  .object
    [("debounceMs", .natural config.debounceMs), ("baseStyle", config.baseStyle.toJson)]

/-- A configuration as a record. -/
def Config.toJson (config : Config) : Json := .object [("preview", config.preview.toJson)]

/-! ## Reading -/

/-- The value of a field, or the default if the field is missing. -/
def fieldOr {α : Type} (default : α) (read? : Json.Document → Option α) :
    Option Json.Document → Option α
  | some document => read? document
  | none => some default

/-- Reads a style. -/
def Style.ofDocument? (document : Json.Document) : Option Style := do
  let fields ← document.record? ["fontFamily", "fontSizePt"]
  let fontFamily ← fieldOr standard.fontFamily (·.text?) (fields[0]?).join
  let fontSize ← fieldOr standard.fontSize (·.float?) (fields[1]?).join
  return ⟨fontFamily, fontSize⟩

/-- Reads the settings. -/
def PreviewSettings.ofDocument? (document : Json.Document) : Option PreviewSettings := do
  let fields ← document.record? ["debounceMs", "baseStyle"]
  let debounceMs ← fieldOr standard.debounceMs (·.word64?) (fields[0]?).join
  let baseStyle ← fieldOr standard.baseStyle Style.ofDocument? (fields[1]?).join
  return ⟨debounceMs, baseStyle⟩

/-- Reads a configuration. -/
def Config.ofDocument? (document : Json.Document) : Option Config := do
  let fields ← document.record? ["preview"]
  let preview ← fieldOr standard.preview PreviewSettings.ofDocument? (fields[0]?).join
  return ⟨preview⟩

/-- Reads and checks the text of a configuration file. -/
def Config.ofText (text : Text) : Except ConfigError Config :=
  match (Json.Document.parse? text).bind ofDocument? with
  | none => .error .malformed
  | some config => config.preview.check.map Config.mk

end MarkupPreview
