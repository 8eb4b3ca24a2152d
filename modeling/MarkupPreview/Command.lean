import MarkupPreview.Display.Encode
import MarkupPreview.SourceFile
import MarkupPreview.Terminal.Listing

/-!
# Commands

The commands of the command line as functions: what they print, what they
complain about, and what they fail with.

* `tokens` shows the tokens of a document.
* `compile` compiles a document in the base style of the configuration.
* `init` starts a project: it writes a configuration, and an example document
  unless there is one. A configuration that exists is only replaced by force.

## Main results

* `find?_initFolder` — a new project holds its configuration, and leaves an
  example document that exists as it is.
-/

namespace MarkupPreview

/-- What a command leaves: its output, its complaints about the document, and
its failure if it failed. -/
structure CommandResult where
  output : Text
  complaint : Text
  failure : Option Text
deriving DecidableEq, Repr

namespace Command

/-- A command that went well. -/
def shows (output : Text) : CommandResult := ⟨output, [], none⟩

/-- A command that failed before it printed anything. -/
def fails (failure : Text) : CommandResult := ⟨[], [], some failure⟩

/-- Shows the tokens of a file, as a listing or as data. -/
def tokens (colours asJson : Bool) (file : SourceFile) : CommandResult :=
  match file.read with
  | .error failure => fails failure
  | .ok source =>
      let lines := Token.ofSource source
      shows
        (if asJson then Terminal.unlines [(linesToJson lines).pretty]
         else Terminal.sourceListing colours lines)

/-- Compiles a file and shows the result, as an outline or as data. The
configuration is read before the file. -/
def compile (colours asJson : Bool) (folder : Folder) (file : SourceFile) : CommandResult :=
  match Config.load folder with
  | .error failure => fails failure
  | .ok config =>
      match file.read with
      | .error failure => fails failure
      | .ok source =>
          match compileText config.preview.baseStyle source with
          | .error error =>
              { output := []
                complaint := Terminal.diagnosticListing source file.name error.diagnostic
                failure := some "Compilation failed".toList }
          | .ok result =>
              shows
                (if asJson then Terminal.unlines [result.toJson.pretty]
                 else Terminal.resultListing colours result)

/-! ## Starting a project -/

/-- The name of the example document. -/
def sampleName : Text := "example.typ".toList

/-- The example document. -/
def sampleDocument : Text :=
  Terminal.unlines
    ["#set text(font: \"New Computer Modern\", size: 11pt)".toList,
     [],
     "= Hello, Folio".toList,
     [],
     ("Folio documents mix *bold* and _italic_ markup with inline math like " ++
       "$a^2 + b^2 = c^2$.").toList,
     [],
     "#set text(size: 1.2em)".toList,
     "Text after a set rule picks up the new style.".toList,
     [],
     "$ sum_(k=1)^n k = n(n+1)/2 $".toList]

/-- The configuration file of a new project. -/
def configText (debounceMs : Nat) : Text :=
  (Config.toJson ⟨{ PreviewSettings.standard with debounceMs }⟩).pretty

/-- The folder of a new project. -/
def initFolder (debounceMs : Nat) (folder : Folder) : Folder :=
  let withExample :=
    if (folder.find? sampleName).isSome then folder
    else folder.write sampleName sampleDocument
  withExample.write configName (configText debounceMs)

/-- A line that says which file was created. -/
def createdLine (colours : Bool) (name : Text) : Text :=
  "  ".toList ++ Terminal.checkMark colours ++ " Created ".toList ++ name

theorem find?_initFolder (debounceMs : Nat) (folder : Folder) :
    (initFolder debounceMs folder).find? configName = some (configText debounceMs) ∧
      (initFolder debounceMs folder).find? sampleName =
        some ((folder.find? sampleName).getD sampleDocument) := by
  have hne : sampleName ≠ configName := by decide
  refine ⟨by simp [initFolder, Folder.find?_write], ?_⟩
  simp only [initFolder, Folder.find?_write, hne, if_false]
  cases h : folder.find? sampleName with
  | none => simp [Folder.find?_write]
  | some content => simp [h]

/-- Starts a project: what it prints, and the folder it leaves. -/
def init (colours force : Bool) (debounceMs : Nat) (folder : Folder) : CommandResult × Folder :=
  if (folder.find? configName).isSome && !force then
    (shows
      (Terminal.unlines
        [Terminal.paint colours [.yellow] "⚠️".toList ++
          ' ' :: Terminal.paint colours [.brightWhite] configName ++ " already exists".toList,
         "Use --force to overwrite".toList]),
     folder)
  else
    let created :=
      (if (folder.find? sampleName).isSome then [] else [createdLine colours sampleName]) ++
        [createdLine colours configName]
    (shows
      (Terminal.unlines <|
        Terminal.paint colours [.bold, .brightBlue] "📝 Initializing Folio project...".toList ::
          created ++
          [[],
           Terminal.paint colours [.bold, .green] "✅ Project initialized!".toList,
           [],
           "Next steps:".toList,
           "  1. Run: folio compile example.typ".toList,
           "  2. Run: folio watch example.typ".toList,
           "  3. Edit example.typ and watch the preview update".toList]),
     initFolder debounceMs folder)

end Command

end MarkupPreview
