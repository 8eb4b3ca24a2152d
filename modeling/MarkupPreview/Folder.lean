import MarkupPreview.Preview.Config

/-!
# Folders

What the commands see of the file system: a folder with the contents of its
files. The configuration of a project is a file of its folder.

## Main results

* `Folder.find?_write` — writing a file changes that file alone.
-/

namespace MarkupPreview

/-- A folder: where it is, and the contents of its files by their names. -/
structure Folder where
  path : Text
  files : List (Text × Text)
deriving DecidableEq, Repr

namespace Folder

/-- The content of a file, if there is such a file. -/
def find? (folder : Folder) (name : Text) : Option Text := folder.files.lookup name

/-- Writes a file, in place of one of that name. -/
def write (folder : Folder) (name content : Text) : Folder :=
  { folder with files := (name, content) :: folder.files }

/-- A path that starts in the folder, as it is shown. One that begins with a
slash starts elsewhere and stands for itself. -/
def pathOf (folder : Folder) : Text → Text
  | '/' :: rest => '/' :: rest
  | path => folder.path ++ '/' :: path

theorem find?_write (folder : Folder) (name other content : Text) :
    (folder.write name content).find? other =
      if other = name then some content else folder.find? other := by
  by_cases h : other = name
  · simp [write, find?, h]
  · have hne : (other == name) = false := by simpa using h
    simp [write, find?, List.lookup_cons, hne, h]

end Folder

/-! ## The configuration file -/

/-- The name of the configuration file. -/
def configName : Text := "folio.config.json".toList

/-- The configuration of a folder: that of its file, or the standard one
without a file. -/
def Config.load (folder : Folder) : Except Text Config :=
  match folder.find? configName with
  | none => .ok .standard
  | some text =>
      (Config.ofText text).mapError fun error =>
        "Invalid config file ".toList ++ folder.pathOf configName ++ ": ".toList ++ error.message

end MarkupPreview
