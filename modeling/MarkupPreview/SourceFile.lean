import MarkupPreview.Folder

/-!
# Source files

The document that a command is given is named by a path, which is followed from
the folder that the program runs in: an empty part and `.` stay where they are,
`..` leads to the folder around, and every other part enters what has that name.
Only a folder can be walked through, so a file ends the path. Of what lies
around the folder nothing is known but that it consists of folders.
-/

namespace MarkupPreview

/-! ## What can go wrong -/

/-- Why nothing could be read at a path. -/
inductive ReadFault where
  | missing
  | isFolder
  | notFolder
  | nameTooLong
  | nullCharacter
deriving DecidableEq, Repr

/-- The words for a fault. -/
def ReadFault.message : ReadFault → Text
  | missing => "No such file or directory (os error 2)".toList
  | isFolder => "Is a directory (os error 21)".toList
  | notFolder => "Not a directory (os error 20)".toList
  | nameTooLong => "File name too long (os error 36)".toList
  | nullCharacter => "file name contained an unexpected NUL byte".toList

/-! ## Following a path -/

/-- The parts of a path, which slashes divide. There is always at least one. -/
def components : Text → List Text
  | [] => [[]]
  | c :: rest =>
      if c = '/' then [] :: components rest else (components rest).modifyHead (c :: ·)

/-- Where a path has led: to a folder around the given one, to that folder, or
to a file. -/
inductive Place where
  | around
  | inside
  | file (content : Text)
deriving DecidableEq, Repr

/-- The most bytes that a name can have. -/
def longestName : Nat := 255

/-- The most bytes that a path can have. -/
def longestPath : Nat := 4095

namespace Place

/-- Enters what has the given name. -/
def enter (folder : Folder) (name : Text) : Place → Except ReadFault Place
  | around => .error .missing
  | inside =>
      match folder.find? name with
      | some content => .ok (file content)
      | none => .error .missing
  | file _ => .error .notFolder

/-- Follows a part of a path. -/
def step (folder : Folder) (place : Place) (part : Text) : Except ReadFault Place :=
  match place with
  | file _ => .error .notFolder
  | around | inside =>
      if part = [] ∨ part = ['.'] then .ok place
      else if part = ['.', '.'] then .ok around
      else if longestName < part.bytes then .error .nameTooLong
      else place.enter folder part

/-- Follows the parts of a path one after the other. -/
def follow (folder : Folder) : Place → List Text → Except ReadFault Place
  | place, [] => .ok place
  | place, part :: rest => (place.step folder part).bind (follow folder · rest)

end Place

namespace Folder

/-- What stands in the file at a path. A path that begins with a slash does not
start in the folder. -/
def read (folder : Folder) (path : Text) : Except ReadFault Text :=
  if '\x00' ∈ path then .error .nullCharacter
  else if longestPath < (folder.pathOf path).bytes then .error .nameTooLong
  else
    match Place.follow folder (if path.head? = some '/' then .around else .inside)
        (components path) with
    | .ok (.file content) => .ok content
    | .ok _ => .error .isFolder
    | .error fault => .error fault

end Folder

/-! ## Source files -/

/-- A source file: its path as it is shown, and what reading it gives. -/
structure SourceFile where
  path : Text
  content : Except ReadFault Text

namespace SourceFile

/-- The file at a path that starts in a folder. -/
def inFolder (folder : Folder) (path : Text) : SourceFile :=
  ⟨folder.pathOf path, folder.read path⟩

/-- The name of the file, without the folders on its path. -/
def name (file : SourceFile) : Text :=
  (file.path.reverse.takeWhile (· != '/')).reverse

/-- The content, or the failure to read it. -/
def read (file : SourceFile) : Except Text Text :=
  file.content.mapError fun fault =>
    "Cannot read ".toList ++ file.path ++ ": ".toList ++ fault.message

end SourceFile

end MarkupPreview
