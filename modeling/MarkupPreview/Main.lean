import MarkupPreview.Command
import MarkupPreview.CommandLine
import MarkupPreview.Preview.Session

/-!
# The program

Reads the files that a command needs, runs the command, and prints what it
answers. A watched file is looked at several times a second, and a session runs
along with the clock.
-/

namespace MarkupPreview.Main

/-- Why nothing could be read at a path, if it is a fault of the path. -/
def readFault? (path : String) : IO.Error → Option ReadFault
  | .noFileOrDirectory .. => some .missing
  | .inappropriateType _ 21 _ => some .isFolder
  | .inappropriateType .. => some .notFolder
  | .invalidArgument .. =>
      some (if '\x00' ∈ path.toList then .nullCharacter else .nameTooLong)
  | _ => none

/-- What stands in the file at a path. -/
def readFile (path : String) : IO (Except ReadFault Text) := do
  try
    return .ok (← IO.FS.readFile path).toList
  catch error =>
    match readFault? path error with
    | some fault => return .error fault
    | none => throw error

/-- The source file at a path. -/
def sourceFile (path : String) : IO SourceFile := do
  return ⟨path.toList, ← readFile path⟩

/-- The folder that the program runs in, with those of the given files that
exist. -/
def currentFolder (names : List Text) : IO Folder := do
  let path := (← IO.currentDir).toString
  let files ← names.filterMapM fun name => do
    match ← readFile (path ++ "/" ++ String.ofList name) with
    | .ok content => return some (name, content)
    | .error .missing => return none
    | .error fault => throw (IO.userError (String.ofList fault.message))
  return ⟨path.toList, files⟩

/-- Writes the files that a command has changed. -/
def writeChanges (before after : Folder) (names : List Text) : IO Unit := do
  for name in names do
    match after.find? name with
    | some content =>
        if before.find? name != some content then
          IO.FS.writeFile (String.ofList (after.pathOf name)) (String.ofList content)
    | none => pure ()

/-- Prints a failure and answers with the exit code for it. -/
def fail (failure : Text) : IO UInt32 := do
  IO.eprintln ("\nError: " ++ String.ofList failure ++ "\n")
  return 1

/-- Prints what a command answers. -/
def report (result : CommandResult) : IO UInt32 := do
  IO.print (String.ofList result.output)
  IO.eprint (String.ofList result.complaint)
  match result.failure with
  | some failure => fail failure
  | none => return 0

/-- Looks at a watched file again and again: a changed content goes to the
session, and a new view to the terminal. -/
partial def watchLoop (colours : Bool) (path : String) (session : Session) (source : Text)
    (started : Nat) : IO Unit := do
  IO.sleep 50
  let file ← sourceFile path
  let latest := file.content.toOption.getD source
  let edited := if latest == source then session else session.edit latest
  let elapsed := (← IO.monoMsNow) - started
  let next := edited.sleep (elapsed - edited.now)
  if next.broadcasts != session.broadcasts then
    IO.print (String.ofList (Terminal.viewListing colours next.current))
    IO.eprint (String.ofList (Terminal.viewComplaint colours latest file.name next.current))
    (← IO.getStdout).flush
  watchLoop colours path next latest started

/-- Watches a file until the program is stopped. -/
def watch (colours : Bool) (path : String) (debounceMs : Option Nat) : IO UInt32 := do
  match Config.load (← currentFolder [configName]) with
  | .error failure => fail failure
  | .ok config =>
      let file ← sourceFile path
      match file.read with
      | .error failure => fail failure
      | .ok source =>
          let debounce := debounceMs.getD config.preview.debounceMs
          let paint := Terminal.paint colours
          IO.println (String.ofList
            (paint [.brightBlue] "👀".toList ++ ' ' ::
              paint [.bold, .brightBlue] "Watching".toList ++ ' ' :: file.path))
          IO.println (String.ofList (paint [.dimmed]
            ("(debounce ".toList ++ Decimal.natText debounce ++ "ms, Ctrl+C to stop)".toList)))
          let session := Session.new debounce config.preview.baseStyle fun _ => ⟨0, none⟩
          watchLoop colours path (session.edit source) source (← IO.monoMsNow)
          return 0

/-- Does what the arguments ask for. -/
def run (colours : Bool) : Invocation → IO UInt32
  | .init force debounceMs => do
      let names := [configName, Command.sampleName]
      let before ← currentFolder names
      let (result, after) :=
        Command.init colours force (debounceMs.getD standardDebounceMs) before
      writeChanges before after names
      report result
  | .tokens path asJson => do
      report (Command.tokens colours asJson (← sourceFile path))
  | .compile path asJson => do
      report (Command.compile colours asJson (← currentFolder [configName]) (← sourceFile path))
  | .watch path debounceMs => watch colours path debounceMs

end MarkupPreview.Main

/-- The program. Colours are for terminals, and `NO_COLOR` turns them off. -/
def main (arguments : List String) : IO UInt32 := do
  let colours := (← (← IO.getStdout).isTty) && (← IO.getEnv "NO_COLOR").isNone
  match MarkupPreview.CommandLine.parse arguments with
  | .ok invocation => MarkupPreview.Main.run colours invocation
  | .error message =>
      IO.eprint message
      return 2
