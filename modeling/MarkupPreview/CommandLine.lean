import MarkupPreview.Decimal.Literal

/-!
# The command line

What the arguments of the program ask for. The name of the command comes first,
options may stand before or after the file, and `--debounce-ms` takes its number
from the next argument or from behind an equals sign.
-/

namespace MarkupPreview

/-- What the program is asked to do. -/
inductive Invocation where
  | init (force : Bool) (debounceMs : Option Nat)
  | tokens (file : String) (asJson : Bool)
  | compile (file : String) (asJson : Bool)
  | watch (file : String) (debounceMs : Option Nat)
deriving DecidableEq, Repr

namespace CommandLine

/-- How the program is used. -/
def usage : String :=
  "Usage: folio <COMMAND>\n\n" ++
  "Commands:\n" ++
  "  init     Create a folio.config.json and an example document\n" ++
  "  tokens   Print the tokens of every line of a document\n" ++
  "  compile  Compile a document once and print its display tree\n" ++
  "  watch    Recompile a document on every change\n\n" ++
  "Options:\n" ++
  "  --json              Print tokens or the result as JSON\n" ++
  "  --debounce-ms <MS>  Debounce interval in milliseconds\n" ++
  "  -f, --force         Force overwrite existing config\n"

/-- The options and files among the arguments of a command. -/
structure Collected where
  files : List String
  asJson : Bool
  force : Bool
  debounceMs : Option Nat
deriving DecidableEq, Repr

/-- The number of milliseconds that an argument spells. -/
def milliseconds? (argument : String) : Option Nat :=
  let digits := argument.toList
  let value := Decimal.digitsValue digits
  if !digits.isEmpty && digits.all Char.isDigit && value < 1 <<< 64 then some value else none

/-- The option that is followed by an equals sign and a number. -/
def debounceOption : List Char := "--debounce-ms=".toList

/-- Collects the arguments of a command, or answers with the one that is not
understood. -/
def collect : Collected → List String → Except String Collected
  | collected, [] => .ok collected
  | collected, "--json" :: rest => collect { collected with asJson := true } rest
  | collected, "--force" :: rest => collect { collected with force := true } rest
  | collected, "-f" :: rest => collect { collected with force := true } rest
  | collected, "--verbose" :: rest => collect collected rest
  | collected, "-v" :: rest => collect collected rest
  | collected, "--debounce-ms" :: value :: rest =>
      match milliseconds? value with
      | some n => collect { collected with debounceMs := some n } rest
      | none => .error value
  | collected, argument :: rest =>
      if debounceOption.isPrefixOf argument.toList then
        match milliseconds? (String.ofList (argument.toList.drop debounceOption.length)) with
        | some n => collect { collected with debounceMs := some n } rest
        | none => .error argument
      else if argument.toList.head? = some '-' then .error argument
      else collect { collected with files := collected.files ++ [argument] } rest

/-- What a command asks for with the arguments collected for it. -/
def invocation? (command : String) (collected : Collected) : Option Invocation :=
  match command, collected.files with
  | "init", [] => some (.init collected.force collected.debounceMs)
  | "tokens", [file] => some (.tokens file collected.asJson)
  | "compile", [file] => some (.compile file collected.asJson)
  | "watch", [file] => some (.watch file collected.debounceMs)
  | _, _ => none

/-- What the arguments of the program ask for. -/
def parse : List String → Except String Invocation
  | [] => .error usage
  | command :: rest =>
      match collect ⟨[], false, false, none⟩ rest with
      | .error argument => .error ("unexpected argument '" ++ argument ++ "'\n\n" ++ usage)
      | .ok collected =>
          match invocation? command collected with
          | some invocation => .ok invocation
          | none => .error usage

end CommandLine

end MarkupPreview
