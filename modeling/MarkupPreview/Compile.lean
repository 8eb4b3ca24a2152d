import MarkupPreview.Token.Cache
import MarkupPreview.Display.Render

/-!
# Compiling a source

Compiling lexes a source, finds its blocks and renders them. A blank source has
nothing to compile and gives the empty result at once. A `CachedCompiler` does
the same through a line cache that it keeps from one source to the next.

An attempt fails when a block cannot be rendered, or when the compiler itself
breaks off with a message. Either way there is one diagnostic to show.

## Main results

* `compileText_blank` — a blank source gives the empty result.
* `diagnostics_of_compileText` — a success has no diagnostics.
-/

namespace MarkupPreview

/-! ## Results and errors -/

/-- A message to the author, with the source line if it is known. -/
structure Diagnostic where
  message : Text
  line : Option Nat
deriving DecidableEq, Repr

/-- What a successful attempt gives. -/
structure Compilation where
  tree : DisplayTree
  pageCount : Nat
  diagnostics : List Diagnostic
deriving DecidableEq, Repr

/-- The result that shows a tree and nothing to complain about. -/
def Compilation.ofTree (tree : DisplayTree) : Compilation :=
  ⟨tree, tree.pageCount, []⟩

/-- The result of a source with nothing in it. -/
def Compilation.empty : Compilation := .ofTree (.ofNodes [] .standard)

/-- Why an attempt failed. -/
inductive CompileError where
  | render (error : RenderError)
  /-- The compiler broke off. -/
  | aborted (message : Text)
deriving DecidableEq, Repr

namespace CompileError

/-- The error as a message. -/
def message : CompileError → Text
  | render error => "Render error: ".toList ++ error.message
  | aborted message => "Compiler panicked: ".toList ++ message

/-- The error as shown next to the preview. -/
def diagnostic : CompileError → Diagnostic
  | render error => ⟨error.message, some error.line⟩
  | aborted message => ⟨message, none⟩

end CompileError

/-- The outcome of an attempt. -/
abbrev CompileOutcome := Except CompileError Compilation

/-! ## Compiling -/

/-- Compiles lexed lines. -/
def compileTokens (base : Style) (lines : List (List Token)) : CompileOutcome :=
  let classification := classify base lines
  match render classification.blocks classification.style with
  | .ok tree => .ok (.ofTree tree)
  | .error error => .error (.render error)

/-- Compiles a source in the given base style. -/
def compileText (base : Style) (source : Text) : CompileOutcome :=
  if source.isBlank then .ok .empty else compileTokens base (Token.ofSource source)

theorem compileText_blank {base : Style} {source : Text} (h : source.isBlank = true) :
    compileText base source = .ok .empty := by
  simp [compileText, h]

/-- Compiling has nothing to remark: what is wrong is an error. -/
theorem diagnostics_of_compileText {base : Style} {source : Text} {result : Compilation}
    (h : compileText base source = .ok result) : result.diagnostics = [] := by
  unfold compileText compileTokens at h
  split at h
  · cases h
    rfl
  · simp only at h
    split at h
    · cases h
      rfl
    · cases h

/-- A compiler that keeps the lines of its last source. -/
structure CachedCompiler where
  base : Style
  cache : LineCache
deriving DecidableEq, Repr

namespace CachedCompiler

/-- A compiler that has not compiled anything. -/
def new (base : Style) : CachedCompiler := ⟨base, .empty⟩

/-- Compiles a source, and keeps its lines unless it is blank. -/
def compile (compiler : CachedCompiler) (source : Text) : CompileOutcome × CachedCompiler :=
  if source.isBlank then (.ok .empty, compiler)
  else
    let (lines, cache) := compiler.cache.tokenize source
    (compileTokens compiler.base lines, { compiler with cache })

end CachedCompiler

/-! ## Where a diagnostic points -/

/-- The span, in characters, of the given line among lines that start at the
given place; behind the last line the span is empty. -/
def spanAmong (start : Nat) : Nat → List Text → Option (Nat × Nat)
  | _, [] => none
  | 0, line :: _ => some (start, start + line.length)
  | index + 1, line :: rest => spanAmong (start + line.length + 1) index rest

/-- The characters of a source that a diagnostic points at: those of its line,
none at the end of the source if there is no such line, and none at the
beginning if no line is known. -/
def spanOfLine (source : Text) : Option Nat → Nat × Nat
  | none => (0, 0)
  | some line => (spanAmong 0 line source.lines).getD (source.length, source.length)

end MarkupPreview
