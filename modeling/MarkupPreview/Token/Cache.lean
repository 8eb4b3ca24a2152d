import MarkupPreview.Token.Line

/-!
# The line cache

While a document is edited most lines stay as they are, so a cache keeps the
tokens of the lines of the last source, by the text of the line, and a pass over
the next source lexes only lines that it has not met. Tokens out of the cache
are moved to the line they now stand on.

A pass takes each line it meets out of what the last source left behind and puts
it into the new table, with the tokens as they are now placed. A line that comes
again is found in the new table. What nobody asked for is dropped at the end.

## Main results

* `find?_insert`, `find?_remove` — a change to one line leaves the answers for
  all others.
* `mem_keys_insert`, `mem_keys_remove` — which lines a table holds after it.
-/

namespace MarkupPreview

/-! ## Tables of lexed lines -/

/-- Lines with their tokens, each line at most once. -/
structure LineTable where
  entries : List (Text × List Token)
  distinct : (entries.map Prod.fst).Nodup
deriving DecidableEq, Repr

namespace LineTable

/-- A table without a line. -/
def empty : LineTable := ⟨[], List.nodup_nil⟩

/-- The lines of a table. -/
def keys (table : LineTable) : List Text := table.entries.map Prod.fst

/-- The number of lines of a table. -/
def size (table : LineTable) : Nat := table.entries.length

/-- The tokens of a line. -/
def find? (table : LineTable) (line : Text) : Option (List Token) := table.entries.lookup line

/-- Drops a line. -/
def remove (table : LineTable) (line : Text) : LineTable where
  entries := table.entries.filter (·.1 ≠ line)
  distinct := table.distinct.sublist (List.filter_sublist.map _)

/-- Puts a line in, in place of what was known of it. -/
def insert (table : LineTable) (line : Text) (tokens : List Token) : LineTable where
  entries := (line, tokens) :: (table.remove line).entries
  distinct := by
    rw [List.map_cons, List.nodup_cons]
    refine ⟨?_, (table.remove line).distinct⟩
    simp [remove]

@[simp] theorem keys_empty : empty.keys = [] := rfl

@[simp] theorem find?_empty (line : Text) : empty.find? line = none := rfl

theorem size_eq_length_keys (table : LineTable) : table.size = table.keys.length := by
  simp [size, keys]

theorem nodup_keys (table : LineTable) : table.keys.Nodup := table.distinct

theorem isSome_find?_iff (table : LineTable) (line : Text) :
    (table.find? line).isSome ↔ line ∈ table.keys := by
  rw [find?, keys]
  induction table.entries with
  | nil => simp
  | cons entry rest ih =>
      obtain ⟨key, tokens⟩ := entry
      by_cases h : line = key
      · simp [h]
      · have hne : (line == key) = false := by simpa using h
        simp only [List.lookup_cons, hne, List.map_cons, List.mem_cons, h, false_or]
        exact ih

@[simp] theorem mem_keys_remove (table : LineTable) (line other : Text) :
    other ∈ (table.remove line).keys ↔ other ∈ table.keys ∧ other ≠ line := by
  simp only [keys, remove, List.mem_map, List.mem_filter, decide_eq_true_eq]
  constructor
  · rintro ⟨entry, ⟨hmem, hne⟩, rfl⟩
    exact ⟨⟨entry, hmem, rfl⟩, hne⟩
  · rintro ⟨⟨entry, hmem, rfl⟩, hne⟩
    exact ⟨entry, ⟨hmem, hne⟩, rfl⟩

@[simp] theorem mem_keys_insert (table : LineTable) (line other : Text) (tokens : List Token) :
    other ∈ (table.insert line tokens).keys ↔ other = line ∨ other ∈ table.keys := by
  have hkeys : (table.insert line tokens).keys = line :: (table.remove line).keys := rfl
  rw [hkeys, List.mem_cons, mem_keys_remove]
  by_cases h : other = line <;> simp [h]

theorem find?_remove (table : LineTable) (line other : Text) :
    (table.remove line).find? other = if other = line then none else table.find? other := by
  simp only [find?, remove]
  induction table.entries with
  | nil => simp
  | cons entry rest ih =>
      obtain ⟨key, tokens⟩ := entry
      by_cases hkey : key = line
      · subst hkey
        by_cases hother : other = key
        · simpa [hother] using ih
        · have hne : (other == key) = false := by simpa using hother
          simpa [List.lookup_cons, hne, hother] using ih
      · by_cases hother : other = key
        · simp [hother, hkey]
        · have hne : (other == key) = false := by simpa using hother
          simpa [hkey, List.lookup_cons, hne] using ih

theorem find?_insert (table : LineTable) (line other : Text) (tokens : List Token) :
    (table.insert line tokens).find? other =
      if other = line then some tokens else table.find? other := by
  by_cases h : other = line
  · simp [find?, insert, h]
  · have hne : (other == line) = false := by simpa using h
    have hrest : (table.insert line tokens).find? other = (table.remove line).find? other := by
      simp [find?, insert, List.lookup_cons, hne]
    rw [hrest, find?_remove, if_neg h, if_neg h]

end LineTable

/-! ## Passes over a source -/

/-- The lines of the last source, and the counts of the pass over it. -/
structure LineCache where
  table : LineTable
  hits : Nat
  misses : Nat
deriving DecidableEq, Repr

namespace LineCache

/-- A cache that knows no line. -/
def empty : LineCache := ⟨.empty, 0, 0⟩

/-- The number of lines the cache keeps. -/
def size (cache : LineCache) : Nat := cache.table.size

/-- A pass under way: what is left of the table of the last source, and the cache
as far as this source has been read. -/
structure Pass where
  previous : LineTable
  current : LineCache
deriving DecidableEq, Repr

/-- Reads one line: its tokens, and the pass with the line moved into the new
table. -/
def Pass.readLine (pass : Pass) (index : Nat) (line : Text) : List Token × Pass :=
  match (pass.previous.find? line).or (pass.current.table.find? line) with
  | some known =>
      let tokens := known.map (Token.onLine index)
      (tokens,
        { previous := pass.previous.remove line
          current := { pass.current with
            table := pass.current.table.insert line tokens
            hits := pass.current.hits + 1 } })
  | none =>
      let tokens := Token.ofLine index line
      (tokens,
        { previous := pass.previous.remove line
          current := { pass.current with
            table := pass.current.table.insert line tokens
            misses := pass.current.misses + 1 } })

/-- Reads lines in order, numbered from `index` on. -/
def Pass.readLines : Pass → Nat → List Text → List (List Token) × Pass
  | pass, _, [] => ([], pass)
  | pass, index, line :: rest =>
      let (tokens, next) := pass.readLine index line
      let (others, last) := next.readLines (index + 1) rest
      (tokens :: others, last)

/-- The tokens of a source, line by line, and the cache for the next source. -/
def tokenize (cache : LineCache) (source : Text) : List (List Token) × LineCache :=
  let (lines, last) := Pass.readLines ⟨cache.table, empty⟩ 0 source.lines
  (lines, last.current)

/-- Forgets every line. -/
def clear (_ : LineCache) : LineCache := empty

end LineCache

end MarkupPreview
