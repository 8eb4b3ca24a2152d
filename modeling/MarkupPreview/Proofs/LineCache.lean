import Mathlib.Data.Finset.Card
import Mathlib.Data.Finset.Dedup
import MarkupPreview.Token.Cache

/-!
# The line cache is invisible and bounded

A pass over a source reads its lines through two tables, and every line it meets
leaves the first and enters the second. Two facts about the tables carry the
proof: whatever a table says of a line is the lexing of that line on *some* line
number, and after some lines the tables together hold the lines of the last
source and the lines met so far. The first makes the cache invisible, the second
counts its misses.

## Main results

* `Pass.Reads.readLine` — what one line does to the two tables and the counts.
* `tokenize_transparent` — after any calls, the cache lexes a source as the lexer
  does, and its counts and size are those of the distinct lines.
-/

namespace MarkupPreview

/-- Every line of the table comes with its own tokens, up to the line number. -/
def LineTable.Lexed (table : LineTable) : Prop :=
  ∀ line tokens, table.find? line = some tokens → ∃ index, tokens = Token.ofLine index line

namespace LineTable

theorem lexed_empty : empty.Lexed := by
  intro line tokens h
  simp at h

theorem Lexed.remove {table : LineTable} (h : table.Lexed) (line : Text) :
    (table.remove line).Lexed := by
  intro other tokens hfind
  rw [find?_remove] at hfind
  split at hfind
  · simp at hfind
  · exact h other tokens hfind

theorem Lexed.insert {table : LineTable} (h : table.Lexed) (index : Nat) (line : Text) :
    (table.insert line (Token.ofLine index line)).Lexed := by
  intro other tokens hfind
  rw [find?_insert] at hfind
  split at hfind
  · rename_i heq
    exact ⟨index, by rw [← Option.some.inj hfind, heq]⟩
  · exact h other tokens hfind

end LineTable

namespace LineCache

/-! ## One pass -/

namespace Pass

/-- A line that one of the two tables still holds. -/
def Knows (pass : Pass) (line : Text) : Prop :=
  line ∈ pass.previous.keys ∨ line ∈ pass.current.table.keys

instance (pass : Pass) (line : Text) : Decidable (pass.Knows line) :=
  inferInstanceAs (Decidable (_ ∨ _))

theorem isSome_or_find?_iff (pass : Pass) (line : Text) :
    ((pass.previous.find? line).or (pass.current.table.find? line)).isSome ↔
      pass.Knows line := by
  rw [Option.isSome_or, Bool.or_eq_true, LineTable.isSome_find?_iff,
    LineTable.isSome_find?_iff, Knows]

/-- With lexed tables the tokens of a line do not depend on where they came
from: reading a line lexes it, and only the counts tell a hit from a miss. -/
theorem readLine_eq {pass : Pass} (hprevious : pass.previous.Lexed)
    (hcurrent : pass.current.table.Lexed) (index : Nat) (line : Text) :
    pass.readLine index line =
      (Token.ofLine index line,
        { previous := pass.previous.remove line
          current :=
            { table := pass.current.table.insert line (Token.ofLine index line)
              hits := pass.current.hits + if pass.Knows line then 1 else 0
              misses := pass.current.misses + if pass.Knows line then 0 else 1 } }) := by
  have hknows := pass.isSome_or_find?_iff line
  unfold readLine
  cases hfind : (pass.previous.find? line).or (pass.current.table.find? line) with
  | none =>
      have hunknown : ¬ pass.Knows line := by
        rw [← hknows, hfind]
        simp
      simp [hunknown]
  | some known =>
      have hknown : pass.Knows line := by
        rw [← hknows, hfind]
        rfl
      have htokens : known.map (Token.onLine index) = Token.ofLine index line := by
        obtain ⟨index', rfl⟩ : ∃ index', known = Token.ofLine index' line := by
          rcases Option.or_eq_some_iff.mp hfind with h | ⟨-, h⟩
          · exact hprevious line known h
          · exact hcurrent line known h
        exact Token.onLine_ofLine index' index line
      simp [hknown, htokens]

/-- The state of a pass that began with the lines `old` in the cache and has met
the lines `met`. -/
structure Reads (old met : List Text) (pass : Pass) : Prop where
  previous_lexed : pass.previous.Lexed
  current_lexed : pass.current.table.Lexed
  mem_previous : ∀ line, line ∈ pass.previous.keys ↔ line ∈ old ∧ line ∉ met
  mem_current : ∀ line, line ∈ pass.current.table.keys ↔ line ∈ met
  misses_eq : pass.current.misses = (met.toFinset \ old.toFinset).card
  total_eq : pass.current.hits + pass.current.misses = met.length

/-- A line is known exactly when it is one of the last source or has been met. -/
theorem Reads.knows_iff {old met : List Text} {pass : Pass} (h : Reads old met pass)
    (line : Text) : pass.Knows line ↔ line ∈ old ∨ line ∈ met := by
  rw [Knows, h.mem_previous, h.mem_current]
  by_cases hmet : line ∈ met <;> simp [hmet]

theorem Reads.readLine {old met : List Text} {pass : Pass} (h : Reads old met pass)
    (index : Nat) (line : Text) :
    (pass.readLine index line).1 = Token.ofLine index line ∧
      Reads old (met ++ [line]) (pass.readLine index line).2 := by
  rw [readLine_eq h.previous_lexed h.current_lexed]
  refine ⟨rfl, ?_⟩
  refine
    { previous_lexed := h.previous_lexed.remove line
      current_lexed := h.current_lexed.insert index line
      mem_previous := ?_
      mem_current := ?_
      misses_eq := ?_
      total_eq := ?_ }
  · intro other
    rw [LineTable.mem_keys_remove, h.mem_previous]
    simp only [List.mem_append, List.mem_singleton]
    tauto
  · intro other
    rw [LineTable.mem_keys_insert, h.mem_current]
    simp only [List.mem_append, List.mem_singleton]
    exact or_comm
  · have hset : (met ++ [line]).toFinset = insert line met.toFinset := by
      ext other
      simp
    simp only [hset, h.misses_eq, h.knows_iff]
    -- A miss is a new element of the difference, a hit leaves it as it is.
    by_cases hold : line ∈ old
    · rw [Finset.insert_sdiff_of_mem _ (by simpa using hold)]
      simp [hold]
    · rw [Finset.insert_sdiff_of_notMem _ (by simpa using hold), Finset.card_insert_eq_ite]
      by_cases hmet : line ∈ met <;> simp [hold, hmet]
  · have htotal := h.total_eq
    simp only [List.length_append, List.length_singleton]
    split <;> omega

theorem Reads.readLines {old met : List Text} {pass : Pass} (h : Reads old met pass)
    (index : Nat) (lines : List Text) :
    (pass.readLines index lines).1 = lines.mapIdx (fun i => Token.ofLine (index + i)) ∧
      Reads old (met ++ lines) (pass.readLines index lines).2 := by
  induction lines generalizing met pass index with
  | nil => simpa [Pass.readLines] using h
  | cons line rest ih =>
      obtain ⟨htokens, hnext⟩ := h.readLine index line
      obtain ⟨hothers, hlast⟩ := ih hnext (index + 1)
      refine ⟨?_, ?_⟩
      · simp only [Pass.readLines, htokens, hothers, List.mapIdx_cons, Nat.add_zero]
        congr 2
        funext i
        rw [Nat.add_right_comm, Nat.add_assoc]
      · simpa [Pass.readLines, List.append_assoc] using hlast

end Pass

/-! ## Many passes -/

/-- The cache holds exactly these lines, lexed. -/
structure Holds (cache : LineCache) (lines : List Text) : Prop where
  lexed : cache.table.Lexed
  mem_keys : ∀ line, line ∈ cache.table.keys ↔ line ∈ lines

theorem holds_empty : Holds empty [] where
  lexed := LineTable.lexed_empty
  mem_keys := by simp [empty]

theorem Holds.size_eq {cache : LineCache} {lines : List Text} (h : Holds cache lines) :
    cache.size = lines.toFinset.card := by
  have hset : cache.table.keys.toFinset = lines.toFinset := by
    ext line
    simp [h.mem_keys]
  rw [size, LineTable.size_eq_length_keys, ← hset,
    List.toFinset_card_of_nodup cache.table.nodup_keys]

/-- The state in which a pass begins. -/
theorem Holds.reads {cache : LineCache} {old : List Text} (h : Holds cache old) :
    Pass.Reads old [] ⟨cache.table, empty⟩ where
  previous_lexed := h.lexed
  current_lexed := LineTable.lexed_empty
  mem_previous := by simp [h.mem_keys]
  mem_current := by simp [empty]
  misses_eq := by simp [empty]
  total_eq := rfl

theorem Holds.tokenize {cache : LineCache} {old : List Text} (h : Holds cache old)
    (source : Text) :
    (cache.tokenize source).1 = Token.ofSource source ∧
      Pass.Reads old source.lines
        (Pass.readLines ⟨cache.table, empty⟩ 0 source.lines).2 := by
  obtain ⟨htokens, hreads⟩ := h.reads.readLines 0 source.lines
  refine ⟨?_, by simpa using hreads⟩
  have hzero : (fun i => Token.ofLine (0 + i)) = Token.ofLine := by
    funext i
    rw [Nat.zero_add]
  rw [LineCache.tokenize, Token.ofSource, ← hzero]
  exact htokens

theorem Holds.holds_tokenize {cache : LineCache} {old : List Text} (h : Holds cache old)
    (source : Text) : Holds (cache.tokenize source).2 source.lines where
  lexed := (h.tokenize source).2.current_lexed
  mem_keys := (h.tokenize source).2.mem_current

/-- A call on a cache. -/
inductive Call where
  | tokenize (source : Text)
  | clear
deriving DecidableEq, Repr

/-- The cache after a call. -/
def call (cache : LineCache) : Call → LineCache
  | .tokenize source => (cache.tokenize source).2
  | .clear => cache.clear

/-- A new cache after some calls. -/
def afterCalls (calls : List Call) : LineCache := calls.foldl call empty

/-- The lines of the last source, if it came after the last clearing. -/
def lastLines (calls : List Call) : List Text :=
  match calls.getLast? with
  | some (.tokenize source) => source.lines
  | some .clear => []
  | none => []

theorem holds_afterCalls (calls : List Call) : Holds (afterCalls calls) (lastLines calls) := by
  induction calls using List.reverseRecOn with
  | nil => exact holds_empty
  | append_singleton calls last ih =>
      rw [afterCalls, List.foldl_append, ← afterCalls, lastLines, List.getLast?_concat]
      cases last with
      | tokenize source => exact ih.holds_tokenize source
      | clear => exact holds_empty

/-- The cache is invisible: after any calls it gives the tokens that the lexer
gives. And it is bounded: the misses of a pass are the distinct lines that the
last source did not have, hits and misses make up the lines, and what is kept are
the distinct lines of the source just read. -/
theorem tokenize_transparent (calls : List Call) (source : Text) :
    ((afterCalls calls).tokenize source).1 = Token.ofSource source ∧
      ((afterCalls calls).tokenize source).2.misses =
        (source.lines.toFinset \ (lastLines calls).toFinset).card ∧
      ((afterCalls calls).tokenize source).2.hits +
        ((afterCalls calls).tokenize source).2.misses = source.lines.length ∧
      ((afterCalls calls).tokenize source).2.size = source.lines.toFinset.card := by
  have hholds := holds_afterCalls calls
  obtain ⟨htokens, hreads⟩ := hholds.tokenize source
  exact ⟨htokens, hreads.misses_eq, hreads.total_eq, (hholds.holds_tokenize source).size_eq⟩

end LineCache

end MarkupPreview
