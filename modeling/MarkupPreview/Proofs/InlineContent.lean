import Mathlib.Data.List.ModifyLast
import MarkupPreview.Proofs.InlineText
import MarkupPreview.Proofs.TextRuns

/-!
# Inline content, line by line

What the lines of a paragraph are shown as can be said without drafts. Each line has
content of its own: its runs of text, trimmed at both ends, without those of which
nothing is left. The lines that have content follow one another with a space in between.
What a single token is shown as is said beside `InlineNode.ofToken`, kind by kind.

Read from left to right, a line is trimmed at its start before its texts run together, and
at its end afterwards. Nothing is lost by that, even if the line stands behind others by
then and its first text has become part of theirs.

## Main results

* `lineContent_eq` — a line is trimmed at its start before, and at its end after its
  texts run together.
* `withoutTrail_merge_append` — it can be trimmed at its end behind the lines before it.
* `tidy_inlineContent` — the contents together have no text that is empty, next to
  another text, or blank at either end.
-/

namespace MarkupPreview

open Text

/-! ## Trimming -/

namespace Text

/-- The text starts with something other than white space. -/
def Opens (text : Text) : Prop := ∃ c ∈ text.head?, isSpace c = false

/-- The text ends with something other than white space. -/
def Closes (text : Text) : Prop := ∃ c ∈ text.getLast?, isSpace c = false

theorem Opens.not_isBlank {text : Text} (h : text.Opens) : text.isBlank = false := by
  obtain ⟨c, hc, hspace⟩ := h
  refine Bool.eq_false_iff.mpr fun hblank => ?_
  have hall := isBlank_iff.mp hblank c (List.mem_of_mem_head? hc)
  rw [hspace] at hall
  cases hall

theorem Opens.append {text : Text} (h : text.Opens) (back : Text) : Opens (text ++ back) := by
  obtain ⟨c, hc, hspace⟩ := h
  exact ⟨c, by rw [List.head?_append, Option.mem_def.mp hc]; rfl, hspace⟩

theorem Closes.append {text : Text} (h : text.Closes) (front : Text) : Closes (front ++ text) := by
  obtain ⟨c, hc, hspace⟩ := h
  exact ⟨c, by rw [List.getLast?_append, Option.mem_def.mp hc]; rfl, hspace⟩

theorem opens_trimStart {text : Text} (h : text.isBlank = false) : Opens (trimStart text) := by
  cases hhead : (trimStart text).head? with
  | none => exact absurd (List.head?_eq_none_iff.mp hhead) (trimStart_ne_nil h)
  | some c => exact ⟨c, hhead, not_isSpace_of_head?_trimStart hhead⟩

theorem closes_trimEnd {text : Text} (h : text.isBlank = false) : Closes (trimEnd text) := by
  have hback : isBlank text.reverse = false := by rw [isBlank_reverse, h]
  obtain ⟨c, hc, hspace⟩ := opens_trimStart hback
  exact ⟨c, by rw [trimEnd, List.getLast?_reverse]; exact hc, hspace⟩

/-- Text that is trimmed at its end starts as before. -/
theorem Opens.trimEnd {text : Text} (h : text.Opens) : Opens (trimEnd text) := by
  have hne := trimEnd_ne_nil h.not_isBlank
  obtain ⟨c, hc, hspace⟩ := h
  obtain ⟨blank, -, hsplit⟩ := exists_trimEnd_append_blank text
  cases hhead : (Text.trimEnd text).head? with
  | none => exact absurd (List.head?_eq_none_iff.mp hhead) hne
  | some first =>
      rw [hsplit, List.head?_append, hhead, Option.some_or, Option.mem_some_iff] at hc
      exact ⟨first, hhead, hc ▸ hspace⟩

theorem Closes.trimEnd_eq {text : Text} (h : text.Closes) : Text.trimEnd text = text := by
  obtain ⟨c, hc, hspace⟩ := h
  obtain ⟨front, rfl⟩ := List.getLast?_eq_some_iff.mp hc
  have hstays : Text.trimEnd [c] = [c] := by simp [Text.trimEnd, hspace]
  rw [trimEnd_append_of_not_isBlank front (by simp [isBlank, hspace]), hstays]

end Text

theorem InlineDraft.trimLatest_extend_of_not_isBlank (nodes : List InlineNode) {added : Text}
    (h : added.isBlank = false) :
    trimLatest (extend nodes added) = extend nodes (trimEnd added) := by
  have hne := trimEnd_ne_nil h
  unfold extend
  split
  · rename_i content rest
    have hlonger : (content ++ trimEnd added).isEmpty = false :=
      List.isEmpty_eq_false_iff.mpr (List.append_ne_nil_of_right_ne_nil content hne)
    rw [trimLatest, trimEnd_append_of_not_isBlank content h, hlonger, if_neg Bool.false_ne_true]
  · rw [trimLatest, List.isEmpty_eq_false_iff.mpr hne, if_neg Bool.false_ne_true]

namespace InlineNode

/-! ## What the lines show -/

/-- A text without the white space it starts with, any other node as it is. -/
def trimStart : InlineNode → InlineNode
  | text content => text (Text.trimStart content)
  | node => node

/-- A text without the white space it ends with, any other node as it is. -/
def trimEnd : InlineNode → InlineNode
  | text content => text (Text.trimEnd content)
  | node => node

/-- What one line shows. -/
def lineContent (tokens : List Token) : List InlineNode :=
  kept (((merge (tokens.map ofToken)).modifyHead trimStart).modifyLast trimEnd)

/-- What the lines show that show something. -/
def contents (lines : List (List Token)) : List (List InlineNode) :=
  (lines.map lineContent).filter (· ≠ [])

/-- One space between two lines. -/
def space : InlineNode := text [' ']

/-- What the lines show together. -/
def inlineContent (lines : List (List Token)) : List InlineNode :=
  merge ([space].intercalate (contents lines))

/-! ## Where nodes start and end -/

/-- If the nodes start with text, it starts with something other than white space. -/
def Opens (nodes : List InlineNode) : Prop :=
  ∀ content, nodes.head? = some (text content) → content.Opens

/-- If the nodes end with text, it ends with something other than white space. -/
def Closes (nodes : List InlineNode) : Prop :=
  ∀ content, nodes.getLast? = some (text content) → content.Closes

theorem opens_nil : Opens [] := nofun

theorem closes_nil : Closes [] := nofun

theorem opens_cons_of_not_isText {node : InlineNode} (h : node.isText = false)
    (rest : List InlineNode) : Opens (node :: rest) := by
  rintro content hhead
  rw [List.head?_cons, Option.some.injEq] at hhead
  rw [hhead] at h
  cases h

theorem opens_text {content : Text} (h : content.Opens) (rest : List InlineNode) :
    Opens (text content :: rest) := by
  rintro found hhead
  rw [List.head?_cons, Option.some.injEq, text.injEq] at hhead
  exact hhead ▸ h

theorem closes_concat_of_not_isText {node : InlineNode} (h : node.isText = false)
    (front : List InlineNode) : Closes (front ++ [node]) := by
  rintro content hlast
  rw [List.getLast?_concat, Option.some.injEq] at hlast
  rw [hlast] at h
  cases h

theorem closes_concat_text {content : Text} (h : content.Closes) (front : List InlineNode) :
    Closes (front ++ [text content]) := by
  rintro found hlast
  rw [List.getLast?_concat, Option.some.injEq, text.injEq] at hlast
  exact hlast ▸ h

theorem Opens.append {nodes : List InlineNode} (h : Opens nodes) (hne : nodes ≠ [])
    (back : List InlineNode) : Opens (nodes ++ back) := by
  intro content hhead
  rw [List.head?_append_of_ne_nil _ hne] at hhead
  exact h content hhead

theorem Closes.append {nodes : List InlineNode} (h : Closes nodes) (hne : nodes ≠ [])
    (front : List InlineNode) : Closes (front ++ nodes) := by
  intro content hlast
  rw [List.getLast?_append_of_ne_nil _ hne] at hlast
  exact h content hlast

theorem Opens.merge {nodes : List InlineNode} (h : Opens nodes) : Opens (merge nodes) := by
  cases nodes with
  | nil => exact opens_nil
  | cons node rest =>
      rw [merge_cons]
      rcases apart_or_texts node (InlineNode.merge rest) with
        hapart | ⟨front, back, others, rfl, hrest⟩
      · rw [join_of_apart hapart]
        exact h
      · rw [hrest, join_text_text]
        exact opens_text ((h front rfl).append back) others

theorem Closes.merge {nodes : List InlineNode} (h : Closes nodes) : Closes (merge nodes) := by
  rcases cases_last nodes with rfl | ⟨front, content, rfl⟩ | ⟨front, node, hnode, rfl⟩
  · exact closes_nil
  · have hcontent : content.Closes := h content List.getLast?_concat
    rw [merge_append_text]
    unfold InlineDraft.extend
    split
    · rw [List.reverse_cons]
      exact closes_concat_text (hcontent.append _) _
    · rw [List.reverse_cons]
      exact closes_concat_text hcontent _
  · rw [merge_append_cons hnode]
    exact closes_concat_of_not_isText hnode _

theorem notMem_merge {nodes : List InlineNode} (h : text [] ∉ nodes) : text [] ∉ merge nodes := by
  have hall : ∀ node ∈ nodes, decide (node ≠ text []) = true := by
    intro node hmem
    exact decide_eq_true fun hempty => h (hempty ▸ hmem)
  have hkept : kept nodes = nodes := List.filter_eq_self.mpr hall
  intro hmem
  rw [← hkept, ← kept_merge] at hmem
  exact of_decide_eq_true (List.mem_filter.mp hmem).2 rfl

/-! ## A line in two steps -/

/-- The nodes behind the white space they start with. -/
def withoutLead : List InlineNode → List InlineNode
  | text content :: rest =>
      if content.isBlank then withoutLead rest else text (Text.trimStart content) :: rest
  | nodes => nodes

/-- The nodes without the white space they end with. -/
def withoutTrail (nodes : List InlineNode) : List InlineNode :=
  (InlineDraft.trimLatest nodes.reverse).reverse

theorem withoutLead_of_not_isText {node : InlineNode} (h : node.isText = false)
    (rest : List InlineNode) : withoutLead (node :: rest) = node :: rest := by
  cases node with
  | text content => cases h
  | strong | emphasis | math => rfl

theorem withoutLead_blank {content : Text} (h : content.isBlank = true) (rest : List InlineNode) :
    withoutLead (text content :: rest) = withoutLead rest := by
  rw [withoutLead, if_pos h]

theorem withoutLead_text {content : Text} (h : content.isBlank = false) (rest : List InlineNode) :
    withoutLead (text content :: rest) = text (Text.trimStart content) :: rest := by
  rw [withoutLead, h, if_neg Bool.false_ne_true]

/-- White space in front of other nodes is nothing. -/
theorem kept_modifyHead_join_blank {content : Text} (h : content.isBlank = true)
    (rest : List InlineNode) :
    kept ((join (text content) rest).modifyHead trimStart) = kept (rest.modifyHead trimStart) := by
  have hnothing : kept (text (Text.trimStart content) :: rest) = kept rest := by
    rw [trimStart_eq_nil_iff.mpr h, kept_cons_empty]
  cases rest with
  | nil => exact hnothing
  | cons next others =>
      cases next with
      | text back =>
          rw [join_text_text, List.modifyHead_cons, List.modifyHead_cons, trimStart, trimStart,
            trimStart_append_of_isBlank h]
      | strong | emphasis | math => exact hnothing

/-- Other text is trimmed whether or not it goes on. -/
theorem modifyHead_join_text {content : Text} (h : content.isBlank = false)
    (rest : List InlineNode) :
    (join (text content) rest).modifyHead trimStart =
      join (text (Text.trimStart content)) rest := by
  rcases apart_or_texts (text content) rest with hapart | ⟨front, back, others, hfront, rfl⟩
  · have hshorter : ∀ next ∈ rest.head?, Apart (text (Text.trimStart content)) next := hapart
    rw [join_of_apart hapart, join_of_apart hshorter]
    rfl
  · rw [join_text_text, join_text_text, List.modifyHead_cons, trimStart,
      trimStart_append_of_not_isBlank h]

/-- Trimming at the start before or after the texts run together is the same. -/
theorem kept_modifyHead_merge (nodes : List InlineNode) :
    kept ((merge nodes).modifyHead trimStart) = merge (kept (withoutLead nodes)) := by
  induction nodes with
  | nil => rfl
  | cons node rest ih =>
      cases node with
      | text content =>
          rw [merge_cons]
          cases hblank : content.isBlank with
          | true => rw [kept_modifyHead_join_blank hblank, ih, withoutLead_blank hblank]
          | false =>
              have hne := text_ne_empty (trimStart_ne_nil hblank)
              rw [modifyHead_join_text hblank, kept_join (isChain_merge rest), if_neg hne,
                kept_merge, withoutLead_text hblank, kept_cons_of_ne hne, merge_cons]
      | strong | emphasis | math =>
          rw [withoutLead_of_not_isText rfl, ← kept_merge, merge_cons, join_of_not_isText rfl]
          rfl

theorem withoutTrail_concat_text (front : List InlineNode) (content : Text) :
    withoutTrail (front ++ [text content]) = front ++ kept [text (Text.trimEnd content)] := by
  rw [withoutTrail, List.reverse_concat, InlineDraft.trimLatest]
  by_cases hempty : Text.trimEnd content = []
  · rw [hempty, List.isEmpty_nil, if_pos rfl, List.reverse_reverse, kept_cons_empty, kept_nil,
      List.append_nil]
  · rw [if_neg (by simpa using hempty), kept_text hempty, List.reverse_cons, List.reverse_reverse]

theorem withoutTrail_concat_of_not_isText {node : InlineNode} (h : node.isText = false)
    (front : List InlineNode) : withoutTrail (front ++ [node]) = front ++ [node] := by
  rw [withoutTrail, List.reverse_concat]
  cases node with
  | text content => cases h
  | strong | emphasis | math => simp [InlineDraft.trimLatest]

/-- Where two texts are never side by side a text at the end is all, or stands behind a node
of another kind. -/
theorem eq_nil_or_concat_of_isChain {front : List InlineNode} {content : Text}
    (h : (front ++ [text content]).IsChain Apart) :
    front = [] ∨ ∃ before node, node.isText = false ∧ front = before ++ [node] := by
  have hbetween := (List.isChain_append.mp h).2.2
  rcases cases_last front with hnil | ⟨before, found, rfl⟩ | hother
  · exact .inl hnil
  · have hapart := hbetween (text found) List.getLast?_concat (text content) rfl
    cases hapart
  · exact .inr hother

theorem kept_modifyLast {nodes : List InlineNode} (h : nodes.IsChain Apart) :
    kept (nodes.modifyLast trimEnd) = withoutTrail (kept nodes) := by
  rcases cases_last nodes with rfl | ⟨front, content, rfl⟩ | ⟨front, node, hnode, rfl⟩
  · rfl
  · rw [List.modifyLast_concat, kept_append, kept_append]
    by_cases hempty : content = []
    · -- An empty text at the end leaves what stands before it, which does not end with text.
      subst hempty
      have hstays : withoutTrail (kept front) = kept front := by
        rcases eq_nil_or_concat_of_isChain h with rfl | ⟨before, node, hnode, rfl⟩
        · rfl
        · rw [kept_concat_of_not_isText hnode, withoutTrail_concat_of_not_isText hnode]
      rw [kept_cons_empty, kept_nil, List.append_nil, hstays]
      exact List.append_nil _
    · rw [kept_text hempty, withoutTrail_concat_text, trimEnd]
  · have hstays : trimEnd node = node := by
      cases node with
      | text content => cases hnode
      | strong | emphasis | math => rfl
    rw [List.modifyLast_concat, hstays, kept_concat_of_not_isText hnode,
      withoutTrail_concat_of_not_isText hnode]

/-- What a line adds before its end is trimmed. -/
def opened (tokens : List Token) : List InlineNode := kept (withoutLead (tokens.map ofToken))

/-- A line is trimmed at its start before, and at its end after its texts run together. -/
theorem lineContent_eq (tokens : List Token) :
    lineContent tokens = withoutTrail (merge (opened tokens)) := by
  have hchain : ((merge (tokens.map ofToken)).modifyHead trimStart).IsChain Apart := by
    have hmerged := isChain_merge (tokens.map ofToken)
    generalize merge (tokens.map ofToken) = nodes at hmerged ⊢
    cases nodes with
    | nil => exact hmerged
    | cons node rest =>
        obtain ⟨hnext, hrest⟩ := List.isChain_cons.mp hmerged
        refine hrest.cons fun next hmem => ?_
        have hapart := hnext next hmem
        cases node <;> exact hapart
  rw [lineContent, kept_modifyLast hchain, kept_modifyHead_merge, opened]

theorem opens_withoutLead (nodes : List InlineNode) : Opens (withoutLead nodes) := by
  induction nodes with
  | nil => exact opens_nil
  | cons node rest ih =>
      cases node with
      | text content =>
          cases hblank : content.isBlank with
          | true =>
              rw [withoutLead_blank hblank]
              exact ih
          | false =>
              rw [withoutLead_text hblank]
              exact opens_text (opens_trimStart hblank) rest
      | strong | emphasis | math => exact opens_cons_of_not_isText rfl rest

theorem Opens.kept {nodes : List InlineNode} (h : Opens nodes) : Opens (kept nodes) := by
  cases nodes with
  | nil => exact opens_nil
  | cons node rest =>
      by_cases hempty : node = text []
      · subst hempty
        obtain ⟨c, hc, -⟩ := h [] rfl
        cases hc
      · rw [kept_cons_of_ne hempty]
        exact h

theorem opens_opened (tokens : List Token) : Opens (opened tokens) :=
  (opens_withoutLead _).kept

/-- Trimming at the end leaves nodes starting as before, unless nothing is left of them. -/
theorem Opens.withoutTrail {nodes : List InlineNode} (h : Opens nodes) :
    Opens (withoutTrail nodes) := by
  rcases cases_last nodes with rfl | ⟨front, content, rfl⟩ | ⟨front, node, hnode, rfl⟩
  · exact opens_nil
  · rw [withoutTrail_concat_text]
    cases front with
    | nil =>
        have hcontent : content.Opens := h content rfl
        exact (opens_text hcontent.trimEnd []).kept
    | cons first others => exact fun found hhead => h found hhead
  · rwa [withoutTrail_concat_of_not_isText hnode]

theorem Opens.withoutTrail_ne_nil {nodes : List InlineNode} (h : Opens nodes) (hne : nodes ≠ []) :
    InlineNode.withoutTrail nodes ≠ [] := by
  rcases cases_last nodes with rfl | ⟨front, content, rfl⟩ | ⟨front, node, hnode, rfl⟩
  · exact absurd rfl hne
  · rw [withoutTrail_concat_text]
    cases front with
    | nil =>
        have hcontent : content.Opens := h content rfl
        rw [kept_text (trimEnd_ne_nil hcontent.not_isBlank)]
        exact List.cons_ne_nil _ _
    | cons first others => exact List.cons_ne_nil _ _
  · rwa [withoutTrail_concat_of_not_isText hnode]

theorem closes_withoutTrail {nodes : List InlineNode} (h : nodes.IsChain Apart) :
    Closes (withoutTrail nodes) := by
  rcases cases_last nodes with rfl | ⟨front, content, rfl⟩ | ⟨front, node, hnode, rfl⟩
  · exact closes_nil
  · rw [withoutTrail_concat_text]
    cases hblank : content.isBlank with
    | true =>
        rw [trimEnd_eq_nil_iff.mpr hblank, kept_cons_empty, kept_nil, List.append_nil]
        rcases eq_nil_or_concat_of_isChain h with rfl | ⟨before, node, hnode, rfl⟩
        · exact closes_nil
        · exact closes_concat_of_not_isText hnode before
    | false =>
        rw [kept_text (trimEnd_ne_nil hblank)]
        exact closes_concat_text (closes_trimEnd hblank) front
  · rw [withoutTrail_concat_of_not_isText hnode]
    exact closes_concat_of_not_isText hnode front

theorem Closes.withoutTrail_eq {nodes : List InlineNode} (h : Closes nodes) :
    withoutTrail nodes = nodes := by
  rcases cases_last nodes with rfl | ⟨front, content, rfl⟩ | ⟨front, node, hnode, rfl⟩
  · rfl
  · have hcontent : content.Closes := h content List.getLast?_concat
    have hne : content ≠ [] := by
      obtain ⟨c, hc, -⟩ := hcontent
      exact List.ne_nil_of_mem (List.mem_of_mem_getLast? hc)
    rw [withoutTrail_concat_text, hcontent.trimEnd_eq, kept_text hne]
  · exact withoutTrail_concat_of_not_isText hnode front

/-- A line can be trimmed at its end before or after it is put behind the lines before. -/
theorem withoutTrail_merge_append (front : List InlineNode) {nodes : List InlineNode}
    (hchain : nodes.IsChain Apart) (hopens : Opens nodes) (hne : nodes ≠ []) :
    withoutTrail (merge (front ++ nodes)) = merge (front ++ withoutTrail nodes) := by
  rcases cases_last nodes with rfl | ⟨before, content, rfl⟩ | ⟨before, node, hnode, rfl⟩
  · exact absurd rfl hne
  · rw [withoutTrail_concat_text]
    rcases eq_nil_or_concat_of_isChain hchain with rfl | ⟨others, node, hnode, rfl⟩
    · -- The text goes on in the last text of the lines before.
      have hblank : content.isBlank = false := (hopens content rfl).not_isBlank
      have hkept := kept_text (trimEnd_ne_nil hblank)
      rw [List.nil_append, List.nil_append, hkept, merge_append_text, merge_append_text,
        withoutTrail, List.reverse_reverse, InlineDraft.trimLatest_extend_of_not_isBlank _ hblank]
    · -- The text is a node of its own.
      have hshort : merge (kept [text (Text.trimEnd content)]) =
          kept [text (Text.trimEnd content)] := by
        rw [← kept_merge]
        rfl
      have hlast := withoutTrail_concat_text (merge (front ++ others) ++ [node]) content
      simp only [List.append_assoc, List.singleton_append] at hlast ⊢
      rw [← List.append_assoc, ← List.append_assoc, merge_append_cons hnode,
        merge_append_cons hnode, hshort]
      exact hlast
  · rw [withoutTrail_concat_of_not_isText hnode, ← List.append_assoc, merge_append_cons hnode]
    exact withoutTrail_concat_of_not_isText hnode _

/-! ## The contents of the lines -/

theorem closes_lineContent (tokens : List Token) : Closes (lineContent tokens) := by
  rw [lineContent_eq]
  exact closes_withoutTrail (isChain_merge _)

theorem opens_lineContent (tokens : List Token) : Opens (lineContent tokens) := by
  rw [lineContent_eq]
  exact (opens_opened tokens).merge.withoutTrail

theorem notMem_lineContent (tokens : List Token) : text [] ∉ lineContent tokens := fun hmem =>
  of_decide_eq_true (List.mem_filter.mp hmem).2 rfl

theorem lineContent_eq_nil_iff (tokens : List Token) :
    lineContent tokens = [] ↔ opened tokens = [] := by
  rw [lineContent_eq]
  refine ⟨fun hnil => ?_, fun hnil => by rw [hnil]; rfl⟩
  by_contra hne
  exact (opens_opened tokens).merge.withoutTrail_ne_nil (merge_ne_nil hne) hnil

theorem contents_nil : contents [] = [] := rfl

theorem contents_cons_of_eq_nil {tokens : List Token} (h : lineContent tokens = [])
    (lines : List (List Token)) : contents (tokens :: lines) = contents lines := by
  rw [contents, List.map_cons, List.filter_cons_of_neg (by simpa using h), contents]

theorem contents_cons_of_ne_nil {tokens : List Token} (h : lineContent tokens ≠ [])
    (lines : List (List Token)) :
    contents (tokens :: lines) = lineContent tokens :: contents lines := by
  rw [contents, List.map_cons, List.filter_cons_of_pos (by simpa using h), contents]

/-- The space in front of a line, if it is due. -/
def gap (due : Bool) : List InlineNode := if due then [space] else []

/-- Contents one behind the other, spaces in between, and one in front if it is due. -/
def joined : Bool → List (List InlineNode) → List InlineNode
  | _, [] => []
  | due, content :: rest => gap due ++ content ++ joined true rest

theorem joined_eq_intercalate (found : List (List InlineNode)) :
    joined false found = [space].intercalate found := by
  induction found with
  | nil => rfl
  | cons content rest ih =>
      cases rest with
      | nil => rw [List.intercalate_singleton, joined, joined, gap, if_neg Bool.false_ne_true,
          List.nil_append, List.append_nil]
      | cons next others =>
          have hspace :
              joined true (next :: others) = [space] ++ joined false (next :: others) := rfl
          rw [List.intercalate_cons_cons, ← ih, joined, hspace, gap, if_neg Bool.false_ne_true,
            List.nil_append, List.append_assoc]

/-- Nodes fit to be shown: every text says something and is as long as it can be, and no white
space stands at either end. -/
structure Tidy (nodes : List InlineNode) : Prop where
  noEmpty : text [] ∉ nodes
  apart : nodes.IsChain Apart
  opens : Opens nodes
  closes : Closes nodes

theorem mem_contents {content : List InlineNode} {lines : List (List Token)}
    (h : content ∈ contents lines) : content ≠ [] ∧ ∃ tokens, lineContent tokens = content := by
  obtain ⟨hmem, hne⟩ := List.mem_filter.mp h
  obtain ⟨tokens, -, hcontent⟩ := List.mem_map.mp hmem
  exact ⟨of_decide_eq_true hne, tokens, hcontent⟩

theorem notMem_joined {found : List (List InlineNode)} (h : ∀ content ∈ found, text [] ∉ content)
    (due : Bool) : text [] ∉ joined due found := by
  induction found generalizing due with
  | nil => exact List.not_mem_nil
  | cons content rest ih =>
      have hgap : text [] ∉ gap due := by cases due <;> decide
      obtain ⟨hcontent, hrest⟩ := List.forall_mem_cons.mp h
      rw [joined, List.mem_append, List.mem_append]
      exact not_or_intro (not_or_intro hgap hcontent) (ih hrest true)

theorem opens_joined {found : List (List InlineNode)}
    (h : ∀ content ∈ found, content ≠ [] ∧ Opens content) : Opens (joined false found) := by
  cases found with
  | nil => exact opens_nil
  | cons content rest =>
      obtain ⟨hne, hopens⟩ := h content List.mem_cons_self
      exact hopens.append hne (joined true rest)

theorem closes_joined {found : List (List InlineNode)}
    (h : ∀ content ∈ found, content ≠ [] ∧ Closes content) (due : Bool) :
    Closes (joined due found) := by
  induction found generalizing due with
  | nil => exact closes_nil
  | cons content rest ih =>
      obtain ⟨⟨hne, hcloses⟩, hrest⟩ := List.forall_mem_cons.mp h
      rw [joined]
      cases rest with
      | nil =>
          rw [joined, List.append_nil]
          exact hcloses.append hne _
      | cons next others =>
          have hjoined : joined true (next :: others) ≠ [] := List.cons_ne_nil _ _
          exact (ih hrest true).append hjoined _

theorem tidy_inlineContent (lines : List (List Token)) : Tidy (inlineContent lines) := by
  rw [inlineContent, ← joined_eq_intercalate]
  refine ⟨notMem_merge (notMem_joined ?_ false), isChain_merge _, (opens_joined ?_).merge,
    (closes_joined ?_ false).merge⟩
  all_goals
    intro content hmem
    obtain ⟨hne, tokens, rfl⟩ := mem_contents hmem
  · exact notMem_lineContent tokens
  · exact ⟨hne, opens_lineContent tokens⟩
  · exact ⟨hne, closes_lineContent tokens⟩

end InlineNode

end MarkupPreview
