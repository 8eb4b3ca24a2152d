import Mathlib.Data.List.Basic
import Mathlib.Data.List.Chain
import MarkupPreview.Proofs.PaddedBlock

/-!
# Runs of text

Neighbouring texts among inline nodes can be read as one. `InlineNode.merge` does so
from the right, one node in front of the others, and says nothing about how nodes come
in. A draft adds them at the other end: its last node grows by what comes next
(`merge_append_text`). The two agree because merged nodes have no two texts side by
side, so what is merged already can be taken over as it is (`foldr_join_of_isChain`).

Empty texts can be dropped before or after (`kept_merge`).

## Main results

* `isChain_merge` — merged nodes have no two texts side by side.
* `merge_merge_append` — merging twice is merging once.
* `merge_append_text`, `merge_append_cons` — what comes behind merged nodes.
-/

namespace MarkupPreview

namespace InlineNode

/-! ## Merging -/

/-- The node is text. -/
def isText : InlineNode → Bool
  | text _ => true
  | _ => false

/-- A node in front of others. A text runs together with a text behind it. -/
def join : InlineNode → List InlineNode → List InlineNode
  | text front, text back :: rest => text (front ++ back) :: rest
  | node, rest => node :: rest

/-- Each maximal run of texts as one text. -/
def merge (nodes : List InlineNode) : List InlineNode := nodes.foldr join []

/-- At most one of two nodes is text. -/
def Apart (first second : InlineNode) : Prop := (first.isText && second.isText) = false

@[simp] theorem isText_text (content : Text) : (text content).isText = true := rfl

@[simp] theorem merge_nil : merge [] = [] := rfl

theorem merge_cons (node : InlineNode) (rest : List InlineNode) :
    merge (node :: rest) = join node (merge rest) := rfl

theorem merge_append (front back : List InlineNode) :
    merge (front ++ back) = front.foldr join (merge back) := List.foldr_append

theorem join_text_text (front back : Text) (rest : List InlineNode) :
    join (text front) (text back :: rest) = text (front ++ back) :: rest := rfl

theorem join_of_not_isText {node : InlineNode} (h : node.isText = false)
    (rest : List InlineNode) : join node rest = node :: rest := by
  cases node with
  | text content => cases h
  | strong | emphasis | math => rfl

theorem join_of_apart {node : InlineNode} {rest : List InlineNode}
    (h : ∀ next ∈ rest.head?, Apart node next) : join node rest = node :: rest := by
  cases rest with
  | nil => cases node <;> rfl
  | cons next rest =>
      have hnext : Apart node next := h next rfl
      cases node <;> cases next <;> first | rfl | cases hnext

/-- A node is kept apart from others unless it is a text and so is the first of them. -/
theorem apart_or_texts (node : InlineNode) (rest : List InlineNode) :
    (∀ next ∈ rest.head?, Apart node next) ∨
      ∃ front back others, node = text front ∧ rest = text back :: others := by
  cases rest with
  | nil => exact .inl (by simp)
  | cons next rest =>
      cases node with
      | text front =>
          cases next with
          | text back => exact .inr ⟨front, back, rest, rfl, rfl⟩
          | strong | emphasis | math => exact .inl (by simp [Apart, isText])
      | strong | emphasis | math => exact .inl (by simp [Apart, isText])

/-- Nodes end with a text, or with a node of another kind. -/
theorem cases_last (nodes : List InlineNode) :
    nodes = [] ∨ (∃ front content, nodes = front ++ [text content]) ∨
      ∃ front node, node.isText = false ∧ nodes = front ++ [node] := by
  rcases List.eq_nil_or_concat nodes with hnil | ⟨front, last, hlast⟩
  · exact .inl hnil
  · rw [List.concat_eq_append] at hlast
    cases last with
    | text content => exact .inr (.inl ⟨front, content, hlast⟩)
    | strong | emphasis | math => exact .inr (.inr ⟨front, _, rfl, hlast⟩)

theorem isChain_join {node : InlineNode} {rest : List InlineNode} (h : rest.IsChain Apart) :
    (join node rest).IsChain Apart := by
  rcases apart_or_texts node rest with hapart | ⟨front, back, others, rfl, rfl⟩
  · rw [join_of_apart hapart]
    exact h.cons hapart
  · obtain ⟨hnext, hothers⟩ := List.isChain_cons.mp h
    exact hothers.cons fun next hmem => hnext next hmem

/-- Merged nodes have no two texts side by side. -/
theorem isChain_merge (nodes : List InlineNode) : (merge nodes).IsChain Apart := by
  induction nodes with
  | nil => exact .nil
  | cons node rest ih => exact isChain_join ih

/-- Nodes without two texts side by side are taken over as they are. -/
theorem foldr_join_of_isChain {front back : List InlineNode} (h : (front ++ back).IsChain Apart) :
    front.foldr join back = front ++ back := by
  induction front with
  | nil => rfl
  | cons node rest ih =>
      rw [List.cons_append, List.isChain_cons] at h
      rw [List.foldr_cons, ih h.2, join_of_apart h.1]
      rfl

theorem merge_of_isChain {nodes : List InlineNode} (h : nodes.IsChain Apart) :
    merge nodes = nodes := by
  have happend : (nodes ++ []).IsChain Apart := by rwa [List.append_nil]
  rw [merge, foldr_join_of_isChain happend, List.append_nil]

/-- Three texts in a row run together either way. -/
theorem join_join_text (front back : Text) (rest : List InlineNode) :
    join (text front) (join (text back) rest) = join (text (front ++ back)) rest := by
  rcases apart_or_texts (text back) rest with hapart | ⟨-, last, others, -, rfl⟩
  · have hlonger : ∀ next ∈ rest.head?, Apart (text (front ++ back)) next := hapart
    rw [join_of_apart hapart, join_text_text, join_of_apart hlonger]
  · rw [join_text_text, join_text_text, join_text_text, List.append_assoc]

theorem foldr_join_join (node : InlineNode) (rest back : List InlineNode) :
    (join node rest).foldr join back = join node (rest.foldr join back) := by
  rcases apart_or_texts node rest with hapart | ⟨front, next, others, rfl, rfl⟩
  · rw [join_of_apart hapart, List.foldr_cons]
  · rw [join_text_text, List.foldr_cons, List.foldr_cons, join_join_text]

theorem foldr_join_merge (nodes back : List InlineNode) :
    (merge nodes).foldr join back = nodes.foldr join back := by
  induction nodes with
  | nil => rfl
  | cons node rest ih => rw [merge_cons, foldr_join_join, ih, List.foldr_cons]

/-- What is merged already can be merged again with what comes behind it. -/
theorem merge_merge_append (front back : List InlineNode) :
    merge (merge front ++ back) = merge (front ++ back) := by
  rw [merge_append, foldr_join_merge, merge_append]

theorem merge_append_merge (front back : List InlineNode) :
    merge (front ++ merge back) = merge (front ++ back) := by
  rw [merge_append, merge_append, merge_of_isChain (isChain_merge back)]

/-- A node other than text keeps what is in front of it from what is behind. -/
theorem merge_append_cons {node : InlineNode} (h : node.isText = false)
    (front back : List InlineNode) :
    merge (front ++ node :: back) = merge front ++ node :: merge back := by
  have hfront : (merge front ++ [node]).IsChain Apart :=
    List.isChain_append.mpr ⟨isChain_merge front, .singleton _, by simp [Apart, h]⟩
  have hback : (node :: merge back).IsChain Apart :=
    (isChain_merge back).cons fun next _ => by rw [Apart, h, Bool.false_and]
  calc merge (front ++ node :: back)
      = merge (merge front ++ node :: merge back) := by
        rw [merge_merge_append, ← merge_append_merge, merge_cons, join_of_not_isText h]
    _ = merge front ++ node :: merge back :=
        merge_of_isChain (List.isChain_split.mpr ⟨hfront, hback⟩)

/-- A text behind others extends the last of them, if that is text. -/
theorem merge_append_text (front : List InlineNode) (content : Text) :
    merge (front ++ [text content]) =
      (InlineDraft.extend (merge front).reverse content).reverse := by
  have hchain := isChain_merge front
  rw [← merge_merge_append]
  rcases cases_last (merge front) with
    hnil | ⟨others, found, hlast⟩ | ⟨others, node, hnode, hlast⟩
  · rw [hnil]
    rfl
  · -- The texts run together, and nothing else does.
    rw [hlast] at hchain ⊢
    obtain ⟨hothers, -, hbetween⟩ := List.isChain_append.mp hchain
    have hjoined : (others ++ [text (found ++ content)]).IsChain Apart :=
      List.isChain_append.mpr ⟨hothers, .singleton _, by simpa [Apart] using hbetween⟩
    rw [List.append_assoc, merge_append]
    exact (foldr_join_of_isChain hjoined).trans (by simp [InlineDraft.extend])
  · rw [hlast] at hchain ⊢
    have hadded : (others ++ [node] ++ [text content]).IsChain Apart :=
      List.isChain_append.mpr ⟨hchain, .singleton _, by simp [Apart, hnode]⟩
    rw [merge_of_isChain hadded, List.reverse_concat]
    cases node with
    | text content => cases hnode
    | strong | emphasis | math => simp [InlineDraft.extend]

theorem merge_ne_nil {nodes : List InlineNode} (h : nodes ≠ []) : merge nodes ≠ [] := by
  cases nodes with
  | nil => exact absurd rfl h
  | cons node rest =>
      rw [merge_cons]
      unfold join
      split <;> exact List.cons_ne_nil _ _

/-! ## Empty texts -/

/-- The nodes without empty texts among them. -/
def kept (nodes : List InlineNode) : List InlineNode := nodes.filter (· ≠ text [])

@[simp] theorem kept_nil : kept [] = [] := rfl

theorem kept_cons_empty (rest : List InlineNode) : kept (text [] :: rest) = kept rest := rfl

theorem kept_cons_of_ne {node : InlineNode} (h : node ≠ text []) (rest : List InlineNode) :
    kept (node :: rest) = node :: kept rest :=
  List.filter_cons_of_pos (decide_eq_true h)

theorem kept_append (front back : List InlineNode) :
    kept (front ++ back) = kept front ++ kept back :=
  List.filter_append ..

theorem text_ne_empty {content : Text} (h : content ≠ []) : text content ≠ text [] :=
  mt text.inj h

theorem kept_text {content : Text} (h : content ≠ []) : kept [text content] = [text content] :=
  kept_cons_of_ne (text_ne_empty h) []

theorem ne_empty_of_not_isText {node : InlineNode} (h : node.isText = false) : node ≠ text [] := by
  rintro rfl
  cases h

theorem kept_concat_of_not_isText {node : InlineNode} (h : node.isText = false)
    (front : List InlineNode) : kept (front ++ [node]) = kept front ++ [node] := by
  rw [kept_append, kept_cons_of_ne (ne_empty_of_not_isText h), kept_nil]

/-- Without the empty texts nodes still start with what is no text. -/
theorem apart_kept {content : Text} {rest : List InlineNode}
    (h : ∀ next ∈ rest.head?, Apart (text content) next) :
    ∀ next ∈ (kept rest).head?, Apart (text content) next := by
  cases rest with
  | nil => exact h
  | cons first others =>
      have hfirst : first.isText = false := h first rfl
      rwa [kept_cons_of_ne (ne_empty_of_not_isText hfirst)]

theorem kept_join {node : InlineNode} {rest : List InlineNode} (h : rest.IsChain Apart) :
    kept (join node rest) = if node = text [] then kept rest else join node (kept rest) := by
  rcases apart_or_texts node rest with hapart | ⟨front, back, others, rfl, rfl⟩
  · rw [join_of_apart hapart]
    by_cases hempty : node = text []
    · rw [if_pos hempty, hempty, kept_cons_empty]
    · rw [if_neg hempty, kept_cons_of_ne hempty]
      cases node with
      | text content => exact (join_of_apart (apart_kept hapart)).symm
      | strong | emphasis | math => rfl
  · rw [join_text_text]
    by_cases hfront : front = []
    · rw [hfront, if_pos rfl, List.nil_append]
    · rw [if_neg (text_ne_empty hfront),
        kept_cons_of_ne (text_ne_empty (List.append_ne_nil_of_left_ne_nil hfront back))]
      by_cases hback : back = []
      · -- The empty text behind was the only one: what follows it is no text.
        have hlonger : ∀ next ∈ (kept others).head?, Apart (text front) next :=
          apart_kept (List.isChain_cons.mp h).1
        rw [hback, kept_cons_empty, List.append_nil, join_of_apart hlonger]
      · rw [kept_cons_of_ne (text_ne_empty hback), join_text_text]

/-- It makes no difference whether empty texts are dropped before or after. -/
theorem kept_merge (nodes : List InlineNode) : kept (merge nodes) = merge (kept nodes) := by
  induction nodes with
  | nil => rfl
  | cons node rest ih =>
      rw [merge_cons, kept_join (isChain_merge rest), ih]
      by_cases hempty : node = text []
      · rw [if_pos hempty, hempty, kept_cons_empty]
      · rw [if_neg hempty, kept_cons_of_ne hempty, merge_cons]

end InlineNode

end MarkupPreview
