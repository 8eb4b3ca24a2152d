import MarkupPreview.Directive.SetRule
import MarkupPreview.Style

/-!
# What a set rule does to a style

Only a rule for `text` has an effect, and only through two of its arguments:
`size`, a single length, and `font`, a single string or a list of fallbacks in
parentheses of which the first counts if it is a single string. Where a name
occurs twice the last argument of that name counts, whatever its value is. All
else is skipped.

## Main results

* `apply_eq_self` — a rule without such an argument leaves a style alone.
-/

namespace MarkupPreview

namespace SetRule

/-- The single atom of the last argument with the given name. -/
def value? (rule : SetRule) (name : String) : Option Atom :=
  (rule.named? name.toList).bind Named.single?

/-- The font size that a rule asks for. -/
def size? (rule : SetRule) : Option Length :=
  match rule.value? "size" with
  | some (.length length) => some length
  | _ => none

/-- The font family that a value asks for. -/
def family? : Atom → Option Text
  | .text family => some family
  | .group (first :: _) =>
      match first.single? with
      | some (.text family) => some family
      | _ => none
  | _ => none

/-- The font family that a rule asks for. -/
def font? (rule : SetRule) : Option Text := (rule.value? "font").bind family?

/-- Whether a rule is about the style of text. -/
def isForText (rule : SetRule) : Bool := rule.target == "text".toList

/-- Whether a rule sets anything. -/
def hasEffect (rule : SetRule) : Bool :=
  rule.isForText && (rule.size?.isSome || rule.font?.isSome)

/-- The style after a rule. A relative size refers to the size before it. -/
def apply (rule : SetRule) (style : Style) : Style :=
  if rule.isForText then
    { fontFamily := rule.font?.getD style.fontFamily
      fontSize := (rule.size?.map (·.toPoints style.fontSize)).getD style.fontSize }
  else style

theorem apply_eq_self {rule : SetRule} (h : rule.hasEffect = false) (style : Style) :
    rule.apply style = style := by
  unfold hasEffect at h
  unfold apply
  cases htext : rule.isForText with
  | false => simp
  | true =>
      cases hsize : rule.size? <;> cases hfont : rule.font? <;> simp_all

end SetRule

end MarkupPreview
