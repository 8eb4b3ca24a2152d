import MarkupPreview.Directive.Effect

/-!
# Arguments without an effect

An argument of a rule for text can change a style only if its value has the shape that its
name asks for: `size` asks for a single length, `font` for a single string or for a single
group that begins with one. All others are ignored.

To be ignored is not the same as not to be there. A rule looks up the last argument of a
name and then at its shape, so an ignored argument hides a good one of the same name in
front of it: in `size: 9pt, size: auto` the size is not set. Such an argument is said to
*shadow* the other. Any other ignored argument can be removed and nothing changes.

## Main results

* `SetRule.bind_named?_ignored` — what a rule asks for under a name, with an ignored argument
  in it and without it.
* `SetRule.asks_same_iff`, `SetRule.effect_of_shadows` — without an ignored argument a rule
  asks for the same exactly if the argument shadows none, and what it does if it shadows one.
* `SetRule.removal_of_ignored` — so removing it does nothing exactly if it shadows none.
-/

namespace MarkupPreview

/-! ## Shapes -/

namespace Argument

/-- The value of an argument has the shape that its name asks for. -/
inductive Fits : Argument → Prop
  | size (length : Length) : Fits ⟨some "size".toList, [.length length]⟩
  | font (family : Text) : Fits ⟨some "font".toList, [.text family]⟩
  /-- The other fallbacks can be of any shape. -/
  | fallbacks (name : Option Text) (family : Text) (others : List Argument) :
    Fits ⟨some "font".toList, [.group (⟨name, [.text family]⟩ :: others)]⟩

/-- The value as a size. -/
def length? (argument : Argument) : Option Length :=
  match argument.single? with
  | some (.length length) => some length
  | _ => none

/-- The value as a font. -/
def family? (argument : Argument) : Option Text := argument.single?.bind SetRule.family?

theorem length?_eq_some_iff {argument : Argument} {length : Length} :
    length? argument = some length ↔ argument.atoms = [.length length] := by
  rw [← Named.single?_eq_some_iff, length?]
  split
  · rename_i found hfound
    rw [hfound]
    simp
  · rename_i hother
    simp only [reduceCtorEq, false_iff]
    exact hother length

theorem family?_eq_some_iff {argument : Argument} {family : Text} :
    family? argument = some family ↔
      argument.atoms = [.text family] ∨
        ∃ name others, argument.atoms = [.group (⟨name, [.text family]⟩ :: others)] := by
  simp only [family?, Option.bind_eq_some_iff, Named.single?_eq_some_iff]
  constructor
  · intro h
    obtain ⟨atom, hatoms, hfamily⟩ := h
    unfold SetRule.family? at hfamily
    split at hfamily
    · rw [Option.some.inj hfamily] at hatoms
      exact .inl hatoms
    · rename_i first others
      split at hfamily
      · rename_i found hsingle
        obtain ⟨name, atoms⟩ := first
        have hfirst : atoms = [.text found] := Named.single?_eq_some_iff.mp hsingle
        rw [hfirst, Option.some.inj hfamily] at hatoms
        exact .inr ⟨name, others, hatoms⟩
      · cases hfamily
    · cases hfamily
  · intro h
    cases h with
    | inl htext => exact ⟨_, htext, rfl⟩
    | inr hgroup =>
        obtain ⟨name, others, hatoms⟩ := hgroup
        exact ⟨_, hatoms, rfl⟩

theorem fits_iff {argument : Argument} :
    argument.Fits ↔
      (argument.name = some "size".toList ∧ (length? argument).isSome) ∨
        (argument.name = some "font".toList ∧ (family? argument).isSome) := by
  constructor
  · intro h
    cases h with
    | size length => exact .inl ⟨rfl, rfl⟩
    | font family => exact .inr ⟨rfl, rfl⟩
    | fallbacks name family others => exact .inr ⟨rfl, rfl⟩
  · obtain ⟨name, atoms⟩ := argument
    rintro (⟨rfl, hsome⟩ | ⟨rfl, hsome⟩)
    · obtain ⟨length, hlength⟩ := Option.isSome_iff_exists.mp hsome
      obtain rfl : atoms = [.length length] := length?_eq_some_iff.mp hlength
      exact .size length
    · obtain ⟨family, hfamily⟩ := Option.isSome_iff_exists.mp hsome
      rcases family?_eq_some_iff.mp hfamily with hatoms | ⟨other, others, hatoms⟩
      · obtain rfl : atoms = [.text family] := hatoms
        exact .font family
      · obtain rfl : atoms = [.group (⟨other, [.text family]⟩ :: others)] := hatoms
        exact .fallbacks other family others

instance : DecidablePred Fits := fun _ => decidable_of_iff _ fits_iff.symm

end Argument

/-! ## The last argument of a name -/

namespace SetRule

variable {target name : Text} {arguments front back : List Argument} {argument : Argument}

theorem named?_append (target name : Text) (front back : List Argument) :
    (SetRule.mk target (front ++ back)).named? name =
      ((SetRule.mk target back).named? name).or ((SetRule.mk target front).named? name) := by
  rw [named?, List.reverse_append, List.find?_append]
  rfl

theorem named?_eq_none_iff :
    (SetRule.mk target arguments).named? name = none ↔
      ∀ argument ∈ arguments, argument.name ≠ some name := by
  simp [named?]

/-- The last of a name has none of that name behind it. -/
theorem named?_eq_some_iff :
    (SetRule.mk target arguments).named? name = some argument ↔
      argument.name = some name ∧ ∃ before between, arguments = before ++ argument :: between ∧
        ∀ other ∈ between, other.name ≠ some name := by
  rw [named?, List.find?_eq_some_iff_append]
  simp only [beq_iff_eq, Bool.not_eq_true', beq_eq_false_iff_ne]
  refine and_congr_right fun _ => ?_
  constructor
  · intro h
    obtain ⟨later, earlier, hreverse, hlater⟩ := h
    refine ⟨earlier.reverse, later.reverse, ?_, fun other hmem => ?_⟩
    · rw [← List.reverse_reverse arguments, hreverse]
      simp
    · exact hlater other (List.mem_reverse.mp hmem)
  · intro h
    obtain ⟨before, between, rfl, hbetween⟩ := h
    refine ⟨between.reverse, before.reverse, by simp, fun other hmem => ?_⟩
    exact hbetween other (List.mem_reverse.mp hmem)

/-- What a rule asks for under a name, where one of its arguments has nothing to say: if that
is the last of the name nothing is asked for, and otherwise it does not matter. -/
theorem bind_named?_ignored {β : Type} {read : Argument → Option β}
    (hread : argument.name = some name → read argument = none) :
    ((SetRule.mk target (front ++ argument :: back)).named? name).bind read =
      if argument.name = some name ∧ ∀ later ∈ back, later.name ≠ some name then none
      else ((SetRule.mk target (front ++ back)).named? name).bind read := by
  have hwhole := named?_append target name front (argument :: back)
  have hbehind := named?_append target name [argument] back
  rw [List.singleton_append] at hbehind
  rw [hwhole, hbehind, named?_append target name front back]
  cases hback : (SetRule.mk target back).named? name with
  | some later =>
      have hlater : ¬ ∀ later ∈ back, later.name ≠ some name := fun hnone =>
        Option.some_ne_none later (hback.symm.trans (named?_eq_none_iff.mpr hnone))
      rw [if_neg (fun h => hlater h.2)]
      rfl
  | none =>
      have hlater : ∀ later ∈ back, later.name ≠ some name := named?_eq_none_iff.mp hback
      by_cases hname : argument.name = some name
      · have hself : (SetRule.mk target [argument]).named? name = some argument := by
          simp [named?, hname]
        rw [if_pos ⟨hname, hlater⟩, hself]
        exact hread hname
      · have hself : (SetRule.mk target [argument]).named? name = none := by
          simp [named?, hname]
        rw [if_neg (fun h => hname h.1), hself]
        rfl

/-! ## What a rule asks for -/

theorem size?_eq (rule : SetRule) : rule.size? = (rule.named? "size".toList).bind (·.length?) := by
  rw [size?, value?]
  cases rule.named? "size".toList <;> rfl

theorem font?_eq (rule : SetRule) : rule.font? = (rule.named? "font".toList).bind (·.family?) := by
  rw [font?, value?, Option.bind_assoc]
  rfl

/-- The effect of a rule is that of what it asks for. -/
theorem effect_congr {rule other : SetRule} (htarget : rule.target = other.target)
    (hsize : rule.size? = other.size?) (hfont : rule.font? = other.font?) :
    (∀ style, rule.apply style = other.apply style) ∧ rule.hasEffect = other.hasEffect := by
  have hfor : rule.isForText = other.isForText := by rw [isForText, htarget, isForText]
  refine ⟨fun style => ?_, ?_⟩
  · rw [apply, apply, hfor, hsize, hfont]
  · rw [hasEffect, hasEffect, hfor, hsize, hfont]

/-! ## Removing an ignored argument -/

/-- The last argument of its name stands behind another of that name that fits. -/
def Shadows (front : List Argument) (argument : Argument) (back : List Argument) : Prop :=
  (∀ later ∈ back, later.name ≠ argument.name) ∧
    ∃ before shadowed between, front = before ++ shadowed :: between ∧ shadowed.Fits ∧
      shadowed.name = argument.name ∧ ∀ other ∈ between, other.name ≠ argument.name

/-- Only an argument with one of the two names shadows another. -/
theorem Shadows.name_eq (h : Shadows front argument back) :
    argument.name = some "size".toList ∨ argument.name = some "font".toList := by
  obtain ⟨-, before, shadowed, between, -, hfits, hname, -⟩ := h
  rw [← hname]
  exact (Argument.fits_iff.mp hfits).imp (·.1) (·.1)

section Removal

variable {β : Type} {read : Argument → Option β}
  (hread : ∀ argument : Argument, argument.name = some name →
    (argument.Fits ↔ (read argument).isSome))

include hread

/-- Without the last of its name a rule asks for what that argument shadows. -/
theorem isSome_bind_named?_iff (hname : argument.name = some name)
    (hlast : ∀ later ∈ back, later.name ≠ some name) :
    (((SetRule.mk target (front ++ back)).named? name).bind read).isSome ↔
      Shadows front argument back := by
  have hback : (SetRule.mk target back).named? name = none := named?_eq_none_iff.mpr hlast
  rw [named?_append, hback, Option.none_or, Shadows, hname]
  constructor
  · intro hsome
    cases hfront : (SetRule.mk target front).named? name with
    | none =>
        rw [hfront] at hsome
        cases hsome
    | some shadowed =>
        rw [hfront] at hsome
        obtain ⟨hshadowed, before, between, hsplit, hbetween⟩ := named?_eq_some_iff.mp hfront
        have hfits : shadowed.Fits := (hread shadowed hshadowed).mpr hsome
        exact ⟨hlast, before, shadowed, between, hsplit, hfits, hshadowed, hbetween⟩
  · intro hshadows
    obtain ⟨-, before, shadowed, between, hsplit, hfits, hshadowed, hbetween⟩ := hshadows
    have hfront : (SetRule.mk target front).named? name = some shadowed :=
      named?_eq_some_iff.mpr ⟨hshadowed, before, between, hsplit, hbetween⟩
    rw [hfront]
    exact (hread shadowed hshadowed).mp hfits

/-- Without an ignored argument a rule asks for the same under a name, unless the argument
has that name and shadows another; then the rule asks for something that it did not ask for
before. -/
theorem bind_named?_removal (hignored : ¬ argument.Fits) :
    (¬ (argument.name = some name ∧ Shadows front argument back) →
      ((SetRule.mk target (front ++ back)).named? name).bind read =
        ((SetRule.mk target (front ++ argument :: back)).named? name).bind read) ∧
    (argument.name = some name ∧ Shadows front argument back →
      (((SetRule.mk target (front ++ back)).named? name).bind read).isSome ∧
        ((SetRule.mk target (front ++ argument :: back)).named? name).bind read = none) := by
  have hnone : argument.name = some name → read argument = none := by
    intro hname
    rw [hread argument hname, Option.not_isSome_iff_eq_none] at hignored
    exact hignored
  rw [bind_named?_ignored hnone]
  by_cases hlast : argument.name = some name ∧ ∀ later ∈ back, later.name ≠ some name
  · have hiff : (((SetRule.mk target (front ++ back)).named? name).bind read).isSome ↔
        Shadows front argument back := isSome_bind_named?_iff hread hlast.1 hlast.2
    rw [if_pos hlast]
    refine ⟨fun hshadows => ?_, fun hshadows => ⟨hiff.mpr hshadows.2, rfl⟩⟩
    rw [← Option.not_isSome_iff_eq_none, hiff]
    exact fun h => hshadows ⟨hlast.1, h⟩
  · rw [if_neg hlast]
    refine ⟨fun _ => rfl, fun hshadows => absurd ⟨hshadows.1, ?_⟩ hlast⟩
    rw [← hshadows.1]
    exact hshadows.2.1

end Removal

theorem size?_removal (target : Text) (front back : List Argument) (hignored : ¬ argument.Fits) :
    (¬ (argument.name = some "size".toList ∧ Shadows front argument back) →
      (SetRule.mk target (front ++ back)).size? =
        (SetRule.mk target (front ++ argument :: back)).size?) ∧
    (argument.name = some "size".toList ∧ Shadows front argument back →
      (SetRule.mk target (front ++ back)).size?.isSome ∧
        (SetRule.mk target (front ++ argument :: back)).size? = none) := by
  rw [size?_eq, size?_eq]
  refine bind_named?_removal (fun argument hname => ?_) hignored
  rw [Argument.fits_iff, hname]
  simp

theorem font?_removal (target : Text) (front back : List Argument) (hignored : ¬ argument.Fits) :
    (¬ (argument.name = some "font".toList ∧ Shadows front argument back) →
      (SetRule.mk target (front ++ back)).font? =
        (SetRule.mk target (front ++ argument :: back)).font?) ∧
    (argument.name = some "font".toList ∧ Shadows front argument back →
      (SetRule.mk target (front ++ back)).font?.isSome ∧
        (SetRule.mk target (front ++ argument :: back)).font? = none) := by
  rw [font?_eq, font?_eq]
  refine bind_named?_removal (fun argument hname => ?_) hignored
  rw [Argument.fits_iff, hname]
  simp

/-- Without an ignored argument a rule asks for the same exactly if the argument shadows
none. -/
theorem asks_same_iff (hignored : ¬ argument.Fits) :
    (SetRule.mk target (front ++ back)).size? =
          (SetRule.mk target (front ++ argument :: back)).size? ∧
        (SetRule.mk target (front ++ back)).font? =
          (SetRule.mk target (front ++ argument :: back)).font? ↔
      ¬ Shadows front argument back := by
  obtain ⟨hsameSize, hsize⟩ := size?_removal target front back hignored
  obtain ⟨hsameFont, hfont⟩ := font?_removal target front back hignored
  constructor
  · intro hsame hshadows
    cases hshadows.name_eq with
    | inl hname =>
        obtain ⟨hrest, hwhole⟩ := hsize ⟨hname, hshadows⟩
        rw [hsame.1, hwhole] at hrest
        cases hrest
    | inr hname =>
        obtain ⟨hrest, hwhole⟩ := hfont ⟨hname, hshadows⟩
        rw [hsame.2, hwhole] at hrest
        cases hrest
  · intro hshadows
    exact ⟨hsameSize fun h => hshadows h.2, hsameFont fun h => hshadows h.2⟩

/-- What an ignored argument shadows is set without it and left alone with it. -/
theorem effect_of_shadows (hignored : ¬ argument.Fits) (hshadows : Shadows front argument back)
    (htext : target = "text".toList) :
    (SetRule.mk target (front ++ back)).hasEffect = true ∧
      ∀ style, (SetRule.mk target (front ++ argument :: back)).apply style =
        let changed := (SetRule.mk target (front ++ back)).apply style
        if argument.name = some "size".toList then { changed with fontSize := style.fontSize }
        else { changed with fontFamily := style.fontFamily } := by
  obtain ⟨hsameSize, hsize⟩ := size?_removal target front back hignored
  obtain ⟨hsameFont, hfont⟩ := font?_removal target front back hignored
  have hdistinct : some "size".toList ≠ some "font".toList := by decide
  have hfor : ∀ arguments, (SetRule.mk target arguments).isForText = true := by
    intro arguments
    show (target == "text".toList) = true
    rw [htext]
    rfl
  cases hshadows.name_eq with
  | inl hname =>
      obtain ⟨hset, hunset⟩ := hsize ⟨hname, hshadows⟩
      have hother := hsameFont fun h => hdistinct (hname.symm.trans h.1)
      refine ⟨by rw [hasEffect, hfor, hset]; rfl, fun style => ?_⟩
      rw [if_pos hname, apply, apply, if_pos (hfor _), if_pos (hfor _), hunset, hother]
      rfl
  | inr hname =>
      obtain ⟨hset, hunset⟩ := hfont ⟨hname, hshadows⟩
      have hother := hsameSize fun h => hdistinct (h.1.symm.trans hname)
      have hne : argument.name ≠ some "size".toList := fun h => hdistinct (h.symm.trans hname)
      refine ⟨by rw [hasEffect, hfor, hset, Bool.or_true]; rfl, fun style => ?_⟩
      rw [if_neg hne, apply, apply, if_pos (hfor _), if_pos (hfor _), hunset, hother]
      rfl

/-- Take an argument that is ignored. A rule asks for the same size and the same font
without it exactly if the argument shadows none, and then the rule does the same to every
style. If the argument shadows another, that one is what the rule without it sets, and the
rule with it leaves alone. -/
theorem removal_of_ignored (hignored : ¬ argument.Fits) :
    let whole := SetRule.mk target (front ++ argument :: back)
    let rest := SetRule.mk target (front ++ back)
    (rest.size? = whole.size? ∧ rest.font? = whole.font? ↔ ¬ Shadows front argument back) ∧
      (¬ Shadows front argument back →
        (∀ style, rest.apply style = whole.apply style) ∧ rest.hasEffect = whole.hasEffect) ∧
      (Shadows front argument back → target = "text".toList →
        rest.hasEffect = true ∧
          ∀ style, whole.apply style =
            if argument.name = some "size".toList then
              { rest.apply style with fontSize := style.fontSize }
            else { rest.apply style with fontFamily := style.fontFamily }) := by
  intro whole rest
  refine ⟨asks_same_iff hignored, ?_, effect_of_shadows hignored⟩
  intro hshadows
  obtain ⟨hsize, hfont⟩ := (asks_same_iff hignored).mpr hshadows
  exact effect_congr rfl hsize hfont

/-- In `size: 9pt, fill: red, size: auto` the last argument shadows the first. -/
theorem removal_of_ignored_auto :
    let size : Argument := ⟨some "size".toList, [.length ⟨9.0, .point⟩]⟩
    let fill : Argument := ⟨some "fill".toList, [.ident "red".toList]⟩
    let auto : Argument := ⟨some "size".toList, [.ident "auto".toList]⟩
    ¬ auto.Fits ∧ Shadows [size, fill] auto [] ∧
      (SetRule.mk "text".toList [size, fill]).hasEffect = true ∧
      (SetRule.mk "text".toList [size, fill, auto]).apply .standard = .standard := by
  intro size fill auto
  have hignored : ¬ auto.Fits := by decide
  have hshadows : Shadows [size, fill] auto [] := by
    refine ⟨by simp, [], size, [fill], rfl, .size _, rfl, ?_⟩
    simp [fill, auto]
  obtain ⟨-, -, hshadow⟩ := @removal_of_ignored "text".toList [size, fill] [] auto hignored
  obtain ⟨heffect, happly⟩ := hshadow hshadows rfl
  exact ⟨hignored, hshadows, heffect, happly .standard⟩

/-- A size that is ignored is not skipped: the rule does not set the size that stands in
front of it, and does without it. -/
theorem removal_changes_size :
    let source : Text := " text(size: 9pt, size: auto)".toList
    ∃ rule ∈ (SetRule.parse source).toOption, ∃ ignored ∈ rule.arguments[1]?,
      rule.target = "text".toList ∧ ¬ ignored.Fits ∧
        rule.hasEffect = false ∧ rule.apply .standard = .standard ∧
        (SetRule.mk rule.target (rule.arguments.eraseIdx 1)).hasEffect = true ∧
        (SetRule.mk rule.target (rule.arguments.eraseIdx 1)).apply .standard =
          { Style.standard with fontSize := 9.0 } := by
  decide +kernel

end SetRule

end MarkupPreview
