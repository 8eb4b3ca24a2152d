import MarkupPreview.Json.Basic
import MarkupPreview.Json.Document
import MarkupPreview.Proofs.RuleLanguage

/-!
# Numbers in JSON texts

A number of a JSON text is cut off greedily: digits, a fraction and an exponent as long as
there are any. So what is written as a number is read as that number only if it is a
numeral of the grammar to begin with, without a zero in front of its digits, and if what
comes behind it does not go on with it.

Integers are numerals by their digits. For doubles it depends on the shortest decimal,
which is put into one of two notations: there is no zero in front of its coefficient unless
the coefficient is zero, and then nothing may be added to it. It never is, since zero does
not round to a double that is above zero.

## Main results

* `Numeral.numeral?_spelling` — a numeral is read back from what is written.
* `Numeral.spelling_ofInt` — integers are written as numerals.
* `Numeral.exists_numeral_or_null` — so are doubles, unless they are not finite.
-/

namespace MarkupPreview

/-! ## Digits -/

namespace Decimal

theorem isDigits_natText (n : Nat) : IsDigits (natText n) :=
  ⟨Nat.toDigits_ne_nil, fun _ hc => Nat.isDigit_of_mem_toDigits (by decide) (by decide) hc⟩

/-- Only the digits of zero start with a zero. -/
theorem head?_natText {n : Nat} (h : 0 < n) : (natText n).head? ≠ some '0' := by
  induction n using Nat.strongRecOn with
  | _ n ih =>
      unfold natText at ih ⊢
      by_cases hsmall : n < 10
      · rw [Nat.toDigits_of_lt_base hsmall]
        simp
        omega
      · rw [Nat.toDigits_of_base_le (by decide) (by omega),
          List.head?_append_of_ne_nil _ Nat.toDigits_ne_nil]
        exact ih (n / 10) (by omega) (by omega)

theorem digitsValue_natText (n : Nat) : digitsValue (natText n) = n := by
  have h := Nat.ofDigitChars_toDigits (b := 10) (n := n) (by decide) (by decide)
  rw [Nat.ofDigitChars_eq_foldl] at h
  simp only [Nat.mul_comm 10] at h
  exact h

/-! ## The shortest decimal -/

/-- Below a double above zero the interval that rounds to it ends above zero. -/
theorem Basin.low_pos {bits : Nat} (hpos : 0 < bits) (hbits : bits < 1 <<< 63) :
    0 < (Basin.ofBits bits).low := by
  unfold Basin.ofBits
  simp only
  generalize hcount : (if bits / (1 <<< 52) % (1 <<< 11) = 0 then bits % (1 <<< 52)
    else bits % (1 <<< 52) + (1 <<< 52)) = count
  have hone : 1 ≤ count := by
    simp only [Nat.one_shiftLeft] at hbits hcount
    rw [← hcount]
    split
    · rename_i hfield
      omega
    · omega
  have hcast : (1 : Rat) ≤ count := by exact_mod_cast hone
  apply Rat.mul_pos
  · split <;> grind
  · exact Rat.zpow_pos (by decide)

theorem Basin.not_contains_zero {basin : Basin} (h : 0 < basin.low) :
    basin.contains 0 = false := by
  unfold Basin.contains
  split <;> simp <;> grind

/-- In the shortest decimal of a double above zero only a decimal that was not found has a
zero for its coefficient. -/
theorem Basin.place_shortest {bits : Nat} (hpos : 0 < bits) (hbits : bits < 1 <<< 63) (tie : Tie)
    (h : ((Basin.ofBits bits).shortest tie).coefficient = 0) :
    ((Basin.ofBits bits).shortest tie).place = 0 := by
  have hoff := Basin.not_contains_zero (Basin.low_pos hpos hbits)
  unfold Basin.shortest at h ⊢
  simp only at h ⊢
  generalize hhit : List.findSome? _ _ = hit at h ⊢
  cases hit with
  | none => rfl
  | some d =>
      obtain ⟨step, -, hstep⟩ := List.exists_of_findSome?_eq_some hhit
      obtain ⟨coefficient, hgrid, rfl⟩ := Option.map_eq_some_iff.mp hstep
      obtain rfl : coefficient = 0 := h
      have hmem := Basin.onGrid_mem hgrid
      have hzero : ((0 : Nat) : Rat) = 0 := rfl
      rw [hzero, Rat.zero_mul, hoff] at hmem
      cases hmem

end Decimal

/-! ## Numerals -/

namespace Json

open Decimal

/-- The characters that a number goes on with. -/
def goesOn (c : Char) : Bool := c.isDigit || c == '.' || c == 'e' || c == 'E'

namespace Numeral

/-- A point and the digits behind it. -/
def fractionText : Option Text → Text
  | none => []
  | some digits => '.' :: digits

/-- The exponent with its letter and its sign. -/
def exponentText : Option (Bool × Text) → Text
  | none => []
  | some (negative, digits) => 'e' :: (if negative then '-' else '+') :: digits

/-- A numeral as it is written. -/
def spelling (numeral : Numeral) : Text :=
  (if numeral.negative then ['-'] else []) ++
    (numeral.whole ++ (fractionText numeral.fraction ++ exponentText numeral.exponent))

/-- A numeral of the grammar: there are digits in each of its parts, and none in front of
others is a zero. -/
structure IsProper (numeral : Numeral) : Prop where
  whole : IsDigits numeral.whole
  lead : numeral.whole.length = 1 ∨ numeral.whole.head? ≠ some '0'
  fraction : ∀ digits ∈ numeral.fraction, IsDigits digits
  exponent : ∀ part ∈ numeral.exponent, IsDigits part.2

variable {numeral : Numeral} {rest : Text}

theorem fraction?_fractionText {fraction : Option Text}
    (h : ∀ digits ∈ fraction, IsDigits digits) (hdigit : rest.Stops Char.isDigit)
    (hpoint : rest.Stops (· == '.')) :
    fraction? (fractionText fraction ++ rest) = some (fraction, rest) := by
  cases fraction with
  | none =>
      unfold fraction?
      split
      · rename_i tail htail
        obtain rfl : rest = '.' :: tail := htail
        exact absurd (Text.stops_cons.mp hpoint) (by decide)
      · rfl
  | some digits =>
      obtain ⟨hne, hdigits⟩ := h digits rfl
      have htake := Text.takeWhile_run hdigits hdigit
      have hdrop := Text.dropWhile_run hdigits hdigit
      simp [fractionText, fraction?, htake, hdrop, hne]

theorem exponent?_exponentText {exponent : Option (Bool × Text)}
    (h : ∀ part ∈ exponent, IsDigits part.2) (hdigit : rest.Stops Char.isDigit)
    (hletter : rest.Stops fun c => c == 'e' || c == 'E') :
    exponent? (exponentText exponent ++ rest) = some (exponent, rest) := by
  cases exponent with
  | none =>
      cases rest with
      | nil => rfl
      | cons c rest =>
          have hc := Text.stops_cons.mp hletter
          simp only [Bool.or_eq_false_iff, beq_eq_false_iff_ne] at hc
          simp [exponentText, exponent?, hc.1, hc.2]
  | some part =>
      obtain ⟨negative, digits⟩ := part
      obtain ⟨hne, hdigits⟩ := h _ rfl
      have htake := Text.takeWhile_run hdigits hdigit
      have hdrop := Text.dropWhile_run hdigits hdigit
      cases negative <;> simp [exponentText, exponent?, exponentSign, htake, hdrop, hne]

theorem stops_exponentText {p : Char → Bool} {exponent : Option (Bool × Text)}
    (hletter : p 'e' = false) (hrest : rest.Stops p) :
    Text.Stops p (exponentText exponent ++ rest) := by
  cases exponent with
  | none => exact hrest
  | some part => exact Text.stops_cons.mpr hletter

theorem stops_fractionText {p : Char → Bool} {fraction : Option Text} (hpoint : p '.' = false)
    (hrest : rest.Stops p) : Text.Stops p (fractionText fraction ++ rest) := by
  cases fraction with
  | none => exact hrest
  | some digits => exact Text.stops_cons.mpr hpoint

/-- Nothing that a number goes on with is a character of a narrower class. -/
theorem stops_of_goesOn {p : Char → Bool} (h : rest.Stops goesOn)
    (hp : ∀ c, p c = true → goesOn c = true) : rest.Stops p := by
  intro c hc
  have hgoes := h c hc
  cases hclass : p c with
  | false => rfl
  | true => rw [hp c hclass] at hgoes; cases hgoes

theorem unsigned?_spelling (h : numeral.IsProper) (hrest : rest.Stops goesOn) :
    unsigned? numeral.negative (numeral.whole ++
      (fractionText numeral.fraction ++ (exponentText numeral.exponent ++ rest))) =
      some (numeral, rest) := by
  have hdigit : rest.Stops Char.isDigit := stops_of_goesOn hrest (by simp +contextual [goesOn])
  have hpoint : rest.Stops (· == '.') := stops_of_goesOn hrest (by simp +contextual [goesOn])
  have hletter : rest.Stops fun c => c == 'e' || c == 'E' :=
    stops_of_goesOn hrest (by simp +contextual [goesOn, or_imp])
  have hbehind : Text.Stops Char.isDigit (exponentText numeral.exponent ++ rest) :=
    stops_exponentText (by decide) hdigit
  have hafter : Text.Stops Char.isDigit
      (fractionText numeral.fraction ++ (exponentText numeral.exponent ++ rest)) :=
    stops_fractionText (by decide) hbehind
  have hfraction := fraction?_fractionText h.fraction hbehind
    (stops_exponentText (by decide) hpoint)
  have hexponent := exponent?_exponentText h.exponent hdigit hletter
  have hlead : numeral.whole.length = 1 ∨ numeral.whole.head? ≠ some '0' := h.lead
  unfold unsigned?
  rw [Text.takeWhile_run h.whole.2 hafter, Text.dropWhile_run h.whole.2 hafter, hfraction]
  simp [hexponent, h.whole.1, hlead, guard]

/-- A numeral of the grammar is read back from what is written, if nothing behind it goes on
with it. -/
theorem numeral?_spelling (h : numeral.IsProper) (hrest : rest.Stops goesOn) :
    numeral? (numeral.spelling ++ rest) = some (numeral, rest) := by
  have hread := unsigned?_spelling h hrest
  unfold spelling
  rw [List.append_assoc, List.append_assoc, List.append_assoc]
  cases hsign : numeral.negative with
  | true =>
      rw [hsign] at hread
      exact hread
  | false =>
      rw [hsign] at hread
      rw [if_neg (by decide), List.nil_append]
      unfold numeral?
      split
      · rename_i tail htail
        -- The minus would be the first of the digits.
        obtain ⟨c, digits, hwhole⟩ := List.exists_cons_of_ne_nil h.whole.1
        have hc := h.whole.2 c (hwhole ▸ List.mem_cons_self)
        rw [hwhole] at htail
        obtain rfl : c = '-' := (List.cons.inj htail).1
        cases hc
      · exact hread

/-! ## Integers -/

/-- Digits that are written have no zero in front of others. -/
theorem lead_natText (n : Nat) : (natText n).length = 1 ∨ (natText n).head? ≠ some '0' := by
  rcases Nat.eq_zero_or_pos n with rfl | hpos
  · exact .inl rfl
  · exact .inr (head?_natText hpos)

/-- The numeral of an integer. -/
def ofInt (n : Int) : Numeral := ⟨n < 0, natText n.natAbs, none, none⟩

theorem isProper_ofInt (n : Int) : (ofInt n).IsProper :=
  ⟨isDigits_natText _, lead_natText _, nofun, nofun⟩

theorem spelling_ofInt (n : Int) : (ofInt n).spelling = intText n := by
  unfold intText
  by_cases hsign : n < 0 <;> simp [ofInt, spelling, fractionText, exponentText, hsign]

/-! ## Doubles -/

/-- The text of a numeral without a sign. -/
def IsUnsigned (text : Text) : Prop :=
  ∃ numeral : Numeral, numeral.IsProper ∧ numeral.negative = false ∧ numeral.spelling = text

theorem isUnsigned_point {whole fraction : Text} (hwhole : IsDigits whole)
    (hlead : whole.length = 1 ∨ whole.head? ≠ some '0') (hfraction : IsDigits fraction) :
    IsUnsigned (whole ++ '.' :: fraction) := by
  refine ⟨⟨false, whole, some fraction, none⟩, ⟨hwhole, hlead, ?_, nofun⟩, rfl, ?_⟩
  · intro digits hdigits
    exact Option.some.inj hdigits ▸ hfraction
  · simp [spelling, fractionText, exponentText]

theorem isDigit_of_mem_replicate {n : Nat} {c : Char} (h : c ∈ List.replicate n '0') :
    c.isDigit = true := by
  rw [List.eq_of_mem_replicate h]
  rfl

/-- In positional notation zeros are added behind the coefficient, or the point is put into
it, or zeros are added in front of it behind a zero and the point. -/
theorem isUnsigned_positionalText {d : Digits} (h : d.coefficient = 0 → d.place = 0) :
    IsUnsigned (positionalText true d) := by
  obtain ⟨hne, hdigits⟩ := isDigits_natText d.coefficient
  unfold positionalText
  simp only
  split
  · rename_i hplace
    refine isUnsigned_point ⟨by simp [hne], ?_⟩ ?_ (by simp [IsDigits])
    · intro c hc
      exact (List.mem_append.mp hc).elim (hdigits c) isDigit_of_mem_replicate
    · rcases Nat.eq_zero_or_pos d.coefficient with hzero | hpos
      · left
        simp [h hzero, hzero, natText]
      · right
        rw [List.head?_append_of_ne_nil _ hne]
        exact head?_natText hpos
  · rename_i hplace
    have hpos : 0 < d.coefficient := Nat.pos_of_ne_zero fun hzero => by
      rw [h hzero] at hplace
      exact hplace (Int.le_refl 0)
    split
    · rename_i hplaces
      have htake : (natText d.coefficient).take ((natText d.coefficient).length - d.place.natAbs)
          ≠ [] := by
        simp [hne]
        omega
      refine isUnsigned_point ⟨htake, fun c hc => hdigits c (List.mem_of_mem_take hc)⟩ (.inr ?_)
        ⟨?_, fun c hc => hdigits c (List.mem_of_mem_drop hc)⟩
      · rw [List.head?_take, if_neg (by omega)]
        exact head?_natText hpos
      · simp
        omega
    · have hzero : IsDigits ['0'] := by simp [IsDigits]
      refine isUnsigned_point hzero (.inl rfl) ⟨by simp [hne], ?_⟩
      intro c hc
      exact (List.mem_append.mp hc).elim isDigit_of_mem_replicate (hdigits c)

/-- With an exponent the point is put behind the first digit, if there are others. -/
theorem isUnsigned_scientificText (d : Digits) : IsUnsigned (scientificText d) := by
  obtain ⟨hne, hdigits⟩ := isDigits_natText d.coefficient
  obtain ⟨c, tail, hcoefficient⟩ := List.exists_cons_of_ne_nil hne
  rw [hcoefficient] at hdigits
  obtain ⟨hc, htail⟩ := List.forall_mem_cons.mp hdigits
  unfold scientificText
  simp only [hcoefficient]
  generalize d.place + _ - 1 = exponent
  refine ⟨⟨false, [c], if tail = [] then none else some tail,
    some (exponent < 0, natText exponent.natAbs)⟩, ⟨?_, .inl rfl, ?_, ?_⟩, rfl, ?_⟩
  · simpa [IsDigits] using hc
  · intro digits hfraction
    by_cases hnone : tail = []
    · simp [hnone] at hfraction
    · obtain rfl : tail = digits := by simpa [hnone] using hfraction
      exact ⟨hnone, htail⟩
  · intro part hpart
    rw [← Option.some.inj hpart]
    exact isDigits_natText _
  · by_cases hnone : tail = [] <;> simp [spelling, fractionText, exponentText, hnone]

theorem isUnsigned_writeSize {bits : Nat} (hpos : 0 < bits) (hbits : bits < 1 <<< 63) :
    IsUnsigned (numberForm.writeSize bits) := by
  have hpositional := isUnsigned_positionalText (Basin.place_shortest hpos hbits .toEven)
  show IsUnsigned (if _ then _ else _)
  split
  · exact hpositional
  · exact isUnsigned_scientificText _

theorem IsUnsigned.negate {text : Text} (h : IsUnsigned text) :
    ∃ numeral : Numeral, numeral.IsProper ∧ numeral.spelling = '-' :: text := by
  obtain ⟨numeral, hproper, hsign, rfl⟩ := h
  refine ⟨{ numeral with negative := true }, ⟨hproper.1, hproper.2, hproper.3, hproper.4⟩, ?_⟩
  simp [spelling, hsign]

/-- A double is written as a numeral of the grammar, unless it is not finite: then it is
written as null. -/
theorem exists_numeral_or_null (x : Float) :
    (∃ numeral : Numeral, numeral.IsProper ∧ numeral.spelling = numberForm.write x) ∨
      numberForm.write x = ['n', 'u', 'l', 'l'] := by
  unfold Form.write
  simp only
  have hsize : x.toBits.toNat % (1 <<< 63) < 1 <<< 63 := Nat.mod_lt _ (by decide)
  generalize x.toBits.toNat % (1 <<< 63) = size at hsize ⊢
  split
  · exact .inr rfl
  · split
    · exact .inr (by split <;> rfl)
    · left
      have hunsigned : IsUnsigned (if size = 0 then positionalText numberForm.keepsPoint ⟨0, 0⟩
          else numberForm.writeSize size) := by
        split
        · exact isUnsigned_positionalText fun _ => rfl
        · exact isUnsigned_writeSize (by omega) hsize
      split
      · exact hunsigned.negate
      · obtain ⟨numeral, hproper, -, hspelling⟩ := hunsigned
        exact ⟨numeral, hproper, hspelling⟩

end Numeral

end Json

end MarkupPreview
