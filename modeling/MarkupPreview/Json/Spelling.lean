import MarkupPreview.Decimal.Literal

/-!
# How JSON spells strings and numbers

A JSON text is first read as far as its grammar goes. Strings keep their escapes
of UTF-16 units and numbers keep their digits: only a reader that wants a value
asks whether the units pair up and whether the number is in range.

A number is scaled in double precision: its leading digits are collected in a
64-bit integer, and the double of that integer is multiplied or divided by a
power of ten. Digits that do not fit any more count only as zeros, and behind
the point not even so.

## Main results

* `stringUnits?_shorter`, `numeral?_shorter` — reading takes something off the
  front.
-/

namespace MarkupPreview.Json

/-! ## Strings -/

/-- A piece of a spelled string: a character, or a UTF-16 unit that was
escaped. -/
inductive StringUnit where
  | char (c : Char)
  | escaped (code : Nat)
deriving DecidableEq, Repr

/-- The value of a hexadecimal digit in either case. -/
def hexValue? (c : Char) : Option Nat :=
  if c.isDigit then some (c.toNat - 48)
  else if 'a' ≤ c ∧ c ≤ 'f' then some (c.toNat - 87)
  else if 'A' ≤ c ∧ c ≤ 'F' then some (c.toNat - 55)
  else none

/-- The value of four hexadecimal digits. -/
def hexValue4? (a b c d : Char) : Option Nat := do
  let a ← hexValue? a
  let b ← hexValue? b
  let c ← hexValue? c
  let d ← hexValue? d
  return ((a * 16 + b) * 16 + c) * 16 + d

/-- The character that a letter stands for after a backslash. -/
def simpleEscape? : Char → Option Char
  | '"' => some '"'
  | '\\' => some '\\'
  | '/' => some '/'
  | 'b' => some '\x08'
  | 'f' => some '\x0c'
  | 'n' => some '\n'
  | 'r' => some '\r'
  | 't' => some '\t'
  | _ => none

/-- A string from behind its opening quote, and what follows its closing one.
Control characters have to be escaped. -/
def stringUnits? : Text → Option (List StringUnit × Text)
  | [] => none
  | '"' :: rest => some ([], rest)
  | '\\' :: 'u' :: a :: b :: c :: d :: rest =>
      (hexValue4? a b c d).bind fun code =>
        (stringUnits? rest).map fun (units, after) => (.escaped code :: units, after)
  | '\\' :: letter :: rest =>
      (simpleEscape? letter).bind fun escape =>
        (stringUnits? rest).map fun (units, after) => (.char escape :: units, after)
  | c :: rest =>
      if c.toNat < 0x20 ∨ c = '\\' then none
      else (stringUnits? rest).map fun (units, after) => (.char c :: units, after)

theorem stringUnits?_shorter {text rest : Text} {units : List StringUnit}
    (h : stringUnits? text = some (units, rest)) : rest.length < text.length := by
  fun_induction stringUnits? text generalizing units with
  | case1 => simp at h
  | case2 tail =>
      simp only [Option.some.injEq, Prod.mk.injEq] at h
      simp [h.2]
  | case3 a b c d tail ih =>
      simp only [Option.bind_eq_some_iff, Option.map_eq_some_iff, Prod.mk.injEq] at h
      obtain ⟨_, _, ⟨_, after⟩, hfound, _, rfl⟩ := h
      have : after.length < tail.length := ih hfound
      simp only [List.length_cons]
      omega
  | case4 letter tail _ ih =>
      simp only [Option.bind_eq_some_iff, Option.map_eq_some_iff, Prod.mk.injEq] at h
      obtain ⟨_, _, ⟨_, after⟩, hfound, _, rfl⟩ := h
      have : after.length < tail.length := ih hfound
      simp only [List.length_cons]
      omega
  | case5 => simp at h
  | case6 c tail _ _ _ _ ih =>
      simp only [Option.map_eq_some_iff, Prod.mk.injEq] at h
      obtain ⟨⟨_, after⟩, hfound, _, rfl⟩ := h
      have : after.length < tail.length := ih hfound
      simp only [List.length_cons]
      omega

/-- The text of a spelled string, if its escaped units pair up. -/
def decode? : List StringUnit → Option Text
  | [] => some []
  | .char c :: rest => (decode? rest).map (c :: ·)
  | .escaped high :: .escaped low :: rest =>
      if 0xD800 ≤ high ∧ high < 0xDC00 then
        if 0xDC00 ≤ low ∧ low < 0xE000 then
          (decode? rest).map
            (Char.ofNat (0x10000 + (high - 0xD800) * 0x400 + (low - 0xDC00)) :: ·)
        else none
      else if 0xDC00 ≤ high ∧ high < 0xE000 then none
      else (decode? (.escaped low :: rest)).map (Char.ofNat high :: ·)
  | .escaped code :: rest =>
      if 0xD800 ≤ code ∧ code < 0xE000 then none
      else (decode? rest).map (Char.ofNat code :: ·)

/-! ## Numbers -/

/-- A spelled number. -/
structure Numeral where
  negative : Bool
  whole : Text
  fraction : Option Text
  /-- Whether the exponent is negative, and its digits. -/
  exponent : Option (Bool × Text)
deriving DecidableEq, Repr

/-- The digits behind a point, if there is one; there has to be a digit. -/
def fraction? : Text → Option (Option Text × Text)
  | '.' :: rest =>
      if (rest.takeWhile Char.isDigit).isEmpty then none
      else some (some (rest.takeWhile Char.isDigit), rest.dropWhile Char.isDigit)
  | text => some (none, text)

/-- The sign of an exponent. -/
def exponentSign : Text → Bool × Text
  | '-' :: rest => (true, rest)
  | '+' :: rest => (false, rest)
  | text => (false, text)

/-- The exponent, if there is one; there has to be a digit. -/
def exponent? : Text → Option (Option (Bool × Text) × Text)
  | [] => some (none, [])
  | c :: rest =>
      if c = 'e' ∨ c = 'E' then
        let (negative, digits) := exponentSign rest
        if (digits.takeWhile Char.isDigit).isEmpty then none
        else some (some (negative, digits.takeWhile Char.isDigit), digits.dropWhile Char.isDigit)
      else some (none, c :: rest)

/-- A number from behind its sign, and what follows it. A zero at the front
stands alone. -/
def unsigned? (negative : Bool) (text : Text) : Option (Numeral × Text) := do
  let whole := text.takeWhile Char.isDigit
  guard (!whole.isEmpty && (whole.length = 1 || whole.head? != some '0'))
  let (fraction, rest) ← fraction? (text.dropWhile Char.isDigit)
  let (exponent, rest) ← exponent? rest
  return (⟨negative, whole, fraction, exponent⟩, rest)

/-- The number at the front of a text. -/
def numeral? : Text → Option (Numeral × Text)
  | '-' :: rest => unsigned? true rest
  | text => unsigned? false text

private theorem length_dropWhile_le (p : Char → Bool) (text : Text) :
    (text.dropWhile p).length ≤ text.length := by
  have := congrArg List.length (List.takeWhile_append_dropWhile (p := p) (l := text))
  rw [List.length_append] at this
  omega

theorem fraction?_length_le {text rest : Text} {fraction : Option Text}
    (h : fraction? text = some (fraction, rest)) : rest.length ≤ text.length := by
  unfold fraction? at h
  split at h
  · rename_i tail
    split at h
    · simp at h
    · simp only [Option.some.injEq, Prod.mk.injEq] at h
      have := length_dropWhile_le Char.isDigit tail
      rw [← h.2, List.length_cons]
      omega
  · simp only [Option.some.injEq, Prod.mk.injEq] at h
    simp [h.2]

theorem exponent?_length_le {text rest : Text} {exponent : Option (Bool × Text)}
    (h : exponent? text = some (exponent, rest)) : rest.length ≤ text.length := by
  unfold exponent? at h
  split at h
  · simp only [Option.some.injEq, Prod.mk.injEq] at h
    simp [← h.2]
  · rename_i c tail
    split at h
    · have hsign : (exponentSign tail).2.length ≤ tail.length := by
        unfold exponentSign
        split <;> simp
      simp only at h
      split at h
      · simp at h
      · simp only [Option.some.injEq, Prod.mk.injEq] at h
        have := length_dropWhile_le Char.isDigit (exponentSign tail).2
        rw [← h.2, List.length_cons]
        omega
    · simp only [Option.some.injEq, Prod.mk.injEq] at h
      simp [← h.2]

theorem unsigned?_shorter {negative : Bool} {text rest : Text} {numeral : Numeral}
    (h : unsigned? negative text = some (numeral, rest)) : rest.length < text.length := by
  obtain ⟨_, hguard, h⟩ := Option.bind_eq_some_iff.mp h
  obtain ⟨⟨fraction, afterFraction⟩, hfraction, h⟩ := Option.bind_eq_some_iff.mp h
  obtain ⟨⟨exponent, afterExponent⟩, hexponent, h⟩ := Option.bind_eq_some_iff.mp h
  have hrest : afterExponent = rest := by simpa using (Prod.mk.inj (Option.some.inj h)).2
  have hwhole : (text.takeWhile Char.isDigit) ≠ [] := by
    intro hnil
    rw [hnil] at hguard
    cases hguard
  have hpos := List.length_pos_iff.2 hwhole
  have hsplit :=
    congrArg List.length (List.takeWhile_append_dropWhile (p := Char.isDigit) (l := text))
  have hafter : afterFraction.length ≤ (text.dropWhile Char.isDigit).length :=
    fraction?_length_le hfraction
  have hlast : afterExponent.length ≤ afterFraction.length := exponent?_length_le hexponent
  rw [List.length_append] at hsplit
  rw [← hrest]
  omega

theorem numeral?_shorter {text rest : Text} {numeral : Numeral}
    (h : numeral? text = some (numeral, rest)) : rest.length < text.length := by
  unfold numeral? at h
  split at h
  · have := unsigned?_shorter h
    rw [List.length_cons]
    omega
  · exact unsigned?_shorter h

/-! ## The value of a number -/

/-- The greatest 64-bit integer. -/
def word64Max : Nat := (1 <<< 64) - 1

/-- Collects digits while the number stays within 64 bits: the number, and the
digits that do not fit. -/
def collect (value : Nat) : Text → Nat × Text
  | [] => (value, [])
  | c :: rest =>
      let next := value * 10 + (c.toNat - 48)
      if next ≤ word64Max then collect next rest else (value, c :: rest)

/-- A double times a power of ten, unless it is out of range. Exponents beyond
the range of doubles are taken in steps. -/
def scale (value : Float) (exponent : Int) : Option Float :=
  if exponent.natAbs ≤ 308 then
    if 0 ≤ exponent then
      let scaled := value * Decimal.powerOfTen exponent.natAbs
      if scaled.isInf then none else some scaled
    else some (value / Decimal.powerOfTen exponent.natAbs)
  else if value == 0.0 then some value
  else if 0 ≤ exponent then none
  else scale (value / Decimal.powerOfTen 308) (exponent + 308)
termination_by exponent.natAbs
decreasing_by omega

namespace Numeral

/-- The exponent that is written out. -/
def writtenExponent (numeral : Numeral) : Int :=
  match numeral.exponent with
  | some (true, digits) => -(Decimal.digitsValue digits : Int)
  | some (false, digits) => Decimal.digitsValue digits
  | none => 0

/-- The double that a number spells, unless it is out of range. -/
def toFloat? (numeral : Numeral) : Option Float :=
  let (leading, dropped) := collect 0 numeral.whole
  let fraction := numeral.fraction.getD []
  let (significand, ignored) := collect leading fraction
  let kept : Int := fraction.length - ignored.length
  let exponent := dropped.length - kept + numeral.writtenExponent
  (scale (UInt64.ofNat significand).toFloat exponent).map fun size =>
    if numeral.negative then -size else size

/-- The 64-bit integer that a number spells: digits alone, without a sign. -/
def toWord64? (numeral : Numeral) : Option Nat :=
  if numeral.negative || numeral.fraction.isSome || numeral.exponent.isSome then none
  else
    let value := Decimal.digitsValue numeral.whole
    if value ≤ word64Max then some value else none

end Numeral

end MarkupPreview.Json
