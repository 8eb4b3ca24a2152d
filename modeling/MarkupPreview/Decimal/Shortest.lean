import MarkupPreview.Decimal.Nearest

/-!
# The shortest decimal of a double

A positive finite double is the nearest one to every rational of an interval
around it, and any decimal from that interval reads back as the same double.
The *shortest decimal* is the one with the fewest digits, and the nearest to
the double among those.

The decimals with a given last place form a grid. If a grid has a point in the
interval, one of the two points next to the double is in it, so it is enough to
look at those two, on the grids of finer and finer last places. Seventeen
digits always suffice.

## Main results

* `Basin.onGrid_mem` — what a grid answers lies in the interval.
-/

namespace MarkupPreview.Decimal

/-- A decimal: its digits as a number, and the place of the last one as a power
of ten. -/
structure Digits where
  coefficient : Nat
  place : Int
deriving DecidableEq, Repr

/-- Which of two equally near decimals is taken. -/
inductive Tie where
  | toEven
  | upward
deriving DecidableEq, Repr

/-! ## The interval that rounds to a double -/

/-- A positive double with the interval of rationals that round to it. -/
structure Basin where
  value : Rat
  low : Rat
  high : Rat
  /-- The ends of the interval belong to it. -/
  closed : Bool
deriving Repr

/-- The basin of the positive finite double with the given bit pattern, sign
left out. Below a power of two the spacing of the doubles is halved. -/
def Basin.ofBits (bits : Nat) : Basin :=
  let fraction := bits % (1 <<< 52)
  let field := bits / (1 <<< 52) % (1 <<< 11)
  let count : Nat := if field = 0 then fraction else fraction + (1 <<< 52)
  let unit : Rat := (2 : Rat) ^ ((max field 1 : Nat) - 1075 : Int)
  { value := count * unit
    low := (count - if fraction = 0 ∧ 1 < field then 1 / 4 else 1 / 2) * unit
    high := (count + 1 / 2) * unit
    closed := count % 2 = 0 }

/-- Whether a rational lies in the interval. -/
def Basin.contains (basin : Basin) (x : Rat) : Bool :=
  if basin.closed then basin.low ≤ x && x ≤ basin.high
  else basin.low < x && x < basin.high

/-! ## Decimal grids -/

/-- The point of the grid with the given last place that stands for the double,
if one does: of the two points around it the one in the interval, of two in the
interval the nearer, of two equally near the one that `tie` names. -/
def Basin.onGrid (basin : Basin) (tie : Tie) (place : Int) : Option Nat :=
  let unit : Rat := (10 : Rat) ^ place
  let below := (basin.value / unit).floor.toNat
  let above := below + 1
  let gapBelow := basin.value - below * unit
  let gapAbove := above * unit - basin.value
  match basin.contains (below * unit), basin.contains (above * unit) with
  | false, false => none
  | true, false => some below
  | false, true => some above
  | true, true =>
      if gapBelow < gapAbove then some below
      else if gapAbove < gapBelow then some above
      else match tie with
        | .toEven => some (if below % 2 = 0 then below else above)
        | .upward => some above

theorem Basin.onGrid_mem {basin : Basin} {tie : Tie} {place : Int} {n : Nat}
    (h : basin.onGrid tie place = some n) :
    basin.contains (n * (10 : Rat) ^ place) = true := by
  unfold Basin.onGrid at h
  simp only at h
  split at h
  · simp at h
  · rename_i hbelow _
    simp only [Option.some.injEq] at h
    exact h ▸ hbelow
  · rename_i _ habove
    simp only [Option.some.injEq] at h
    exact h ▸ (by simpa using habove)
  · rename_i hbelow habove
    split at h
    · simp only [Option.some.injEq] at h
      exact h ▸ hbelow
    · split at h
      · simp only [Option.some.injEq] at h
        exact h ▸ (by simpa using habove)
      · split at h
        · simp only [Option.some.injEq] at h
          split at h
          · exact h ▸ hbelow
          · exact h ▸ (by simpa using habove)
        · simp only [Option.some.injEq] at h
          exact h ▸ (by simpa using habove)

/-- A last place so coarse that no positive multiple of it is as small as the
double: its decimal exponent, estimated from the binary one, and two more. -/
def Basin.coarsest (basin : Basin) : Int :=
  binaryExponent basin.value * 30103 / 100000 + 2

/-- The shortest decimal of the double: the first hit on the grids from the
coarsest on. -/
def Basin.shortest (basin : Basin) (tie : Tie) : Digits :=
  let hit := (List.range 24).findSome? fun (step : Nat) =>
    let place : Int := basin.coarsest - step
    (basin.onGrid tie place).map fun coefficient => Digits.mk coefficient place
  hit.getD ⟨0, 0⟩

end MarkupPreview.Decimal
