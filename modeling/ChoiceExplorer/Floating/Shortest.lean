import ChoiceExplorer.Floating.Format

/-!
# Shortest decimal digits

The decimal text of a floating-point number has the fewest digits that still
read back as that number.  Every real number strictly between the midpoints to
both neighbours reads back; the midpoints themselves do exactly when the
mantissa is even.  On each decimal grid, from coarse to fine, only the two grid
points around the number can lie in that interval, so they are all that is
tried, and of two hits the nearer is taken.
-/

namespace ChoiceExplorer.Floating

/-- Which of two equally near decimals is taken. -/
inductive Tie where
  | up
  | even
  deriving DecidableEq

/-- The decimal number `digits * 10 ^ exponent`. -/
structure Decimal where
  digits : Nat
  exponent : Int
  deriving DecidableEq

namespace Decimal

/-- How many decimal digits write a natural number, none for zero. -/
def length (number : Nat) : Nat :=
  if number = 0 then 0 else (Nat.toDigits 10 number).length

def leadingExponent (num den : Nat) : Int :=
  if den ≤ num then (length (num / den) : Int) - 1
  else -(length ((den - 1) / num) : Int)

end Decimal

/--
The reals that round to `mantissa * 2 ^ exponent`, measured in quarters of
its last place: from `4 * mantissa - below` to `4 * mantissa + 2`.
-/
structure Rounding where
  mantissa : Nat
  exponent : Int
  below : Nat
  deriving DecidableEq

namespace Rounding

/--
The interval of a positive finite number of a format.  Below a power of two
the neighbours are twice as close, except at the least exponent.
-/
def ofFinite (format : Format) (mantissa : Nat) (exponent : Int) : Rounding :=
  let narrow := mantissa = Nat.pow 2 format.fractionBits ∧ format.leastExponent < exponent
  ⟨mantissa, exponent, if narrow then 1 else 2⟩

/-- The factors that bring quarters of a last place and steps of a decimal grid to one unit. -/
def scales (interval : Rounding) (grid : Int) : Nat × Nat :=
  let quarter := interval.exponent - 2
  (Nat.pow 2 quarter.toNat * Nat.pow 10 (-grid).toNat,
    Nat.pow 10 grid.toNat * Nat.pow 2 (-quarter).toNat)

/-- Whether the decimal `point * 10 ^ grid` reads back as the number. -/
def holds (interval : Rounding) (grid : Int) (point : Nat) : Bool :=
  let (quarter, step) := interval.scales grid
  let low := (4 * interval.mantissa - interval.below) * quarter
  let high := (4 * interval.mantissa + 2) * quarter
  if interval.mantissa % 2 = 0 then low ≤ point * step && point * step ≤ high
  else low < point * step && point * step < high

/-- The grid point nearest to the number among the two around it that read back, if any does. -/
def hit (interval : Rounding) (tie : Tie) (grid : Int) : Option Nat :=
  let (quarter, step) := interval.scales grid
  let value := 4 * interval.mantissa * quarter
  let low := value / step
  match interval.holds grid low, interval.holds grid (low + 1) with
  | false, false => none
  | true, false => some low
  | false, true => some (low + 1)
  | true, true =>
      let rest := 2 * (value % step)
      if rest < step then some low
      else if step < rest then some (low + 1)
      else
        match tie with
        | .up => some (low + 1)
        | .even => some (low + low % 2)

/-- Try the grids with `tries` many numbers of digits, the finest last. -/
def search (interval : Rounding) (tie : Tie) (leading : Int) : (tries count : Nat) → Decimal
  | 0, count => ⟨0, leading - count⟩
  | tries + 1, count =>
      let grid := leading - count
      match interval.hit tie grid with
      | some point => ⟨point, grid⟩
      | none => interval.search tie leading tries (count + 1)

/-- The shortest decimal that reads back; seventeen digits always suffice for a double. -/
def shortest (interval : Rounding) (tie : Tie) : Decimal :=
  let num := interval.mantissa * Nat.pow 2 interval.exponent.toNat
  let den := Nat.pow 2 (-interval.exponent).toNat
  interval.search tie (Decimal.leadingExponent num den) 17 0

end Rounding

end ChoiceExplorer.Floating
