import ChoiceExplorer.Floating.Number
import ChoiceExplorer.Text.Decimal

/-!
# Numbers of JSON text

A number literal is read in two steps.  First its parts are taken from the
text, then a value is computed.  Whole numbers that fit 64 bits stay whole;
everything else becomes a double: a significand of at most 64 bits, scaled by
one power of ten, each step rounded.
-/

namespace ChoiceExplorer.Json

open Floating (Double Single Layout)

structure Literal where
  negative : Bool
  whole : List Nat
  fraction : List Nat
  exponent : Option Int
  deriving DecidableEq

inductive Number where
  | integer (value : Int)
  | double (value : Double)
  deriving DecidableEq

/-- Doubles are positional for leading exponents from -5 to 15; there are no special values. -/
def doubleLayout : Layout where
  leastPlain := -5
  mostPlain := 15
  positive := "+"
  tie := .even
  notANumber := "null"
  infinite := "null"
  negativeInfinite := "null"

/-- Singles are positional for leading exponents from -6 to 12. -/
def singleLayout : Layout :=
  { doubleLayout with leastPlain := -6, mostPlain := 12 }

def Number.text : Number → String
  | .integer value => toString value
  | .double value => value.text doubleLayout

namespace Literal

def natural (digits : List Nat) : Nat := digits.foldl (fun sum digit => 10 * sum + digit) 0

/-- Read digits into a significand as long as it fits 64 bits; the rest is left over. -/
def significand : Nat → List Nat → Nat × List Nat
  | sum, [] => (sum, [])
  | sum, digit :: rest =>
      if 10 * sum + digit < UInt64.size then significand (10 * sum + digit) rest
      else (sum, digit :: rest)

structure Scaled where
  significand : Nat
  exponent : Int
  deriving DecidableEq

/--
The digits of a literal as a significand.  Whole digits that do not fit are
counted in the exponent, and then a fraction still adds its digits as far as
they fit; fraction digits that do not fit are dropped.
-/
def digits (literal : Literal) : Scaled :=
  let (whole, excess) := significand 0 literal.whole
  let (sum, dropped) := significand whole literal.fraction
  ⟨sum, (excess.length : Int) - (literal.fraction.length - dropped.length : Nat)⟩

def product (first second : Nat × Nat) : Double :=
  Double.ofQuotient (first.1 * second.1) (first.2 * second.2)

/-- The power of ten nearest to the exact one. -/
def power (exponent : Nat) : Double := Double.ofQuotient (Nat.pow 10 exponent) 1

def quotient (value : Double) : Nat × Nat :=
  match value.datum with
  | .finite _ mantissa exponent =>
      (mantissa * Nat.pow 2 exponent.toNat, Nat.pow 2 (-exponent).toNat)
  | _ => (0, 1)

def raise (value : Double) (exponent : Nat) : Double :=
  product (quotient value) (quotient (power exponent))

def lower (value : Double) (exponent : Nat) : Double :=
  let (num, den) := quotient (power exponent)
  product (quotient value) (den, num)

def greatestPower : Nat := 308

def Scaled.magnitude? (scaled : Scaled) : Option Double :=
  let value := Double.ofQuotient scaled.significand 1
  let size := scaled.exponent.natAbs
  if 0 ≤ scaled.exponent then
    if size ≤ greatestPower then
      let raised := raise value size
      if raised.isSpecial then none else some raised
    else if scaled.significand = 0 then some Double.zero
    else none
  else if size ≤ greatestPower then some (lower value size)
  else if size ≤ 2 * greatestPower then
    some (lower (lower value greatestPower) (size - greatestPower))
  else some Double.zero

def double? (literal : Literal) : Option Double :=
  let scaled := literal.digits
  let exponent := scaled.exponent + literal.exponent.getD 0
  let magnitude := Scaled.magnitude? ⟨scaled.significand, exponent⟩
  if literal.negative then magnitude.map Double.neg else magnitude

/-- The whole number of a literal without fraction and exponent, if it fits 64 bits. -/
def integer? (literal : Literal) : Option Int :=
  if literal.fraction.isEmpty && literal.exponent.isNone then
    let magnitude := natural literal.whole
    if literal.negative then
      if magnitude ≠ 0 ∧ magnitude ≤ Nat.pow 2 63 then some (-magnitude) else none
    else if magnitude < UInt64.size then some magnitude
    else none
  else none

def number? (literal : Literal) : Option Number :=
  match literal.integer? with
  | some value => some (.integer value)
  | none => literal.double?.map .double

end Literal

end ChoiceExplorer.Json
