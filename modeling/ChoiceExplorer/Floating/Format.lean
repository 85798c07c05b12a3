/-!
# Binary floating-point formats

A format fixes how many bits hold the exponent and the fraction.  A bit
pattern stands for an exact dyadic number, an infinity or not-a-number, and a
positive fraction of naturals is brought into a format by rounding to the
nearest representable number, ties to the even one.
-/

namespace ChoiceExplorer.Floating

structure Format where
  fractionBits : Nat
  exponentBits : Nat
  deriving DecidableEq

namespace Format

def binary64 : Format := ⟨52, 11⟩

def binary32 : Format := ⟨23, 8⟩

/-- The first bit pattern that is no finite magnitude: it denotes infinity. -/
def infinity (format : Format) : Nat :=
  (Nat.pow 2 format.exponentBits - 1) * Nat.pow 2 format.fractionBits

def signBit (format : Format) : Nat :=
  Nat.pow 2 (format.exponentBits + format.fractionBits)

/-- The exponent of the least significant place of a subnormal number. -/
def leastExponent (format : Format) : Int :=
  2 - Int.pow 2 (format.exponentBits - 1) - format.fractionBits

end Format

/-- What a bit pattern stands for: a finite datum is `mantissa * 2 ^ exponent`. -/
inductive Datum where
  | notANumber
  | infinite (negative : Bool)
  | finite (negative : Bool) (mantissa : Nat) (exponent : Int)
  deriving DecidableEq

namespace Format

def decode (format : Format) (bits : Nat) : Datum :=
  let negative := decide (format.signBit ≤ bits)
  let magnitude := bits % format.signBit
  let fraction := magnitude % Nat.pow 2 format.fractionBits
  let biased := magnitude / Nat.pow 2 format.fractionBits
  if format.infinity < magnitude then .notANumber
  else if magnitude = format.infinity then .infinite negative
  else if biased = 0 then .finite negative fraction format.leastExponent
  else
    let mantissa := Nat.pow 2 format.fractionBits + fraction
    .finite negative mantissa (format.leastExponent + (biased - 1 : Nat))

end Format

/-- The nearest natural number to `num / den`, a tie going to the even one. -/
def roundEven (num den : Nat) : Nat :=
  let low := num / den
  let rest := 2 * (num % den)
  if rest < den then low
  else if den < rest then low + 1
  else low + low % 2

/-- The exponent of two that puts `num / den` between one and two. -/
def binaryExponent (num den : Nat) : Int :=
  let guess : Int := (Nat.log2 num : Int) - (Nat.log2 den : Int)
  if num * Nat.pow 2 (-guess).toNat < den * Nat.pow 2 guess.toNat then guess - 1 else guess

namespace Format

/--
The bit pattern of the number of this format nearest to `num / den`, ties to
even; a number too large for the format gives infinity.  Counting patterns
from the least exponent lets a carry move into the next binade by itself.
-/
def round (format : Format) (num den : Nat) : Nat :=
  if num = 0 then 0
  else
    let place := max format.leastExponent (binaryExponent num den - format.fractionBits)
    let mantissa := roundEven (num * Nat.pow 2 (-place).toNat) (den * Nat.pow 2 place.toNat)
    let binade := (place - format.leastExponent).toNat
    let pattern := binade * Nat.pow 2 format.fractionBits + mantissa
    min pattern format.infinity

end Format

end ChoiceExplorer.Floating
