/-!
# Whole numbers in decimal

Digits are the ten ASCII digits.  A number that is stored in a word of a given
width is read only if it fits.
-/

namespace ChoiceExplorer.Text

def digit? (char : Char) : Option Nat :=
  if '0' ≤ char ∧ char ≤ '9' then some (char.toNat - '0'.toNat) else none

def isDigit (char : Char) : Bool := (digit? char).isSome

/-- The number written by digits, continuing a number read so far. -/
def digitsFrom : Nat → List Char → Option Nat
  | number, [] => some number
  | number, char :: rest =>
      match digit? char with
      | none => none
      | some digit => digitsFrom (10 * number + digit) rest

/-- The number written by at least one digit and nothing else. -/
def digits? (chars : List Char) : Option Nat :=
  if chars.isEmpty then none else digitsFrom 0 chars

/-- A number of at most 64 bits, perhaps after a plus sign. -/
def unsigned? (chars : List Char) : Option Nat :=
  let digits :=
    match chars with
    | '+' :: digits => digits
    | digits => digits
  (digits? digits).filter fun number => number < UInt64.size

/-- A number of at most 63 bits, perhaps after a sign. -/
def signed? (chars : List Char) : Option Int :=
  let number : Option Int :=
    match chars with
    | '+' :: digits => (digits? digits).map Int.ofNat
    | '-' :: digits => (digits? digits).map fun number => -Int.ofNat number
    | digits => (digits? digits).map Int.ofNat
  number.filter fun number => -Int.pow 2 63 ≤ number && number < Int.pow 2 63

end ChoiceExplorer.Text
