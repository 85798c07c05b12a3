import ChoiceExplorer.Floating.Shortest

/-!
# Layout of floating-point text

A layout says which exponents are written positionally, how the others are
marked, how ties between digits go and what stands for the values that are no
numbers.
-/

namespace ChoiceExplorer.Floating

/-- The decisions of a textual form for floating-point numbers. -/
structure Layout where
  /-- The smallest leading exponent written positionally. -/
  leastPlain : Int
  /-- The largest leading exponent written positionally. -/
  mostPlain : Int
  /-- What stands before a positive exponent. -/
  positive : String
  tie : Tie
  notANumber : String
  infinite : String
  negativeInfinite : String

namespace Layout

def zeros (count : Nat) : List Char := List.replicate count '0'

/-- Positional text, with at least one digit on either side of the point. -/
def plain (digits : List Char) (leading : Int) : List Char :=
  if leading < 0 then
    '0' :: '.' :: (zeros ((-leading).toNat - 1) ++ digits)
  else
    let whole := leading.toNat + 1
    let fraction := digits.drop whole
    digits.take whole ++ zeros (whole - digits.length) ++
      '.' :: (if fraction.isEmpty then ['0'] else fraction)

/-- Exponent text, with a point only when more than one digit is written. -/
def scientific (layout : Layout) (digits : List Char) (leading : Int) : List Char :=
  let mantissa :=
    match digits with
    | first :: second :: rest => first :: '.' :: second :: rest
    | short => short
  let exponent :=
    if leading < 0 then (toString leading).toList
    else layout.positive.toList ++ (toString leading).toList
  mantissa ++ 'e' :: exponent

def significant (decimal : Decimal) : List Char :=
  ((Nat.toDigits 10 decimal.digits).reverse.dropWhile (· == '0')).reverse

def ofDecimal (layout : Layout) (decimal : Decimal) : List Char :=
  let digits := significant decimal
  let leading := decimal.exponent + (Decimal.length decimal.digits : Int) - 1
  if layout.leastPlain ≤ leading ∧ leading ≤ layout.mostPlain then plain digits leading
  else layout.scientific digits leading

def text (layout : Layout) (format : Format) (bits : Nat) : String :=
  match format.decode bits with
  | .notANumber => layout.notANumber
  | .infinite false => layout.infinite
  | .infinite true => layout.negativeInfinite
  | .finite negative mantissa exponent =>
      let sign := if negative then ['-'] else []
      let magnitude :=
        if mantissa = 0 then ['0', '.', '0']
        else layout.ofDecimal ((Rounding.ofFinite format mantissa exponent).shortest layout.tie)
      String.ofList (sign ++ magnitude)

end Layout

end ChoiceExplorer.Floating
