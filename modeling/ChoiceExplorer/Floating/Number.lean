import ChoiceExplorer.Floating.Layout

/-!
# Doubles and singles

Floating-point values are kept as their bit patterns, so that two values are
equal exactly when they are the same datum: a negative zero differs from zero
and not-a-number equals itself.
-/

namespace ChoiceExplorer.Floating

structure Double where
  bits : UInt64
  deriving DecidableEq

structure Single where
  bits : UInt32
  deriving DecidableEq

namespace Double

def zero : Double := ⟨0⟩

def leastPositive : Double := ⟨1⟩

def greatest : Double := ⟨0x7fefffffffffffff⟩

def datum (value : Double) : Datum := Format.binary64.decode value.bits.toNat

/-- The value nearest to `num / den`, infinite if that is too large. -/
def ofQuotient (num den : Nat) : Double := ⟨(Format.binary64.round num den).toUInt64⟩

def neg (value : Double) : Double := ⟨value.bits ^^^ 0x8000000000000000⟩

def isSpecial (value : Double) : Bool :=
  match value.datum with
  | .finite .. => false
  | _ => true

def text (value : Double) (layout : Layout) : String :=
  layout.text Format.binary64 value.bits.toNat

end Double

namespace Single

def zero : Single := ⟨0⟩

def leastPositive : Single := ⟨1⟩

def greatest : Single := ⟨0x7f7fffff⟩

def datum (value : Single) : Datum := Format.binary32.decode value.bits.toNat

def ofQuotient (num den : Nat) : Single := ⟨(Format.binary32.round num den).toUInt32⟩

def neg (value : Single) : Single := ⟨value.bits ^^^ 0x80000000⟩

def text (value : Single) (layout : Layout) : String :=
  layout.text Format.binary32 value.bits.toNat

def ofDouble (value : Double) : Single :=
  match value.datum with
  | .notANumber => ⟨0x7fc00000⟩
  | .infinite negative => if negative then ⟨0xff800000⟩ else ⟨0x7f800000⟩
  | .finite negative mantissa exponent =>
      let magnitude :=
        ofQuotient (mantissa * Nat.pow 2 exponent.toNat) (Nat.pow 2 (-exponent).toNat)
      if negative then magnitude.neg else magnitude

end Single

end ChoiceExplorer.Floating
