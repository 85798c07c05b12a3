import ChoiceExplorer.Choice.Value
import ChoiceExplorer.Chance.Stream

/-!
# Drawing values

What a program can ask for at random, and how each is drawn from a stream.
-/

namespace ChoiceExplorer.Chance

open Floating (Double Single)

inductive Draw where
  | bool
  /-- A whole number from zero up to below the bound; zero for a bound that is not positive. -/
  | int (bound : Int)
  | double
  | float
  | long
  deriving DecidableEq

namespace Stream

/-- Draw a truth value: the highest bit of a word. -/
def bool (stream : Stream) : Bool × Stream :=
  let (word, stream) := stream.next32
  (decide (0x80000000 ≤ word), stream)

/-- Draw a double from zero up to below one. -/
def double (stream : Stream) : Double × Stream :=
  let (word, stream) := stream.next64
  (Double.ofQuotient (word >>> 11).toNat (Nat.pow 2 53), stream)

def single (stream : Stream) : Single × Stream :=
  let (word, stream) := stream.next32
  (Single.ofQuotient (word >>> 8).toNat (Nat.pow 2 24), stream)

def long (stream : Stream) : Int × Stream :=
  let (word, stream) := stream.next64
  ((word.toNat : Int).bmod UInt64.size, stream)

/-- The largest low half of a product with a bound that is accepted. -/
def zone (bound : Nat) : Nat := bound * Nat.pow 2 (63 - Nat.log2 bound) - 1

/--
Draw a natural number below a positive bound: the high half of a product with
the bound, once its low half is in the zone.  Each try is accepted with at
least even odds.
-/
def below (bound : Nat) : (tries : Nat) → Stream → Nat × Stream
  | 0, stream => (0, stream)
  | tries + 1, stream =>
      let (word, stream) := stream.next64
      let product := word.toNat * bound
      if product % UInt64.size ≤ zone bound then (product / UInt64.size, stream)
      else below bound tries stream

def tries : Nat := 4096

end Stream

namespace Draw

def take (draw : Draw) (stream : Stream) : Value × Stream :=
  match draw with
  | bool =>
      let (value, stream) := stream.bool
      (.bool value, stream)
  | int bound =>
      if bound ≤ 0 then (.int 0, stream)
      else
        let (value, stream) := stream.below bound.toNat Stream.tries
        (.int value, stream)
  | double =>
      let (value, stream) := stream.double
      (.double value, stream)
  | float =>
      let (value, stream) := stream.single
      (.float value, stream)
  | long =>
      let (value, stream) := stream.long
      (.long value, stream)

end Draw

end ChoiceExplorer.Chance
