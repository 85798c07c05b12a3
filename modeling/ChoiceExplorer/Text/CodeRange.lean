/-!
# Ranges of code points

A property of characters is given as a list of closed ranges of code points,
ascending and apart.  The tables of the library are those of version 17 of the
Unicode standard.
-/

namespace ChoiceExplorer.Text

def liesIn (ranges : List (Nat × Nat)) (code : Nat) : Bool :=
  ranges.any fun (first, last) => first ≤ code && code ≤ last

end ChoiceExplorer.Text
