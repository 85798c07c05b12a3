/-!
# Blank characters

A character is blank when it has the Unicode property White_Space.  Texts are
trimmed of blanks at both ends and split at them.
-/

namespace ChoiceExplorer.Text

/-- The 25 characters with the property White_Space. -/
def isBlank (char : Char) : Bool :=
  let code := char.toNat
  (9 ≤ code && code ≤ 13) || code == 0x20 || code == 0x85 || code == 0xa0 || code == 0x1680 ||
    (0x2000 ≤ code && code ≤ 0x200a) || code == 0x2028 || code == 0x2029 || code == 0x202f ||
    code == 0x205f || code == 0x3000

def trim (chars : List Char) : List Char :=
  ((chars.dropWhile isBlank).reverse.dropWhile isBlank).reverse

/-- The text before the first separator and the text after it, if there is a separator. -/
def splitOnce (separator : Char) (chars : List Char) : Option (List Char × List Char) :=
  match chars.dropWhile (· != separator) with
  | [] => none
  | _ :: rest => some (chars.takeWhile (· != separator), rest)

/-- The texts between separators, one more than there are separators. -/
def pieces (separates : Char → Bool) : List Char → List (List Char)
  | [] => [[]]
  | char :: rest =>
      if separates char then [] :: pieces separates rest
      else
        match pieces separates rest with
        | [] => [[char]]
        | piece :: later => (char :: piece) :: later

/-- The maximal runs of characters that are no separators, in order. -/
def runs (separates : Char → Bool) (chars : List Char) : List (List Char) :=
  (pieces separates chars).filter fun piece => !piece.isEmpty

/--
The lines of a text: each ends at a line feed, taken together with a carriage return
before it.
-/
def lines : List Char → List (List Char)
  | [] => []
  | '\n' :: rest => [] :: lines rest
  | '\r' :: '\n' :: rest => [] :: lines rest
  | char :: rest =>
      match lines rest with
      | [] => [[char]]
      | line :: later => (char :: line) :: later

/-- Remove a leading text, or leave a text that does not begin with it as it is. -/
def withoutLeading (leading chars : List Char) : List Char :=
  if leading.isPrefixOf chars then chars.drop leading.length else chars

end ChoiceExplorer.Text
