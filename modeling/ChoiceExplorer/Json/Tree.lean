import ChoiceExplorer.Json.Number

/-!
# JSON text as a tree

The tree of a JSON text keeps numbers as written and knows of each string
whether it can be read as text: an escape may name half of a surrogate pair,
which only matters to a reader that wants the string.
-/

namespace ChoiceExplorer.Json

/-- A JSON text as written.  A string without content cannot be read as text. -/
inductive Tree where
  | null
  | bool (value : Bool)
  | number (literal : Literal)
  | string (content : Option String)
  | array (items : List Tree)
  | object (members : List (Option String × Tree))

namespace Tree

def isBlank (char : Char) : Bool :=
  char == ' ' || char == '\t' || char == '\n' || char == '\r'

def skipBlanks (chars : List Char) : List Char := chars.dropWhile isBlank

def hexDigit? (char : Char) : Option Nat :=
  if '0' ≤ char ∧ char ≤ '9' then some (char.toNat - '0'.toNat)
  else if 'a' ≤ char ∧ char ≤ 'f' then some (char.toNat - 'a'.toNat + 10)
  else if 'A' ≤ char ∧ char ≤ 'F' then some (char.toNat - 'A'.toNat + 10)
  else none

def unit? (first second third fourth : Char) : Option Nat := do
  let first ← hexDigit? first
  let second ← hexDigit? second
  let third ← hexDigit? third
  let fourth ← hexDigit? fourth
  some (4096 * first + 256 * second + 16 * third + fourth)

def shortEscape? : Char → Option Char
  | '"' => some '"'
  | '\\' => some '\\'
  | '/' => some '/'
  | 'b' => some '\x08'
  | 'f' => some '\x0c'
  | 'n' => some '\n'
  | 'r' => some '\r'
  | 't' => some '\t'
  | _ => none

/-- A piece of a string: a character, or a 16-bit unit from an escape. -/
inductive Piece where
  | char (char : Char)
  | unit (code : Nat)
  deriving DecidableEq

/-- The pieces of a string up to its closing quote, and the text after it. -/
def pieces? : List Char → Option (List Piece × List Char)
  | [] => none
  | '"' :: rest => some ([], rest)
  | '\\' :: 'u' :: first :: second :: third :: fourth :: rest => do
      let code ← unit? first second third fourth
      let (later, rest) ← pieces? rest
      some (.unit code :: later, rest)
  | '\\' :: escape :: rest => do
      let char ← shortEscape? escape
      let (later, rest) ← pieces? rest
      some (.char char :: later, rest)
  | char :: rest =>
      if char.toNat < 0x20 then none
      else do
        let (later, rest) ← pieces? rest
        some (.char char :: later, rest)

/-- Join pieces: two units that form a surrogate pair make one character, half of one none. -/
def join? : List Piece → Option (List Char)
  | [] => some []
  | .char char :: rest => (join? rest).map (char :: ·)
  | .unit high :: .unit low :: rest =>
      if 0xd800 ≤ high ∧ high < 0xdc00 then
        if 0xdc00 ≤ low ∧ low < 0xe000 then
          let code := 0x10000 + 0x400 * (high - 0xd800) + (low - 0xdc00)
          (join? rest).map (Char.ofNat code :: ·)
        else none
      else if 0xdc00 ≤ high ∧ high < 0xe000 then none
      else (join? (.unit low :: rest)).map (Char.ofNat high :: ·)
  | .unit code :: rest =>
      if 0xd800 ≤ code ∧ code < 0xe000 then none
      else (join? rest).map (Char.ofNat code :: ·)

def readString? (chars : List Char) : Option (Option String × List Char) := do
  let (pieces, rest) ← pieces? chars
  some ((join? pieces).map String.ofList, rest)

def digits (chars : List Char) : List Nat × List Char :=
  ((chars.takeWhile Text.isDigit).filterMap Text.digit?, chars.dropWhile Text.isDigit)

/-- The whole part of a number: zero, or digits that do not begin with zero. -/
def whole? (chars : List Char) : Option (List Nat × List Char) :=
  match digits chars with
  | ([], _) => none
  | (0 :: _ :: _, _) => none
  | (found, rest) => some (found, rest)

def fraction? : List Char → Option (List Nat × List Char)
  | '.' :: rest =>
      match digits rest with
      | ([], _) => none
      | (found, rest) => some (found, rest)
  | rest => some ([], rest)

def exponent? (chars : List Char) : Option (Option Int × List Char) :=
  let magnitude (negative : Bool) (chars : List Char) : Option (Option Int × List Char) :=
    match digits chars with
    | ([], _) => none
    | (found, rest) =>
        let size : Int := Literal.natural found
        some (some (if negative then -size else size), rest)
  match chars with
  | mark :: rest =>
      if mark == 'e' || mark == 'E' then
        match rest with
        | '+' :: rest => magnitude false rest
        | '-' :: rest => magnitude true rest
        | rest => magnitude false rest
      else some (none, chars)
  | [] => some (none, [])

def readNumber? (chars : List Char) : Option (Literal × List Char) := do
  let (negative, chars) :=
    match chars with
    | '-' :: rest => (true, rest)
    | rest => (false, rest)
  let (whole, chars) ← whole? chars
  let (fraction, chars) ← fraction? chars
  let (exponent, chars) ← exponent? chars
  some (⟨negative, whole, fraction, exponent⟩, chars)

mutual

/-- A value at the beginning of a text, blanks before it aside, and the text after it. -/
def readValue? : Nat → List Char → Option (Tree × List Char)
  | 0, _ => none
  | fuel + 1, chars =>
      match skipBlanks chars with
      | 'n' :: 'u' :: 'l' :: 'l' :: rest => some (.null, rest)
      | 't' :: 'r' :: 'u' :: 'e' :: rest => some (.bool true, rest)
      | 'f' :: 'a' :: 'l' :: 's' :: 'e' :: rest => some (.bool false, rest)
      | '"' :: rest => (readString? rest).map fun (content, rest) => (.string content, rest)
      | '[' :: rest =>
          match skipBlanks rest with
          | ']' :: rest => some (.array [], rest)
          | rest => (readItems? fuel rest).map fun (items, rest) => (.array items, rest)
      | '\x7b' :: rest =>
          match skipBlanks rest with
          | '\x7d' :: rest => some (.object [], rest)
          | rest => (readMembers? fuel rest).map fun (members, rest) => (.object members, rest)
      | chars => (readNumber? chars).map fun (literal, rest) => (.number literal, rest)

/-- The items of an array up to its closing bracket, at least one, and the text after it. -/
def readItems? : Nat → List Char → Option (List Tree × List Char)
  | 0, _ => none
  | fuel + 1, chars => do
      let (item, rest) ← readValue? fuel chars
      match skipBlanks rest with
      | ',' :: rest =>
          let (items, rest) ← readItems? fuel rest
          some (item :: items, rest)
      | ']' :: rest => some ([item], rest)
      | _ => none

def readMembers? : Nat → List Char → Option (List (Option String × Tree) × List Char)
  | 0, _ => none
  | fuel + 1, chars =>
      match skipBlanks chars with
      | '"' :: rest => do
          let (key, rest) ← readString? rest
          match skipBlanks rest with
          | ':' :: rest =>
              let (value, rest) ← readValue? fuel rest
              match skipBlanks rest with
              | ',' :: rest =>
                  let (members, rest) ← readMembers? fuel rest
                  some ((key, value) :: members, rest)
              | '\x7d' :: rest => some ([(key, value)], rest)
              | _ => none
          | _ => none
      | _ => none

end

/-- The tree of a text that holds one value and blanks around it. -/
def parse? (text : String) : Option Tree :=
  let chars := text.toList
  match readValue? (2 * chars.length + 2) chars with
  | some (tree, rest) => if (skipBlanks rest).isEmpty then some tree else none
  | none => none

end Tree

end ChoiceExplorer.Json
