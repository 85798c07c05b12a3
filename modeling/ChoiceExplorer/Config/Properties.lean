import ChoiceExplorer.Config.Basic
import ChoiceExplorer.Text.Blank

/-!
# Property text

Each entry `key = value` stands on a line of its own.  Blank lines and lines
that begin with `#` or `!` are skipped between entries.  When an entry, as
joined so far, ends in a backslash, the backslash is dropped and the next line
is joined to it, whatever that line looks like.
-/

namespace ChoiceExplorer.Config

/-- The key and the value around the first equals sign; the key must not be empty. -/
def entry? (chars : List Char) : Option (String × String) :=
  match Text.splitOnce '=' chars with
  | none => none
  | some (key, value) =>
      let key := Text.trim key
      if key.isEmpty then none
      else some (String.ofList key, String.ofList (Text.trim value))

/-- An entry that is not complete yet, with the number of its first line. -/
structure Pending where
  line : Nat
  text : List Char
  deriving DecidableEq

namespace Pending

def continues (pending : Pending) : Bool := pending.text.getLast? == some '\\'

def store (pending : Pending) (config : Config) : Except Error Config :=
  match entry? pending.text with
  | none => .error (.malformedLine pending.line (String.ofList pending.text))
  | some (key, value) => .ok (config.insert key value)

end Pending

def isSkipped (line : List Char) : Bool :=
  match line with
  | [] => true
  | first :: _ => first == '#' || first == '!'

/-- A trimmed line joined to the entry that waits for it, or the entry it begins. -/
def joinLine (number : Nat) (waiting : Option Pending) (line : List Char) : Option Pending :=
  match waiting with
  | some pending => some { pending with text := pending.text ++ line }
  | none => if isSkipped line then none else some ⟨number, line⟩

/-- Read lines from a line number on, with the entry that waits for the first of them. -/
def readLines : Nat → Option Pending → Config → List (List Char) → Except Error Config
  | _, none, config, [] => .ok config
  | _, some pending, config, [] => pending.store config
  | number, waiting, config, line :: rest =>
      match joinLine number waiting (Text.trim line) with
      | none => readLines (number + 1) none config rest
      | some pending =>
          if pending.continues then
            readLines (number + 1) (some { pending with text := pending.text.dropLast }) config rest
          else
            match pending.store config with
            | .error error => .error error
            | .ok config => readLines (number + 1) none config rest

def ofProperties (text : String) : Except Error Config :=
  readLines 1 none .empty (Text.lines text.toList)

end ChoiceExplorer.Config
