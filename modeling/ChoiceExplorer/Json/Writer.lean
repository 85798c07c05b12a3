/-!
# Writing JSON

Compact JSON text: no blanks, and in strings only quotes, backslashes and
control characters escaped.
-/

namespace ChoiceExplorer.Json

def escaped (char : Char) : String :=
  if char == '"' then "\\\""
  else if char == '\\' then "\\\\"
  else if char == '\x08' then "\\b"
  else if char == '\t' then "\\t"
  else if char == '\n' then "\\n"
  else if char == '\x0c' then "\\f"
  else if char == '\r' then "\\r"
  else if char.toNat < 0x20 then
    let digits := Nat.toDigits 16 char.toNat
    "\\u" ++ String.ofList (List.replicate (4 - digits.length) '0' ++ digits)
  else char.toString

def stringText (text : String) : String :=
  "\"" ++ String.join (text.toList.map escaped) ++ "\""

def arrayText (items : List String) : String := "[" ++ ",".intercalate items ++ "]"

def objectText (members : List (String × String)) : String :=
  let written := members.map fun (key, value) => stringText key ++ ":" ++ value
  "\x7b" ++ ",".intercalate written ++ "\x7d"

def nullableText {α : Type} (write : α → String) : Option α → String
  | none => "null"
  | some value => write value

end ChoiceExplorer.Json
