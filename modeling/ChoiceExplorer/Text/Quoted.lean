import ChoiceExplorer.Text.GraphemeExtend
import ChoiceExplorer.Text.Visible

/-!
# Quoted text

Text in double quotes, with the characters that would not show by themselves
escaped: a few by a letter, the others by their code point.
-/

namespace ChoiceExplorer.Text

def codeEscape (code : Nat) : String :=
  "\\u\x7b" ++ String.ofList (Nat.toDigits 16 code) ++ "\x7d"

def quotedChar (char : Char) : String :=
  if char == '"' then "\\\""
  else if char == '\\' then "\\\\"
  else if char == '\n' then "\\n"
  else if char == '\r' then "\\r"
  else if char == '\t' then "\\t"
  else if char == '\x00' then "\\0"
  else if isVisible char && !extendsGrapheme char then char.toString
  else codeEscape char.toNat

def quoted (text : String) : String :=
  "\"" ++ String.join (text.toList.map quotedChar) ++ "\""

end ChoiceExplorer.Text
