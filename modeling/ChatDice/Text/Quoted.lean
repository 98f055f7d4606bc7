/-
Text in quotes, as messages show it.

`quoted` puts a text in double quotes so that it can be read unambiguously on one
line: quotes and backslashes get a backslash, the common controls their letter, and
every other character without a printed form its code in hexadecimal.
-/
import ChatDice.Text.Invisible

namespace ChatDice

/-- A code in braces, with lowercase hexadecimal digits. -/
def escapedCode (code : Nat) : String :=
  "\\u\x7b" ++ String.ofList (Nat.toDigits 16 code) ++ "\x7d"

/-- A character as it stands in quoted text. -/
def escapedChar (c : Char) : String :=
  match c with
  | '\x00' => "\\0"
  | '\t' => "\\t"
  | '\n' => "\\n"
  | '\r' => "\\r"
  | '\x22' => "\\\""
  | '\\' => "\\\\"
  | c => if isInvisible c then escapedCode c.toNat else c.toString

/-- A text in double quotes. -/
def quoted (text : String) : String :=
  "\"" ++ String.join (text.toList.map escapedChar) ++ "\""

end ChatDice
