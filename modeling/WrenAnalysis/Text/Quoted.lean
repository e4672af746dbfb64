/-
# Quoted text

A text in double quotes, with a backslash before what could not be read back
otherwise.
-/

namespace WrenAnalysis
namespace Text

/-- A hexadecimal number in lower case. -/
def hex (n : Nat) : String := String.ofList (Nat.toDigits 16 n)

/-- One character of a quoted text.  Control characters of ASCII are written by
their code, the common ones by a letter; what is beyond ASCII stands for itself. -/
def escape (c : Char) : String :=
  match c with
  | '"' => "\\\""
  | '\\' => "\\\\"
  | '\n' => "\\n"
  | '\r' => "\\r"
  | '\t' => "\\t"
  | '\x00' => "\\0"
  | c => if c.toNat < 0x20 ∨ c.toNat = 0x7f then "\\u\x7b" ++ hex c.toNat ++ "\x7d" else c.toString

/-- The text in quotes. -/
def quoted (text : String) : String := "\"" ++ String.join (text.toList.map escape) ++ "\""

end Text
end WrenAnalysis
