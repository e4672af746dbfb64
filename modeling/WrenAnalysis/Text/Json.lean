/-
# JSON output

Values of the JSON format and the two ways they are written: on one line, and
with every item on a line of its own.
-/

import WrenAnalysis.Text.Quoted

namespace WrenAnalysis
namespace Text

/-- A JSON value; numbers are natural. -/
inductive Json where
  | null
  | bool (b : Bool)
  | number (n : Nat)
  | string (s : String)
  | array (items : List Json)
  | object (fields : List (String × Json))

namespace Json

/-- A code in four hexadecimal digits. -/
def hex4 (n : Nat) : String :=
  let digits := hex n
  String.ofList (List.replicate (4 - digits.length) '0') ++ digits

/-- One character of a string. -/
def escapeChar (c : Char) : String :=
  match c with
  | '"' => "\\\""
  | '\\' => "\\\\"
  | '\n' => "\\n"
  | '\r' => "\\r"
  | '\t' => "\\t"
  | '\x08' => "\\b"
  | '\x0c' => "\\f"
  | c => if c.toNat < 0x20 then "\\u" ++ hex4 c.toNat else c.toString

/-- A string in quotes. -/
def quote (s : String) : String := "\"" ++ String.join (s.toList.map escapeChar) ++ "\""

/-- The start of a line `depth` levels in. -/
def newLine (depth : Nat) : String := "\n" ++ String.ofList (List.replicate (2 * depth) ' ')

mutual

/-- The value on one line. -/
def compact : Json → String
  | null => "null"
  | bool b => if b then "true" else "false"
  | number n => toString n
  | string s => quote s
  | array items => "[" ++ ",".intercalate (compactItems items) ++ "]"
  | object fields => "\x7b" ++ ",".intercalate (compactFields fields) ++ "\x7d"

/-- The items of an array, each on one line. -/
def compactItems : List Json → List String
  | [] => []
  | v :: rest => v.compact :: compactItems rest

/-- The fields of an object, each on one line. -/
def compactFields : List (String × Json) → List String
  | [] => []
  | (key, v) :: rest => (quote key ++ ":" ++ v.compact) :: compactFields rest

end

/-- Items between brackets, each on a line of its own; nothing between the
brackets without items. -/
def enclosed (depth : Nat) (left right : String) (items : List String) : String :=
  if items.isEmpty then left ++ right
  else
    left ++ newLine (depth + 1) ++ ("," ++ newLine (depth + 1)).intercalate items ++
      newLine depth ++ right

mutual

/-- The value with every item on a line of its own, `depth` levels in. -/
def pretty (depth : Nat) : Json → String
  | null => "null"
  | bool b => if b then "true" else "false"
  | number n => toString n
  | string s => quote s
  | array items => enclosed depth "[" "]" (prettyItems (depth + 1) items)
  | object fields => enclosed depth "\x7b" "\x7d" (prettyFields (depth + 1) fields)

/-- The items of an array, `depth` levels in. -/
def prettyItems (depth : Nat) : List Json → List String
  | [] => []
  | v :: rest => v.pretty depth :: prettyItems depth rest

/-- The fields of an object, `depth` levels in. -/
def prettyFields (depth : Nat) : List (String × Json) → List String
  | [] => []
  | (key, v) :: rest => (quote key ++ ": " ++ v.pretty depth) :: prettyFields depth rest

end

end Json
end Text
end WrenAnalysis
