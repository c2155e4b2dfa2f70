import BlockWatch.Json.Value

/-!
# Writing values

The compact text has no blanks. The pretty text puts every item and member on a line of its own,
two blanks deeper than what holds it, and leaves an empty array or object on one line.
-/

namespace BlockWatch.Json

/-- The shortest digits that read back, positional from `1e-5` up to below `1e16`. -/
def floatNotation : FloatNotation where
  positional exponent := decide (-5 ≤ exponent) && decide (exponent ≤ 15)
  pointZero := true
  plusSign := true
  tie := .even
  nanText := "null"
  infinityText := "null"

def floatText : Binary64 → String
  | .nan .. => "null"
  | .infinite _ => "null"
  | x => floatNotation.write x

/-- One character between the quotes of a string. -/
def charText (c : Char) : String :=
  if c = '"' then "\\\""
  else if c = '\\' then "\\\\"
  else if c = '\n' then "\\n"
  else if c = '\r' then "\\r"
  else if c = '\t' then "\\t"
  else if c.toNat = 8 then "\\b"
  else if c.toNat = 12 then "\\f"
  else if c.toNat < 16 then "\\u000" ++ String.ofList (Nat.toDigits 16 c.toNat)
  else if c.toNat < 32 then "\\u00" ++ String.ofList (Nat.toDigits 16 c.toNat)
  else c.toString

def stringText (s : String) : String :=
  "\"" ++ String.join (s.toList.map charText) ++ "\""

mutual

/-- The text without blanks. -/
def Value.compact : Value → String
  | .null => "null"
  | .boolean flag => if flag then "true" else "false"
  | .integer n => toString n.value
  | .float x => floatText x
  | .string text => stringText text
  | .array items => "[" ++ compactItems items ++ "]"
  | .object members => "\x7b" ++ compactMembers members ++ "\x7d"

def compactItems : List Value → String
  | [] => ""
  | [item] => item.compact
  | item :: rest => item.compact ++ "," ++ compactItems rest

def compactMembers : List (String × Value) → String
  | [] => ""
  | [(key, value)] => stringText key ++ ":" ++ value.compact
  | (key, value) :: rest => stringText key ++ ":" ++ value.compact ++ "," ++ compactMembers rest

end

/-- A line break and the blanks of that depth. -/
def lineBreak (depth : Nat) : String := "\n" ++ String.ofList (List.replicate (2 * depth) ' ')

mutual

/-- The text on many lines, for a value that stands at that depth. -/
def prettyAt (depth : Nat) : Value → String
  | .null => "null"
  | .boolean flag => if flag then "true" else "false"
  | .integer n => toString n.value
  | .float x => floatText x
  | .string text => stringText text
  | .array [] => "[]"
  | .array (item :: rest) =>
    "[" ++ prettyItems (depth + 1) (item :: rest) ++ lineBreak depth ++ "]"
  | .object [] => "\x7b\x7d"
  | .object (member :: rest) =>
    "\x7b" ++ prettyMembers (depth + 1) (member :: rest) ++ lineBreak depth ++ "\x7d"

def prettyItems (depth : Nat) : List Value → String
  | [] => ""
  | [item] => lineBreak depth ++ prettyAt depth item
  | item :: rest => lineBreak depth ++ prettyAt depth item ++ "," ++ prettyItems depth rest

def prettyMembers (depth : Nat) : List (String × Value) → String
  | [] => ""
  | [(key, value)] => lineBreak depth ++ stringText key ++ ": " ++ prettyAt depth value
  | (key, value) :: rest =>
    lineBreak depth ++ stringText key ++ ": " ++ prettyAt depth value ++ "," ++
      prettyMembers depth rest

end

def Value.pretty (value : Value) : String := prettyAt 0 value

end BlockWatch.Json
