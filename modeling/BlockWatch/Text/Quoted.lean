import BlockWatch.Text.Shapeless

/-!
# Quoted text

Text between double quotes on one line: the quote and the backslash are escaped, tab, newline,
return and the null character have short escapes, and every other character that has no shape of
its own is written by its number in hexadecimal.
-/

namespace BlockWatch.Text

/-- The lower-case hexadecimal digits of a number. -/
def hex (n : Nat) : String := String.ofList (Nat.toDigits 16 n)

/-- How one character stands between the quotes. -/
def quoteChar (c : Char) : String :=
  if c = '"' then "\\\""
  else if c = '\\' then "\\\\"
  else if c = '\n' then "\\n"
  else if c = '\r' then "\\r"
  else if c = '\t' then "\\t"
  else if c.toNat = 0 then "\\0"
  else if c.toNat < 32 || c.toNat = 127 || (127 < c.toNat && isShapeless c) then
    "\\u\x7b" ++ hex c.toNat ++ "\x7d"
  else c.toString

/-- The text in quotes. -/
def quote (s : String) : String :=
  "\"" ++ String.join (s.toList.map quoteChar) ++ "\""

end BlockWatch.Text
