/-!
# Words of a script

A word is a sequence of pieces: literal text, and parameters, outputs of commands and sums that are
put in when the word is used. What stands in quotes is neither split into fields nor read as a
pattern.
-/

namespace BlockWatch.Shell

/-- What becomes of a parameter that has no value. -/
inductive Fallback
  /-- The word stands in for it. -/
  | use
  /-- The word becomes its value. -/
  | assign
  /-- The word stands in for a value that is there. -/
  | alternative
  /-- The script ends with the word as its complaint. -/
  | fail
deriving DecidableEq, Repr

/-- Which end of a value is cut off, and whether as much of it as fits. -/
structure Trim where
  fromEnd : Bool
  longest : Bool
deriving DecidableEq, Repr

inductive Piece
  | text (s : String)
  | quoted (s : String)
  | parameter (name : String) (inQuotes : Bool)
  | length (name : String)
  | fallback (name : String) (how : Fallback) (orEmpty : Bool) (word : List Piece)
    (inQuotes : Bool)
  | trimmed (name : String) (trim : Trim) (pattern : List Piece) (inQuotes : Bool)
  /-- What a script prints. -/
  | output (script : String) (inQuotes : Bool)
  | sum (pieces : List Piece) (inQuotes : Bool)
  /-- Braces that hold no parameter. -/
  | malformed

abbrev Word : Type := List Piece

/-- The text of a word without quotes and parameters. -/
def Word.literal? : Word → Option String
  | [] => none
  | [.text s] => some s
  | _ => none

def isNameStart (c : Char) : Bool := c.isAlpha || c == '_'

def isNameChar (c : Char) : Bool := c.isAlphanum || c == '_'

end BlockWatch.Shell
