import BlockWatch.Json.Value

/-!
# Tokens

A text is cut into tokens before it is read. A token that breaks off in the middle remembers whether
it was a string and whether the text ended or went wrong, because a reader reports the break only
where it was ready for such a token. Strings keep their escapes and numbers their digits, since a
value that is skipped is never decoded.
-/

namespace BlockWatch.Json

/-- Why a text cannot be read on: it is wrong, or it ends too early. -/
inductive Break
  | wrong
  | early
deriving DecidableEq, Repr

/-- A piece of a string: a character, or sixteen bits given by their number. -/
inductive Piece
  | char (c : Char)
  | unit (n : Nat)
deriving DecidableEq, Repr

/-- The digits of a number: its whole part, its fraction and its exponent of ten. -/
structure NumberText where
  negative : Bool
  whole : List Nat
  fraction : Option (List Nat)
  exponent : Option (Bool × List Nat)
deriving DecidableEq, Repr

inductive Token
  | openArray
  | closeArray
  | openObject
  | closeObject
  | colon
  | comma
  | null
  | boolean (flag : Bool)
  | number (text : NumberText)
  | string (pieces : List Piece)
  /-- A string that breaks off after these pieces. -/
  | brokenString (pieces : List Piece) (cause : Break)
  /-- Any other token that breaks off, or a character that starts none. -/
  | broken (cause : Break)
deriving DecidableEq, Repr

end BlockWatch.Json
