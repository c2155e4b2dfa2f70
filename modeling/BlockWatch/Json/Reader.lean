import BlockWatch.Json.Lexer
import BlockWatch.Json.Scalar
import BlockWatch.Fault
import BlockWatch.Text.Quoted
import BlockWatch.Json.Writer

/-!
# Reading values

`Value.ofText` reads one value and nothing else. It keeps the arrays and objects that are open as a
stack and moves on by one token at a time, so at most `depthLimit` of them may be open. An object
that repeats a key keeps the last value.
-/

namespace BlockWatch.Json

/-- What a value is, in the words of an error about its kind. -/
inductive Kind
  | null
  | boolean (flag : Bool)
  | integer (n : Integer)
  | float (x : Binary64)
  | string (text : String)
  | array
  | object
deriving DecidableEq

def Kind.describe : Kind → String
  | null => "null"
  | boolean flag => "boolean `" ++ toString flag ++ "`"
  | integer n => "integer `" ++ toString n.value ++ "`"
  | float x => "floating point `" ++ floatText x ++ "`"
  | string text => "string " ++ Text.quote text
  | array => "sequence"
  | object => "map"

/-- Why well-formed text does not describe what it should. -/
inductive Mismatch
  | invalidType (found : Kind) (expected : String)
  | invalidValue (found : Kind) (expected : String)
  | invalidLength (length : Nat) (expected : String)
  | missingField (name : String)
  | duplicateField (name : String)
  | unknownVariant (name : String) (known : List String)
  /-- A string that does not read as what it should stand for. -/
  | unreadable (message : String)
deriving DecidableEq

def Mismatch.message : Mismatch → String
  | invalidType found expected => "invalid type: " ++ found.describe ++ ", expected " ++ expected
  | invalidValue found expected => "invalid value: " ++ found.describe ++ ", expected " ++ expected
  | invalidLength length expected =>
    "invalid length " ++ toString length ++ ", expected " ++ expected
  | missingField name => "missing field `" ++ name ++ "`"
  | duplicateField name => "duplicate field `" ++ name ++ "`"
  | unknownVariant name known =>
    "unknown variant `" ++ name ++ "`, expected " ++
      " or ".intercalate (known.map fun k => "`" ++ k ++ "`")
  | unreadable message => message

/-- Why a text cannot be read. -/
inductive ReadError
  | data (mismatch : Mismatch)
  | syntaxError
  | endOfText
deriving DecidableEq

/-- What messages show of the error: the position in the text is left to others. -/
def ReadError.detail : ReadError → String
  | data mismatch => mismatch.message
  | syntaxError => "<syntax>"
  | endOfText => "<eof>"

def ReadError.ofBreak : Break → ReadError
  | .wrong => .syntaxError
  | .early => .endOfText

abbrev Result (α : Type) : Type := Except (Stop ReadError) α

def fail {α : Type} (cause : ReadError) : Result α := .error (.error cause)

def mismatch {α : Type} (cause : Mismatch) : Result α := fail (.data cause)

/-- The characters of a string token. -/
def stringOf (pieces : List Piece) : Result String :=
  match Piece.decode false pieces with
  | some chars => pure (String.ofList chars)
  | none => fail .syntaxError

/-- The error at a string that breaks off. -/
def brokenString {α : Type} (pieces : List Piece) (cause : Break) : Result α :=
  match Piece.decode true pieces with
  | some _ => fail (.ofBreak cause)
  | none => fail .syntaxError

def numberOf (text : NumberText) : Result Number :=
  match text.value? with
  | some n => pure n
  | none => fail .syntaxError

/-- The most arrays and objects that may be open at a time. -/
def depthLimit : Nat := 127

/-- An array or object that is open: the items so far, the last one first, or the members so far
and the key whose value is read. -/
inductive Frame
  | array (items : List Value)
  | object (members : Members) (key : String)

/-- What may come next, and what is open around it. -/
inductive Expecting
  /-- A value. -/
  | value (stack : List Frame)
  /-- The first item of an array, or its end. -/
  | firstItem (stack : List Frame)
  /-- The first key of an object, or its end. -/
  | firstKey (stack : List Frame)
  /-- A further key. -/
  | key (members : Members) (stack : List Frame)
  /-- The colon after a key. -/
  | colon (members : Members) (key : String) (stack : List Frame)
  /-- A comma, or the end of the innermost array or object. -/
  | more (frame : Frame) (stack : List Frame)
  /-- Nothing. -/
  | done (value : Value)

namespace Expecting

/-- What may come after a value: it joins what is open around it. -/
def after (value : Value) : List Frame → Expecting
  | [] => done value
  | .array items :: stack => more (.array (value :: items)) stack
  | .object members name :: stack => more (.object (members.insert name value) name) stack

private def keyToken (members : Members) (stack : List Frame) : Token → Result Expecting
  | .string pieces => do pure (.colon members (← stringOf pieces) stack)
  | .brokenString pieces cause => brokenString pieces cause
  | _ => fail .syntaxError

private def valueToken (stack : List Frame) : Token → Result Expecting
  | .openArray =>
    if stack.length < depthLimit then pure (firstItem stack) else fail .syntaxError
  | .openObject =>
    if stack.length < depthLimit then pure (firstKey stack) else fail .syntaxError
  | .null => pure (after .null stack)
  | .boolean flag => pure (after (.boolean flag) stack)
  | .number text => do
    match ← numberOf text with
    | .integer n => pure (after (.integer n) stack)
    | .float x => pure (after (.float x) stack)
  | .string pieces => do pure (after (.string (← stringOf pieces)) stack)
  | .brokenString pieces cause => brokenString pieces cause
  | .broken cause => fail (.ofBreak cause)
  | _ => fail .syntaxError

/-- Reads one token. -/
def step : Expecting → Token → Result Expecting
  | value stack, token => valueToken stack token
  | firstItem stack, .closeArray => pure (after (.array []) stack)
  | firstItem stack, token => valueToken (.array [] :: stack) token
  | firstKey stack, .closeObject => pure (after (.object []) stack)
  | firstKey stack, token => keyToken [] stack token
  | key members stack, token => keyToken members stack token
  | colon members name stack, .colon => pure (value (.object members name :: stack))
  | colon .., _ => fail .syntaxError
  | more (.array items) stack, .comma => pure (value (.array items :: stack))
  | more (.array items) stack, .closeArray => pure (after (.array items.reverse) stack)
  | more (.object members _) stack, .comma => pure (key members stack)
  | more (.object members _) stack, .closeObject => pure (after (.object members) stack)
  | more .., _ => fail .syntaxError
  | done _, _ => fail .syntaxError

/-- Reads tokens. -/
def steps (state : Expecting) : List Token → Result Expecting
  | [] => pure state
  | token :: rest => do steps (← state.step token) rest

end Expecting

/-- Reads a text that holds one value. -/
def Value.ofText (text : String) : Result Value := do
  match ← Expecting.steps (.value []) (tokens text) with
  | .done value => pure value
  | _ => fail .endOfText

end BlockWatch.Json
