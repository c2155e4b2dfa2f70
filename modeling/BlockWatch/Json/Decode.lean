import BlockWatch.Json.Reader

/-!
# Decoding records

A decoder takes the tokens of one value and returns what they describe and the tokens that are left.
It reports the first token that does not fit, however the text goes on. A record is described by
its fields in order; it is written as an object, whose unknown members are skipped, or as an array
of its fields.
-/

namespace BlockWatch.Json

abbrev Decoder (α : Type) : Type := List Token → Result (α × List Token)

namespace Decoder

/-- Reports a token that is no value of the expected kind. -/
def unexpected {α : Type} (expected : String) : List Token → Result α
  | .openArray :: _ => mismatch (.invalidType .array expected)
  | .openObject :: _ => mismatch (.invalidType .object expected)
  | .null :: _ => mismatch (.invalidType .null expected)
  | .boolean flag :: _ => mismatch (.invalidType (.boolean flag) expected)
  | .number text :: _ => do
    match ← numberOf text with
    | .integer n => mismatch (.invalidType (.integer n) expected)
    | .float x => mismatch (.invalidType (.float x) expected)
  | .string pieces :: _ => do mismatch (.invalidType (.string (← stringOf pieces)) expected)
  | .brokenString pieces cause :: _ => brokenString pieces cause
  | .broken cause :: _ => fail (.ofBreak cause)
  | _ :: _ => fail .syntaxError
  | [] => fail .endOfText

/-! ## Single values -/

/-- A whole number below `limit`. -/
def natural (limit : Nat) (expected : String) : Decoder Nat
  | .number text :: rest => do
    match ← numberOf text with
    | .integer n =>
      if 0 ≤ n.value ∧ n.value < limit then pure (n.value.toNat, rest)
      else mismatch (.invalidValue (.integer n) expected)
    | .float x => mismatch (.invalidType (.float x) expected)
  | input => unexpected expected input

/-- A number of any kind as floating point. -/
def float : Decoder Binary64
  | .number text :: rest => do
    match ← numberOf text with
    | .integer n =>
      let x := Binary64.ofNat n.value.natAbs
      pure (if n.value < 0 then x.neg else x, rest)
    | .float x => pure (x, rest)
  | input => unexpected "f64" input

/-- A string, under the name that errors give it. -/
def string (expected : String) : Decoder String
  | .string pieces :: rest => do pure (← stringOf pieces, rest)
  | input => unexpected expected input

def boolean : Decoder Bool
  | .boolean flag :: rest => pure (flag, rest)
  | input => unexpected "a boolean" input

/-- A value or null. -/
def optional {α : Type} (inner : Decoder α) : Decoder (Option α)
  | .null :: rest => pure (none, rest)
  | input => do
    let (value, rest) ← inner input
    pure (some value, rest)

/-- Applies a partial function to what was decoded. -/
def refine {α β : Type} (inner : Decoder α) (f : α → Result β) : Decoder β := fun input => do
  let (value, rest) ← inner input
  pure (← f value, rest)

/-! ## Skipping -/

/-- What may come next in a value that is skipped. -/
inductive Skipping
  | value (open_ : List Bool)
  | firstItem (open_ : List Bool)
  | firstKey (open_ : List Bool)
  | key (open_ : List Bool)
  | colon (open_ : List Bool)
  | more (inObject : Bool) (open_ : List Bool)

namespace Skipping

/-- What may come after a value, or nothing if it was the outermost one. -/
def after : List Bool → Option Skipping
  | [] => none
  | inObject :: rest => some (more inObject rest)

private def valueToken (open_ : List Bool) : Token → Result (Option Skipping)
  | .openArray => pure (some (firstItem open_))
  | .openObject => pure (some (firstKey open_))
  | .null | .boolean _ | .number _ | .string _ => pure (after open_)
  | .brokenString _ cause | .broken cause => fail (.ofBreak cause)
  | _ => fail .syntaxError

private def keyToken (open_ : List Bool) : Token → Result (Option Skipping)
  | .string _ => pure (some (colon open_))
  | .brokenString _ cause => fail (.ofBreak cause)
  | _ => fail .syntaxError

def step : Skipping → Token → Result (Option Skipping)
  | value o, token => valueToken o token
  | firstItem o, .closeArray => pure (after o)
  | firstItem o, token => valueToken (false :: o) token
  | firstKey o, .closeObject => pure (after o)
  | firstKey o, token => keyToken o token
  | key o, token => keyToken o token
  | colon o, .colon => pure (some (value (true :: o)))
  | colon _, _ => fail .syntaxError
  | more false o, .comma => pure (some (value (false :: o)))
  | more false o, .closeArray => pure (after o)
  | more true o, .comma => pure (some (key o))
  | more true o, .closeObject => pure (after o)
  | more .., _ => fail .syntaxError

/-- Skips to the end of the value. -/
def run (state : Skipping) : List Token → Result (List Token)
  | [] => fail .endOfText
  | token :: rest => do
    match ← state.step token with
    | none => pure rest
    | some state => run state rest

end Skipping

/-- Skips one value of any kind and depth. -/
def skip : List Token → Result (List Token) := Skipping.run (.value [])

/-! ## Records -/

/-- A field of a record that is gathered in a `π`. -/
structure Field (π : Type) where
  name : String
  /-- Whether the field was read before. -/
  isSet : π → Bool
  /-- Reads the field. -/
  read : π → Decoder π
  /-- Whether an array may end before the field. -/
  optional : Bool := false

/-- The field that is kept by `get` and `set`. -/
def field {π α : Type} (name : String) (get : π → Option α) (set : π → α → π)
    (inner : Decoder α) (optional : Bool := false) : Field π where
  name
  isSet p := (get p).isSome
  read p input := do
    let (value, rest) ← inner input
    pure (set p value, rest)
  optional

/-- How a record is read: what is gathered field by field becomes the record at the end. -/
structure Record (π α : Type) where
  name : String
  fields : List (Field π)
  blank : π
  build : π → Except Mismatch α

namespace Record

variable {π α : Type}

def expected (record : Record π α) : String := "struct " ++ record.name

/-- What an array of the fields should have been. -/
def expectedLength (record : Record π α) : String :=
  let n := record.fields.length
  record.expected ++ " with " ++ toString n ++ (if n = 1 then " element" else " elements")

private def finish (record : Record π α) (gathered : π) : Result α :=
  match record.build gathered with
  | .ok value => pure value
  | .error cause => mismatch cause

/-- The value after a key. -/
def member (record : Record π α) (gathered : π) (key : String) : Decoder π := fun input => do
  let colon : List Token → Result (List Token)
    | .colon :: rest => pure rest
    | [] => fail .endOfText
    | _ => fail .syntaxError
  match record.fields.find? (·.name == key) with
  | some field =>
    if field.isSet gathered then mismatch (.duplicateField key)
    else field.read gathered (← colon input)
  | none => do
    let rest ← skip (← colon input)
    pure (gathered, rest)

/-- The members from a key on. Each takes a token at least, so as many rounds as there are tokens
are enough. -/
def members (record : Record π α) : Nat → π → Decoder α
  | 0, _, _ => fail .endOfText
  | rounds + 1, gathered, input => do
    match input with
    | .string pieces :: rest =>
      let key ← stringOf pieces
      let (gathered, rest) ← record.member gathered key rest
      match rest with
      | .closeObject :: rest => pure (← record.finish gathered, rest)
      | .comma :: rest => members record rounds gathered rest
      | [] => fail .endOfText
      | _ => fail .syntaxError
    | .brokenString pieces cause :: _ => brokenString pieces cause
    | [] => fail .endOfText
    | _ => fail .syntaxError

/-- The end of an array whose fields were all read. -/
private def closeArray (value : α) : Decoder α
  | .closeArray :: rest => pure (value, rest)
  | [] => fail .endOfText
  | _ => fail .syntaxError

/-- The fields of an array in order, after `read` of them. -/
def items (record : Record π α) (read : Nat) (gathered : π) : List (Field π) → Decoder α
  | [], input => do closeArray (← record.finish gathered) input
  | field :: more, input => do
    match input with
    | .closeArray :: _ =>
      if field.optional then items record (read + 1) gathered more input
      else mismatch (.invalidLength read record.expectedLength)
    | .comma :: .closeArray :: _ => fail .syntaxError
    | .comma :: rest =>
      if read = 0 then fail .syntaxError
      else
        let (gathered, rest) ← field.read gathered rest
        items record (read + 1) gathered more rest
    | [] => fail .endOfText
    | input =>
      if read = 0 then
        let (gathered, rest) ← field.read gathered input
        items record (read + 1) gathered more rest
      else fail .syntaxError

def decoder (record : Record π α) : Decoder α
  | .openObject :: .closeObject :: rest => do pure (← record.finish record.blank, rest)
  | .openObject :: rest => record.members rest.length record.blank rest
  | .openArray :: rest => record.items 0 record.blank record.fields rest
  | input => unexpected record.expected input

end Record

/-! ## Alternatives without contents -/

/-- One of several names, alone or as the key of an object that holds null. -/
def variant {α : Type} (names : List (String × α)) : Decoder α :=
  let pick (name : String) : Result α :=
    match names.find? (·.1 == name) with
    | some (_, value) => pure value
    | none => mismatch (.unknownVariant name (names.map (·.1)))
  fun
    | .string pieces :: rest => do pure (← pick (← stringOf pieces), rest)
    | .brokenString pieces cause :: _ => brokenString pieces cause
    | .openObject :: .string pieces :: rest => do
      let value ← pick (← stringOf pieces)
      match rest with
      | .colon :: .null :: .closeObject :: rest => pure (value, rest)
      | [.colon, .null] => fail .endOfText
      | .colon :: .null :: _ => fail .syntaxError
      | .colon :: rest => unexpected "unit" rest
      | [] => fail .endOfText
      | _ => fail .syntaxError
    | .openObject :: rest => unexpected "variant identifier" rest
    | [] => fail .endOfText
    | _ => fail .syntaxError

/-! ## Whole texts -/

/-- Decodes a text that holds one value and nothing else. -/
def ofText {α : Type} (decoder : Decoder α) (text : String) : Result α := do
  match ← decoder (tokens text) with
  | (value, []) => pure value
  | _ => fail .syntaxError

end Decoder

/-- The members of the object that a text holds. -/
def Members.ofText (text : String) : Result Members :=
  match tokens text with
  | .openObject :: _ => do
    match ← Value.ofText text with
    | .object members => pure members
    | _ => fail .syntaxError
  | input => Decoder.unexpected "a map" input

end BlockWatch.Json
