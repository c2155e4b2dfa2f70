import BlockWatch.Shell.State
import BlockWatch.Shell.Sum

/-!
# Tests

The conditions that scripts test: texts that are empty or equal, numbers compared, and what is in the
store. A part that could be an operator is one only where an operand can follow.
-/

namespace BlockWatch.Shell.Test

/-- Whether the entry at a path is as an operator asks. -/
def ofEntry (s : Store) (operator path : String) : Bool :=
  let entry (follow : Bool) : Option Entry := match s.find follow ⟨path⟩ with
    | .ok (_, entry) => some entry
    | .error _ => none
  match operator, entry true with
  | "-h", _ | "-L", _ => match entry false with
    | some (.link _) => true
    | _ => false
  | "-f", some (.file ..) | "-f", some (.tool _) => true
  | "-d", some (.directory _) => true
  | "-c", some .device => true
  | "-x", some (.file _ executable) => executable
  | "-x", some (.directory _) | "-x", some (.tool _) => true
  | "-s", some (.file contents _) => !contents.isEmpty
  | "-s", some (.directory _) => true
  | "-e", some _ | "-r", some _ | "-w", some _ | "-O", some _ | "-G", some _ => true
  | _, _ => false

/-- A number with blanks around it. -/
def number? (text : String) : Option Int :=
  let isBlank (c : Char) : Bool := c == ' ' || c == '\t' || c == '\n'
  let cs := ((text.toList.dropWhile isBlank).reverse.dropWhile isBlank).reverse
  let digits (cs : List Char) : Option Int :=
    if !cs.isEmpty && cs.all Char.isDigit then
      some ((cs.foldl (fun n c => 10 * n + Sum.digitValue c) 0 : Nat) : Int)
    else none
  match cs with
  | '-' :: rest => (digits rest).map (-·)
  | '+' :: rest => digits rest
  | cs => digits cs

/-- A comparison of two numbers. -/
def comparison? : String → Option (Int → Int → Bool)
  | "-eq" => some fun a b => a == b
  | "-ne" => some fun a b => a != b
  | "-lt" => some fun a b => decide (a < b)
  | "-le" => some fun a b => decide (a ≤ b)
  | "-gt" => some fun a b => decide (b < a)
  | "-ge" => some fun a b => decide (b ≤ a)
  | _ => none

/-- The operators before one operand. -/
def unaryOperators : List String :=
  ["-b", "-c", "-d", "-e", "-f", "-g", "-G", "-h", "-k", "-L", "-n", "-O", "-p", "-r", "-s", "-S",
   "-t", "-u", "-w", "-x", "-z"]

/-- The operators between two operands. -/
def binaryOperators : List String :=
  ["=", "!=", "<", ">", "-eq", "-ne", "-lt", "-le", "-gt", "-ge", "-nt", "-ot", "-ef"]

abbrev Result : Type := Except String Bool

def unary (s : Store) (operator operand : String) : Bool :=
  match operator with
  | "-n" => !operand.isEmpty
  | "-z" => operand.isEmpty
  | _ => ofEntry s operator operand

def binary (s : Store) (operator first second : String) : Result :=
  match operator with
  | "=" => .ok (first == second)
  | "!=" => .ok (first != second)
  | "<" => .ok (decide (first < second))
  | ">" => .ok (decide (second < first))
  | "-ef" =>
    match s.find true ⟨first⟩, s.find true ⟨second⟩ with
    | .ok (here, _), .ok (there, _) => .ok (here == there)
    | _, _ => .ok false
  | _ =>
    match comparison? operator with
    | none => .ok false
    | some compare =>
      match number? first, number? second with
      | some a, some b => .ok (compare a b)
      | none, _ => .error ("Illegal number: " ++ first)
      | _, none => .error ("Illegal number: " ++ second)

/-- What a condition says, the last part that it took, and the parts that are left. -/
abbrev Read : Type := Bool × String × List String

/-- Whether a part before some others is an operator of one operand: where two operands could be
compared it is an operand. -/
def isUnary (part : String) : List String → Bool
  | next :: _ :: _ => part ∈ unaryOperators && next ∉ binaryOperators
  | [_] => part ∈ unaryOperators
  | [] => false

mutual

/-- Conditions joined by `-o`. Every two rounds take a part at least. -/
def anyOf (s : Store) : Nat → List String → Except String Read
  | 0, parts => .ok (false, "", parts)
  | rounds + 1, parts => do
    match ← allOf s rounds parts with
    | (first, _, "-o" :: rest) =>
      let (second, rest) ← anyOf s rounds rest
      pure (first || second, rest)
    | found => pure found

/-- Conditions joined by `-a`. -/
def allOf (s : Store) : Nat → List String → Except String Read
  | 0, parts => .ok (false, "", parts)
  | rounds + 1, parts => do
    match ← one s rounds parts with
    | (first, _, "-a" :: rest) =>
      let (second, rest) ← allOf s rounds rest
      pure (first && second, rest)
    | found => pure found

def one (s : Store) : Nat → List String → Except String Read
  | 0, parts => .ok (false, "", parts)
  | _, [] => .ok (false, "", [])
  | rounds + 1, part :: rest => do
    if part = "!" then
      let (found, rest) ← one s rounds rest
      pure (!found, rest)
    else match part, rest with
      | "(", ")" :: rest => pure (false, ")", rest)
      | "(", inner :: rest =>
        match ← anyOf s rounds (inner :: rest) with
        | (found, _, ")" :: rest) => pure (found, ")", rest)
        | _ => throw "closing paren expected"
      | _, _ =>
        match isUnary part rest, rest with
        | true, operand :: rest => pure (unary s part operand, operand, rest)
        | _, operator :: rest =>
          if operator ∈ binaryOperators then
            match rest with
            | second :: rest => pure (← binary s operator part second, second, rest)
            | [] => throw (operator ++ ": argument expected")
          else pure (!part.isEmpty, part, operator :: rest)
        | _, [] => pure (!part.isEmpty, part, [])

end

/-- Tests an expression that has no part after its end. -/
def whole (s : Store) (parts : List String) : Result := do
  match ← anyOf s (4 * parts.length + 4) parts with
  | (found, _, []) => pure found
  | (_, last, _) => throw (last ++ ": unexpected operator")

/-- Tests an expression. Of three or four parts, a negation or parentheses go before everything
else, and two negations in a row count as one. -/
def holds (s : Store) (parts : List String) : Result :=
  match parts with
  | [first, operator, last] =>
    if operator ∈ binaryOperators then whole s parts
    else outer [first, operator, last]
  | [_, _, _, _] => outer parts
  | _ => whole s parts
where
  outer (parts : List String) : Result :=
    match parts with
    | "(" :: rest =>
      if rest.getLast? = some ")" then whole s rest.dropLast else whole s parts
    | ["!", "!", operand, last] =>
      if operand ∈ binaryOperators then (whole s ["!", operand, last]).map (!·)
      else (whole s [operand, last]).map (!·)
    | "!" :: rest => (whole s rest).map (!·)
    | _ => whole s parts

end BlockWatch.Shell.Test
