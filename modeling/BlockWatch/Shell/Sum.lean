import BlockWatch.Shell.Word

/-!
# Sums

The arithmetic of scripts: whole numbers of 64 bits that wrap around, the operators in their usual
order, and names, which stand for the numbers in their variables. A name may be given a value.
-/

namespace BlockWatch.Shell

inductive SumFlaw
  | divisionByZero
  | expectedOperand
  | expectedEnd
  /-- The value of a variable is not a number. -/
  | badNumber (value : String)
deriving DecidableEq, Repr

/-- The complaint about a sum. -/
def SumFlaw.message (sum : String) : SumFlaw → String
  | divisionByZero => about "division by zero"
  | expectedOperand => about "expecting primary"
  | expectedEnd => about "expecting EOF"
  | badNumber value => "Illegal number: " ++ value
where
  about (what : String) : String := "arithmetic expression: " ++ what ++ ": \"" ++ sum ++ "\""

namespace Sum

/-- The operators by rank, from those that bind least. -/
def ranks : List (List String) := [
  ["||"], ["&&"], ["|"], ["^"], ["&"], ["==", "!="], ["<=", ">=", "<", ">"], ["<<", ">>"],
  ["+", "-"], ["*", "/", "%"]]

def wrap (n : Int) : Int := n.bmod UInt64.size

def truth (b : Bool) : Int := if b then 1 else 0

/-- Works on the words of two numbers. -/
def onWords (f : UInt64 → UInt64 → UInt64) (a b : Int) : Int :=
  let word (n : Int) : UInt64 := UInt64.ofNat (n % (UInt64.size : Int)).toNat
  wrap (f (word a) (word b)).toNat

def apply (operator : String) (a b : Int) : Except SumFlaw Int :=
  match operator with
  | "+" => .ok (wrap (a + b))
  | "-" => .ok (wrap (a - b))
  | "*" => .ok (wrap (a * b))
  | "/" => if b = 0 then .error .divisionByZero else .ok (wrap (a.tdiv b))
  | "%" => if b = 0 then .error .divisionByZero else .ok (wrap (a.tmod b))
  | "<<" => .ok (wrap (a * (Nat.pow 2 (b % 64).toNat : Int)))
  | ">>" => .ok (a / (Nat.pow 2 (b % 64).toNat : Int))
  | "<" => .ok (truth (a < b))
  | ">" => .ok (truth (b < a))
  | "<=" => .ok (truth (a ≤ b))
  | ">=" => .ok (truth (b ≤ a))
  | "==" => .ok (truth (a = b))
  | "!=" => .ok (truth (a ≠ b))
  | "&" => .ok (onWords (· &&& ·) a b)
  | "|" => .ok (onWords (· ||| ·) a b)
  | "^" => .ok (onWords (· ^^^ ·) a b)
  | "&&" => .ok (truth (a ≠ 0 && b ≠ 0))
  | _ => .ok (truth (a ≠ 0 || b ≠ 0))

def skipBlanks (cs : List Char) : List Char :=
  cs.dropWhile fun c => c == ' ' || c == '\t' || c == '\n'

def digitValue (c : Char) : Nat :=
  if c.isDigit then c.toNat - '0'.toNat
  else if 'a' ≤ c ∧ c ≤ 'f' then c.toNat - 'a'.toNat + 10
  else c.toNat - 'A'.toNat + 10

def isHexDigit (c : Char) : Bool :=
  c.isDigit || (decide ('a' ≤ c) && decide (c ≤ 'f')) || (decide ('A' ≤ c) && decide (c ≤ 'F'))

def inBase (base : Nat) (cs : List Char) : Int :=
  wrap ((cs.foldl (fun n c => base * n + digitValue c) 0 : Nat) : Int)

/-- A number in decimal, octal or hexadecimal digits. -/
def number (cs : List Char) : Int × List Char :=
  match cs with
  | '0' :: x :: rest =>
    if x = 'x' || x = 'X' then (inBase 16 (rest.takeWhile isHexDigit), rest.dropWhile isHexDigit)
    else (inBase 8 ((x :: rest).takeWhile Char.isDigit), (x :: rest).dropWhile Char.isDigit)
  | _ => (inBase 10 (cs.takeWhile Char.isDigit), cs.dropWhile Char.isDigit)

/-- A number with its sign, and the characters after it. -/
def signed (text : String) : Int × List Char :=
  match skipBlanks text.toList with
  | '-' :: rest =>
    let (n, rest) := number rest
    (wrap (-n), rest)
  | '+' :: rest => number rest
  | cs => number cs

/-- The number at the start of a text. -/
def ofValue (text : String) : Int := (signed text).1

/-- The number that a variable holds; one that is blank holds zero. -/
def ofVariable (value : String) : Except SumFlaw Int :=
  let (n, rest) := signed value
  if (skipBlanks rest).isEmpty then .ok n else .error (.badNumber value)

/-- The values given to names so far. -/
abbrev Given : Type := List (String × Int)

abbrev Read : Type := Int × Given × List Char

/-- The operator of a rank at the start of a text, unless it is part of a longer one. -/
def operator? (operators : List String) (cs : List Char) : Option (String × List Char) :=
  (operators.find? fun text =>
    text.toList.isPrefixOf cs &&
      match text, cs.drop text.length with
      | "|", '|' :: _ | "&", '&' :: _ | "<", '<' :: _ | ">", '>' :: _ => false
      | "<<", '=' :: _ | ">>", '=' :: _ | "+", '=' :: _ | "-", '=' :: _ => false
      | "*", '=' :: _ | "/", '=' :: _ | "%", '=' :: _ => false
      | "|", '=' :: _ | "&", '=' :: _ | "^", '=' :: _ => false
      | _, _ => true).map fun text => (text, cs.drop text.length)

/-- The operator of an assignment at the start of a text: nothing stands for plain assignment. -/
def assignment? (cs : List Char) : Option (Option String × List Char) :=
  match cs with
  | '=' :: '=' :: _ => none
  | '=' :: rest => some (none, rest)
  | _ =>
    (["+", "-", "*", "/", "%", "<<", ">>", "&", "^", "|"].find? fun text =>
      (text.toList ++ ['=']).isPrefixOf cs).map fun text =>
        (some text, cs.drop (text.length + 1))

/-- The value of a name by now. -/
def current (lookup : String → Except SumFlaw Int) (given : Given) (name : String) :
    Except SumFlaw Int :=
  match given.lookup name with
  | some value => .ok value
  | none => lookup name

mutual

/-- A sum with its condition or assignment. -/
def whole (lookup : String → Except SumFlaw Int) : Nat → Given → List Char → Except SumFlaw Read
  | 0, _, _ => .error .expectedOperand
  | rounds + 1, given, cs => do
    let cs := skipBlanks cs
    let name := cs.takeWhile isNameChar
    let isName := (name.head?.map isNameStart).getD false
    let after := skipBlanks (cs.dropWhile isNameChar)
    match if isName then assignment? after else none with
    | some (operator, rest) =>
      let (value, given, rest) ← whole lookup rounds given rest
      let name := String.ofList name
      let value ← match operator with
        | some operator => do apply operator (← current lookup given name) value
        | none => pure value
      pure (value, (name, value) :: given, rest)
    | none =>
      let (condition, given, rest) ← level lookup rounds ranks given cs
      match skipBlanks rest with
      | '?' :: rest =>
        let (accepted, given, rest) ← whole lookup rounds given rest
        match skipBlanks rest with
        | ':' :: rest =>
          let (refused, given, rest) ← whole lookup rounds given rest
          pure (if condition ≠ 0 then accepted else refused, given, rest)
        | _ => .error .expectedOperand
      | rest => pure (condition, given, rest)

/-- Operands of a rank with the operators between them. -/
def level (lookup : String → Except SumFlaw Int) : Nat → List (List String) → Given → List Char →
    Except SumFlaw Read
  | 0, _, _, _ => .error .expectedOperand
  | rounds + 1, [], given, cs => operand lookup rounds given cs
  | rounds + 1, operators :: higher, given, cs => do
    let (first, given, rest) ← level lookup rounds higher given cs
    more lookup rounds operators higher first given rest

/-- The operators and operands of a rank after the first operand. -/
def more (lookup : String → Except SumFlaw Int) : Nat → List String → List (List String) → Int → Given →
    List Char → Except SumFlaw Read
  | 0, _, _, _, _, _ => .error .expectedOperand
  | rounds + 1, operators, higher, first, given, cs => do
    match operator? operators (skipBlanks cs) with
    | some (operator, rest) =>
      let (second, given, rest) ← level lookup rounds higher given rest
      more lookup rounds operators higher (← apply operator first second) given rest
    | none => pure (first, given, cs)

def operand (lookup : String → Except SumFlaw Int) : Nat → Given → List Char → Except SumFlaw Read
  | 0, _, _ => .error .expectedOperand
  | rounds + 1, given, cs => do
    match skipBlanks cs with
    | '(' :: rest =>
      let (value, given, rest) ← whole lookup rounds given rest
      match skipBlanks rest with
      | ')' :: rest => pure (value, given, rest)
      | _ => .error .expectedOperand
    | '-' :: rest =>
      let (value, given, rest) ← operand lookup rounds given rest
      pure (wrap (-value), given, rest)
    | '+' :: rest => operand lookup rounds given rest
    | '!' :: rest =>
      let (value, given, rest) ← operand lookup rounds given rest
      pure (truth (value = 0), given, rest)
    | '~' :: rest =>
      let (value, given, rest) ← operand lookup rounds given rest
      pure (wrap (-value - 1), given, rest)
    | c :: rest =>
      if c.isDigit then
        let (value, rest) := number (c :: rest)
        pure (value, given, rest)
      else if isNameStart c then
        let name := String.ofList ((c :: rest).takeWhile isNameChar)
        pure (← current lookup given name, given, (c :: rest).dropWhile isNameChar)
      else .error .expectedOperand
    | [] => .error .expectedOperand

end

/-- The value of a sum, and the values it gives to names, the last one first. -/
def value (lookup : String → Except SumFlaw Int) (text : String) : Except SumFlaw (Int × Given) := do
  let cs := text.toList
  if (skipBlanks cs).isEmpty then pure (0, [])
  else
    let (found, given, rest) ← whole lookup (16 * (cs.length + 2)) [] cs
    if (skipBlanks rest).isEmpty then pure (found, given) else .error .expectedEnd

end Sum

end BlockWatch.Shell
