import BlockWatch.Shell.Sum

/-!
# Printed text

The texts that scripts print: escapes for bytes, and formats whose directives take arguments. A
format is used again as long as there are arguments left.
-/

namespace BlockWatch.Shell

namespace Printed

def bytesOf (text : String) : List UInt8 := text.toUTF8.toList

def isOctal (c : Char) : Bool := decide ('0' ≤ c) && decide (c ≤ '7')

def octal (cs : List Char) : UInt8 := UInt8.ofNat (cs.foldl (fun n c => 8 * n + digitOf c) 0)
where
  digitOf (c : Char) : Nat := c.toNat - '0'.toNat

/-- The byte of a letter after a backslash. -/
def escaped? : Char → Option UInt8
  | 'a' => some 7
  | 'b' => some 8
  | 'e' => some 27
  | 'f' => some 12
  | 'n' => some 10
  | 'r' => some 13
  | 't' => some 9
  | 'v' => some 11
  | '\\' => some 92
  | _ => none

/-- The bytes of a text with escapes, and whether it asks for no more output. An octal escape starts
with a zero. -/
def unescape : Nat → List Char → List UInt8 × Bool
  | 0, _ => ([], false)
  | _, [] => ([], false)
  | rounds + 1, '\\' :: c :: rest =>
    match c, escaped? c with
    | 'c', _ => ([], true)
    | '0', _ =>
      let digits := (rest.take 3).takeWhile isOctal
      let (more, stop) := unescape rounds (rest.drop digits.length)
      (octal digits :: more, stop)
    | _, some byte =>
      let (more, stop) := unescape rounds rest
      (byte :: more, stop)
    | _, none =>
      let (more, stop) := unescape rounds (c :: rest)
      (92 :: more, stop)
  | rounds + 1, c :: rest =>
    let (more, stop) := unescape rounds rest
    (bytesOf (String.singleton c) ++ more, stop)

def unescaped (text : String) : List UInt8 × Bool :=
  unescape (text.length + 1) text.toList

/-! ## Formats -/

/-- A directive: its flags, its width, its precision and its letter. -/
structure Directive where
  flags : List Char
  width : Nat
  precision : Option Nat
  letter : Char

def natOf (cs : List Char) : Nat := ((String.ofList cs).toNat?).getD 0

/-- The directive after a percent sign. -/
def directive? (cs : List Char) : Option (Directive × List Char) :=
  let isFlag (c : Char) : Bool := c ∈ ['-', '0', '+', ' ', '#']
  let flags := cs.takeWhile isFlag
  let rest := cs.dropWhile isFlag
  let width := rest.takeWhile Char.isDigit
  let rest := rest.dropWhile Char.isDigit
  let (precision, rest) := match rest with
    | '.' :: rest => (some (natOf (rest.takeWhile Char.isDigit)), rest.dropWhile Char.isDigit)
    | rest => (none, rest)
  match rest with
  | letter :: rest => some (⟨flags, natOf width, precision, letter⟩, rest)
  | [] => none

/-- Fills up to the width of a directive. -/
def Directive.pad (d : Directive) (isNumber : Bool) (bytes : List UInt8) : List UInt8 :=
  let missing := d.width - bytes.length
  if d.flags.contains '-' then bytes ++ List.replicate missing 32
  else if isNumber && d.flags.contains '0' then
    match bytes with
    | 45 :: digits => 45 :: List.replicate missing 48 ++ digits
    | digits => List.replicate missing 48 ++ digits
  else List.replicate missing 32 ++ bytes

def inDigits (base : Nat) (upper : Bool) (n : Int) : List UInt8 :=
  let magnitude := String.ofList (Nat.toDigits base (n % (UInt64.size : Int)).toNat)
  bytesOf (if upper then magnitude.toUpper else magnitude)

/-- The number of an argument. -/
def numberOf (text : String) : Int :=
  match text.toList with
  | '\'' :: c :: _ => c.toNat
  | '"' :: c :: _ => c.toNat
  | _ => Sum.ofValue text

/-- What is wrong with an argument that is to be a number. -/
def flaw? (text : String) : Option String :=
  match text.toList with
  | '\'' :: _ | '"' :: _ => none
  | cs =>
    let rest := (Sum.signed text).2
    if rest.isEmpty then none
    else if rest.length = (Sum.skipBlanks cs).length then some "expected numeric value"
    else some "not completely converted"

/-- What a directive prints for an argument. -/
def Directive.show (d : Directive) (argument : Option String) : List UInt8 × Bool :=
  let text := argument.getD ""
  let number := numberOf text
  let cut (bytes : List UInt8) : List UInt8 := match d.precision with
    | some most => bytes.take most
    | none => bytes
  match d.letter with
  | 's' => (d.pad false (cut (bytesOf text)), false)
  | 'b' =>
    let (bytes, stop) := unescaped text
    (d.pad false (cut bytes), stop)
  | 'c' => (d.pad false ((bytesOf text).take 1), false)
  | 'x' => (d.pad true (inDigits 16 false number), false)
  | 'X' => (d.pad true (inDigits 16 true number), false)
  | 'o' => (d.pad true (inDigits 8 false number), false)
  | 'u' => (d.pad true (inDigits 10 false number), false)
  | _ =>
    let sign := if d.flags.contains '+' && 0 ≤ number then "+" else ""
    (d.pad true (bytesOf (sign ++ toString number)), false)

/-- Whether a directive takes a number. -/
def Directive.isNumeric (d : Directive) : Bool := d.letter ∈ ['d', 'i', 'o', 'u', 'x', 'X']

def Directive.isKnown (d : Directive) : Bool := d.isNumeric || d.letter ∈ ['s', 'b', 'c']

/-- What a format has printed: the bytes, the complaints, and whether nothing more is printed. -/
structure Print where
  bytes : List UInt8 := []
  complaints : List String := []
  stops : Bool := false

namespace Print

/-- One print after another. -/
def append (first second : Print) : Print :=
  ⟨first.bytes ++ second.bytes, first.complaints ++ second.complaints, second.stops⟩

/-- Whether the format itself is wrong. -/
def isFaulty (print : Print) : Bool := print.stops && !print.complaints.isEmpty

/-- The print of a directive and an argument. -/
def ofDirective (d : Directive) (argument : Option String) : Print :=
  let (bytes, stops) := d.show argument
  let complaints := match argument with
    | some text =>
      if d.isNumeric then ((flaw? text).map (text ++ ": " ++ ·)).toList else []
    | none => []
  ⟨bytes, complaints, stops⟩

end Print

/-- One pass over a format: what it prints, and the arguments that are left. -/
def pass : Nat → List Char → List String → Print × List String
  | 0, _, arguments => (⟨[], [], false⟩, arguments)
  | _, [], arguments => (⟨[], [], false⟩, arguments)
  | rounds + 1, '\\' :: c :: rest, arguments =>
    let after (bytes : List UInt8) (rest : List Char) : Print × List String :=
      let (more, left) := pass rounds rest arguments
      (.append ⟨bytes, [], false⟩ more, left)
    if isOctal c then
      let digits := ((c :: rest).take 3).takeWhile isOctal
      after [octal digits] ((c :: rest).drop digits.length)
    else if c = 'c' then (⟨[], [], true⟩, arguments)
    else if c = '"' then after [34] rest
    else match escaped? c with
      | some byte => after [byte] rest
      | none => after [92] (c :: rest)
  | rounds + 1, '%' :: '%' :: rest, arguments =>
    let (more, left) := pass rounds rest arguments
    (.append ⟨[37], [], false⟩ more, left)
  | rounds + 1, '%' :: rest, arguments =>
    match directive? rest with
    | some (d, after) =>
      if d.isKnown then
        let print := Print.ofDirective d arguments.head?
        if print.stops then (print, arguments.drop 1)
        else
          let (more, left) := pass rounds after (arguments.drop 1)
          (.append print more, left)
      else
        let written := String.ofList (rest.take (rest.length - after.length))
        (⟨[], ["%" ++ written ++ ": invalid directive"], true⟩, arguments)
    | none => (⟨[], ["missing format character"], true⟩, arguments)
  | rounds + 1, c :: rest, arguments =>
    let (more, left) := pass rounds rest arguments
    (.append ⟨bytesOf (String.singleton c), [], false⟩ more, left)

/-- Uses a format as often as there are arguments for it. -/
def passes (format : List Char) : Nat → List String → Print
  | 0, _ => ⟨[], [], false⟩
  | rounds + 1, arguments =>
    let (print, left) := pass (format.length + 1) format arguments
    if print.stops || left.isEmpty || left.length = arguments.length then print
    else .append print (passes format rounds left)

def formatted (format : String) (arguments : List String) : Print :=
  passes format.toList (arguments.length + 1) arguments

end Printed

end BlockWatch.Shell
