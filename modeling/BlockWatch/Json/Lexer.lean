import BlockWatch.Json.Token

/-!
# Cutting a text into tokens

`tokens` reads a text from left to right. Each token takes at least one character, so the list ends;
a token that breaks off takes the whole rest.
-/

namespace BlockWatch.Json

namespace Lexer

/-- The blanks between tokens. -/
def isSpace (c : Char) : Bool := c == ' ' || c == '\n' || c == '\t' || c == '\r'

def digit (c : Char) : Nat := c.toNat - '0'.toNat

/-- The digits at the front. -/
def digits (s : List Char) : List Nat := (s.takeWhile Char.isDigit).map digit

def afterDigits (s : List Char) : List Char := s.dropWhile Char.isDigit

/-- Ends the text here, or not as expected. -/
def breakAt : List Char → Break
  | [] => .early
  | _ :: _ => .wrong

/-! ## Words -/

/-- A token that is spelled out by the given characters. -/
def word (token : Token) : List Char → List Char → Token × List Char
  | [], s => (token, s)
  | c :: more, d :: s => if c = d then word token more s else (.broken .wrong, [])
  | _ :: _, [] => (.broken .early, [])

/-! ## Numbers -/

/-- What may follow the whole part and the fraction: an exponent. -/
def numberExponent (text : NumberText) : List Char → Token × List Char
  | c :: s =>
    if c = 'e' || c = 'E' then
      let (negative, s) := match s with
        | '+' :: rest => (false, rest)
        | '-' :: rest => (true, rest)
        | s => (false, s)
      match digits s with
      | [] => (.broken (breakAt s), [])
      | found => (.number { text with exponent := some (negative, found) }, afterDigits s)
    else (.number text, c :: s)
  | [] => (.number text, [])

/-- What may follow the whole part: a fraction. -/
def numberFraction (text : NumberText) : List Char → Token × List Char
  | '.' :: s =>
    match digits s with
    | [] => (.broken (breakAt s), [])
    | found => numberExponent { text with fraction := some found } (afterDigits s)
  | s => numberExponent text s

/-- A number after its sign. A leading zero stands alone. -/
def number (negative : Bool) (s : List Char) : Token × List Char :=
  match digits s with
  | [] => (.broken (breakAt s), [])
  | 0 :: _ :: _ => (.broken .wrong, [])
  | found => numberFraction ⟨negative, found, none, none⟩ (afterDigits s)

/-! ## Strings -/

/-- The value of a hexadecimal digit. -/
def hexDigit? (c : Char) : Option Nat :=
  let n := c.toNat
  if '0'.toNat ≤ n ∧ n ≤ '9'.toNat then some (n - '0'.toNat)
  else if 'a'.toNat ≤ n ∧ n ≤ 'f'.toNat then some (n - 'a'.toNat + 10)
  else if 'A'.toNat ≤ n ∧ n ≤ 'F'.toNat then some (n - 'A'.toNat + 10)
  else none

/-- Whether fewer than four bytes are left. -/
def endsWithinFour (s : List Char) : Bool :=
  decide ((s.take 4).foldl (fun n c => n + c.utf8Size) 0 < 4)

/-- The number behind `\u`. -/
def unit? (s : List Char) : Except Break (Nat × List Char) :=
  if endsWithinFour s then .error .early
  else match s with
    | a :: b :: c :: d :: rest =>
      match hexDigit? a, hexDigit? b, hexDigit? c, hexDigit? d with
      | some a, some b, some c, some d => .ok (((a * 16 + b) * 16 + c) * 16 + d, rest)
      | _, _, _, _ => .error .wrong
    | _ => .error .wrong

/-- The character that a one-letter escape stands for. -/
def escape? (c : Char) : Option Char :=
  if c = '"' then some '"'
  else if c = '\\' then some '\\'
  else if c = '/' then some '/'
  else if c = 'b' then some (Char.ofNat 8)
  else if c = 'f' then some (Char.ofNat 12)
  else if c = 'n' then some '\n'
  else if c = 'r' then some '\r'
  else if c = 't' then some '\t'
  else none

theorem unit?_length {s rest : List Char} {n : Nat} (h : unit? s = .ok (n, rest)) :
    rest.length < s.length := by
  unfold unit? at h
  split at h
  · cases h
  · split at h
    · split at h
      · cases h
        simp only [List.length_cons]
        omega
      · cases h
    · cases h

/-- A string after its opening quote; `done` holds the pieces so far, the last one first. -/
def string (done : List Piece) (s : List Char) : Token × List Char :=
  match s with
  | [] => (.brokenString done.reverse .early, [])
  | '"' :: rest => (.string done.reverse, rest)
  | '\\' :: 'u' :: rest =>
    match h : unit? rest with
    | .ok (n, after) =>
      have := unit?_length h
      string (.unit n :: done) after
    | .error cause => (.brokenString done.reverse cause, [])
  | '\\' :: c :: rest =>
    match escape? c with
    | some plain => string (.char plain :: done) rest
    | none => (.brokenString done.reverse .wrong, [])
  | ['\\'] => (.brokenString done.reverse .early, [])
  | c :: rest =>
    if c.toNat < 32 then (.brokenString done.reverse .wrong, [])
    else string (.char c :: done) rest
termination_by s.length
decreasing_by all_goals simp_wf; try omega

/-! ## Texts -/

/-- The token at the front of a text that does not start with a blank. -/
def next (c : Char) (s : List Char) : Token × List Char :=
  if c = '[' then (.openArray, s)
  else if c = ']' then (.closeArray, s)
  else if c.toNat = 0x7b then (.openObject, s)
  else if c.toNat = 0x7d then (.closeObject, s)
  else if c = ':' then (.colon, s)
  else if c = ',' then (.comma, s)
  else if c = 'n' then word .null ['u', 'l', 'l'] s
  else if c = 't' then word (.boolean true) ['r', 'u', 'e'] s
  else if c = 'f' then word (.boolean false) ['a', 'l', 's', 'e'] s
  else if c = '"' then string [] s
  else if c = '-' then number true s
  else if c.isDigit then number false (c :: s)
  else (.broken .wrong, [])

theorem word_length (token : Token) (spelling s : List Char) :
    (word token spelling s).2.length ≤ s.length := by
  induction spelling generalizing s with
  | nil => simp [word]
  | cons c more ih =>
    cases s with
    | nil => simp [word]
    | cons d s =>
      simp only [word]
      split
      · have := ih s
        simp only [List.length_cons]
        omega
      · simp

theorem length_dropWhile_le {α : Type} (p : α → Bool) (s : List α) :
    (s.dropWhile p).length ≤ s.length :=
  (List.dropWhile_sublist p).length_le

theorem numberExponent_length (text : NumberText) (s : List Char) :
    (numberExponent text s).2.length ≤ s.length := by
  cases s with
  | nil => simp [numberExponent]
  | cons c s =>
    simp only [numberExponent]
    split
    · split <;> split <;>
        simp only [List.length_nil, List.length_cons, Nat.zero_le, afterDigits] <;>
        (refine Nat.le_trans (length_dropWhile_le _ _) ?_; omega)
    · simp

theorem numberFraction_length (text : NumberText) (s : List Char) :
    (numberFraction text s).2.length ≤ s.length := by
  unfold numberFraction
  split
  · split
    · simp
    · refine Nat.le_trans (numberExponent_length _ _) ?_
      refine Nat.le_trans (length_dropWhile_le _ _) ?_
      simp
  · exact numberExponent_length _ _

theorem number_length (negative : Bool) (s : List Char) :
    (number negative s).2.length ≤ s.length := by
  unfold number
  split
  · simp
  · simp
  · refine Nat.le_trans (numberFraction_length _ _) ?_
    exact length_dropWhile_le _ _

theorem string_length (done : List Piece) (s : List Char) :
    (string done s).2.length ≤ s.length := by
  fun_induction string done s <;> simp_all <;> omega

theorem number_digit_length (c : Char) (s : List Char) (h : c.isDigit = true) :
    (number false (c :: s)).2.length ≤ s.length := by
  unfold number
  split
  · simp
  · simp
  · refine Nat.le_trans (numberFraction_length _ _) ?_
    simp only [afterDigits, List.dropWhile_cons, h, if_true]
    exact length_dropWhile_le _ _

theorem next_length (c : Char) (s : List Char) : (next c s).2.length ≤ s.length := by
  fun_cases next c s
  case case7 | case8 | case9 => exact word_length _ _ _
  case case10 => exact string_length _ _
  case case11 => exact number_length _ _
  case case12 => exact number_digit_length _ _ (by assumption)
  all_goals simp

/-- The tokens of a text. -/
def tokensOf (s : List Char) : List Token :=
  match s with
  | [] => []
  | c :: rest =>
    if isSpace c then tokensOf rest
    else
      have := next_length c rest
      (next c rest).1 :: tokensOf (next c rest).2
termination_by s.length
decreasing_by all_goals simp_wf; try omega

end Lexer

/-- The tokens of a text. -/
def tokens (text : String) : List Token := Lexer.tokensOf text.toList

end BlockWatch.Json
