import BlockWatch.Shell.Word

/-!
# Patterns

A pattern stands for texts: a star for any text, a question mark for any character, brackets for one
of several characters, and anything else for itself.
-/

namespace BlockWatch.Shell

/-- A character of a word that is being expanded. -/
inductive Glyph
  /-- Written in the script without quotes. -/
  | plain (c : Char)
  /-- From quotes. -/
  | fixed (c : Char)
  /-- From a value without quotes, which is split into fields. -/
  | loose (c : Char)
  /-- Quotes with nothing in them; they make a field. -/
  | blank
  /-- The border between two arguments. -/
  | cut
deriving DecidableEq, Repr

namespace Glyph

def char? : Glyph → Option Char
  | plain c | fixed c | loose c => some c
  | blank | cut => none

/-- The character, if it may have a meaning in a pattern. -/
def active? : Glyph → Option Char
  | plain c | loose c => some c
  | _ => none

end Glyph

def textOf (glyphs : List Glyph) : String := String.ofList (glyphs.filterMap Glyph.char?)

inductive PatternItem
  | any
  | one
  | range (negated : Bool) (ranges : List (Char × Char))
  | char (c : Char)
deriving DecidableEq, Repr

abbrev Pattern : Type := List PatternItem

namespace Pattern

/-- The ranges up to a closing bracket, which may stand first as a member. -/
def ranges (first : Bool) : List Char → Option (List (Char × Char) × Nat)
  | [] => none
  | ']' :: rest =>
    if first then (ranges false rest).map fun (more, n) => ((']', ']') :: more, n + 1)
    else some ([], 1)
  | low :: '-' :: high :: rest =>
    if high = ']' then
      (ranges false rest).map fun (more, n) => ((low, low) :: ('-', '-') :: more, n + 3)
    else (ranges false rest).map fun (more, n) => ((low, high) :: more, n + 3)
  | c :: rest => (ranges false rest).map fun (more, n) => ((c, c) :: more, n + 1)

/-- A bracket expression after its opening bracket, and how many characters it has. -/
def bracket? (cs : List Char) : Option (PatternItem × Nat) :=
  match cs with
  | '!' :: rest | '^' :: rest => (ranges true rest).map fun (found, n) => (.range true found, n + 1)
  | rest => (ranges true rest).map fun (found, n) => (.range false found, n)

/-- Every round takes a glyph at least. -/
def ofGlyphs : Nat → List Glyph → Pattern
  | 0, _ => []
  | _, [] => []
  | rounds + 1, glyph :: rest =>
    match glyph.active? with
    | some '*' => .any :: ofGlyphs rounds rest
    | some '?' => .one :: ofGlyphs rounds rest
    | some '[' =>
      match bracket? (rest.filterMap Glyph.char?) with
      | some (item, n) => item :: ofGlyphs rounds (rest.drop n)
      | none => .char '[' :: ofGlyphs rounds rest
    | some '\\' =>
      match rest with
      | next :: rest => .char (next.char?.getD '\\') :: ofGlyphs rounds rest
      | [] => [.char '\\']
    | _ =>
      match glyph.char? with
      | some c => .char c :: ofGlyphs rounds rest
      | none => ofGlyphs rounds rest

def of (glyphs : List Glyph) : Pattern := ofGlyphs (glyphs.length + 1) glyphs

def PatternItem.fits (c : Char) : PatternItem → Bool
  | .any | .one => true
  | .range negated found => found.any (fun r => r.1 ≤ c && c ≤ r.2) != negated
  | .char d => c == d

/-- Whether a pattern fits some rest of a text, the whole text included. -/
def fitsRest (fits : List Char → Bool) : List Char → Bool
  | [] => fits []
  | c :: rest => fits (c :: rest) || fitsRest fits rest

/-- Whether a pattern fits a whole text. -/
def fits : Pattern → List Char → Bool
  | [], cs => cs.isEmpty
  | .any :: more, cs => fitsRest (fits more) cs
  | item :: more, c :: rest => PatternItem.fits c item && fits more rest
  | _ :: _, [] => false

/-- Whether a pattern stands for more than one text. -/
def isOpen (pattern : Pattern) : Bool :=
  pattern.any fun item => match item with
    | .char _ => false
    | _ => true

/-- Cuts off what a pattern fits at one end of a text. -/
def trim (trim : Trim) (pattern : Pattern) (text : String) : String :=
  let cs := text.toList
  let sizes := List.range (cs.length + 1)
  let sizes := if trim.longest then sizes.reverse else sizes
  let cut (n : Nat) : Option String :=
    if trim.fromEnd then
      if pattern.fits (cs.drop (cs.length - n)) then some (String.ofList (cs.take (cs.length - n)))
      else none
    else if pattern.fits (cs.take n) then some (String.ofList (cs.drop n))
    else none
  (sizes.findSome? cut).getD text

end Pattern

end BlockWatch.Shell
