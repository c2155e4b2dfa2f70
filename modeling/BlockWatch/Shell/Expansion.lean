import BlockWatch.Shell.Pattern
import BlockWatch.Shell.State
import BlockWatch.Shell.Sum

/-!
# Expansion

How a word becomes texts: its parameters, sums and outputs are put in, what came from them is split
into fields, and fields that are patterns become the paths they fit. How a script inside a word is
run is left to a function.
-/

namespace BlockWatch.Shell

namespace Expansion

def glyphs (inQuotes : Bool) (text : String) : List Glyph :=
  if inQuotes then
    if text.isEmpty then [.blank] else text.toList.map .fixed
  else text.toList.map .loose

/-- The arguments with a border between any two. -/
def argumentGlyphs (inQuotes : Bool) : List String → List Glyph
  | [] => []
  | [argument] => glyphs inQuotes argument
  | argument :: rest => glyphs inQuotes argument ++ .cut :: argumentGlyphs inQuotes rest

/-- The value of a parameter. -/
def parameter (name : String) (inQuotes : Bool) : Act (List Glyph) := do
  let s ← get
  if name = "@" || (name = "*" && !inQuotes) then pure (argumentGlyphs inQuotes s.arguments)
  else match s.value? name with
    | some value => pure (glyphs inQuotes value)
    | none =>
      if s.complete then giveUp (name ++ ": parameter not set")
      else pure (glyphs inQuotes "")

/-- The characters without line breaks at the end. -/
def trimEnd (text : String) : String :=
  String.ofList (text.toList.reverse.dropWhile (· == '\n')).reverse

/-- The value of a sum; names are given their new values. -/
def sum (text : String) : Act String := do
  let s ← get
  let lookup (name : String) : Except SumFlaw Int := Sum.ofVariable ((s.value? name).getD "0")
  match Sum.value lookup text with
  | .ok (value, given) =>
    for (name, value) in given.reverse do
      assign name (toString value)
    pure (toString value)
  | .error flaw => giveUp (flaw.message text)

mutual

/-- One piece of a word; `run` gives what a script prints. -/
def piece (run : String → Act String) : Piece → Act (List Glyph)
  | .text s => pure (s.toList.map .plain)
  | .quoted s => pure (glyphs true s)
  | .parameter name inQuotes => parameter name inQuotes
  | .length name => do
    let s ← get
    pure ((toString ((s.value? name).getD "").utf8ByteSize).toList.map .fixed)
  | .fallback name how orEmpty given inQuotes => do
    let s ← get
    let value := s.value? name
    let absent := match value with
      | none => true
      | some value => orEmpty && value.isEmpty
    match how with
    | .use => if absent then pieces run given else parameter name inQuotes
    | .alternative => if absent then pure (glyphs inQuotes "") else pieces run given
    | .assign =>
      if absent then
        let found ← pieces run given
        assign name (textOf found)
        pure found
      else parameter name inQuotes
    | .fail =>
      if absent then
        let found := textOf (← pieces run given)
        giveUp (name ++ ": " ++ if found.isEmpty then "parameter not set or null" else found)
      else parameter name inQuotes
  | .trimmed name trim pattern inQuotes => do
    let s ← get
    let found ← pieces run pattern
    pure (glyphs inQuotes (Pattern.trim trim (.of found) ((s.value? name).getD "")))
  | .output script inQuotes => do
    pure (glyphs inQuotes (trimEnd (← run script)))
  | .sum inner inQuotes => do
    let text := textOf (← pieces run inner)
    pure (glyphs inQuotes (← sum text))
  | .malformed => giveUp "Bad substitution"

def pieces (run : String → Act String) : List Piece → Act (List Glyph)
  | [] => pure []
  | first :: rest => do
    let found ← piece run first
    let more ← pieces run rest
    pure (found ++ more)

end

/-! ## Fields -/

/-- The characters that separate fields. -/
def separators (s : State) : List Char :=
  ((s.bindings.lookup "IFS").getD " \t\n").toList

/-- Splits glyphs into fields. Blank separators in a row count as one, other separators each end a
field. -/
def fields (separators : List Char) : List Glyph → List Glyph → List (List Glyph)
  | [], [] => []
  | field, [] => [field.reverse]
  | field, .cut :: rest =>
    if field.isEmpty then fields separators [] rest
    else field.reverse :: fields separators [] rest
  | field, .loose c :: rest =>
    if c ∈ separators then
      if field.isEmpty && (c == ' ' || c == '\t' || c == '\n') then fields separators [] rest
      else field.reverse :: fields separators [] rest
    else fields separators (.loose c :: field) rest
  | field, glyph :: rest => fields separators (glyph :: field) rest

/-- The parts between slashes. -/
def components : List Glyph → List (List Glyph)
  | [] => [[]]
  | glyph :: rest =>
    if glyph.char? = some '/' then [] :: components rest
    else match components rest with
      | [] => [[glyph]]
      | part :: parts => (glyph :: part) :: parts

/-- The paths that fit some components after a path that is there. A name that starts with a dot fits
only a pattern that starts with one. -/
def matchesAfter (store : Store) : List (List Glyph) → String → List String
  | [], found => [found]
  | part :: rest, found =>
    let pattern : Pattern := .of part
    let next (name : String) : List String :=
      matchesAfter store rest (found ++ name ++ if rest.isEmpty then "" else "/")
    if pattern.isOpen then
      match store.list ⟨if found.isEmpty then "." else found⟩ with
      | .error _ => []
      | .ok entries =>
        let names := entries.map (·.1)
        let shown := names.filter fun name =>
          pattern.fits name.toList &&
            (!name.startsWith "." || pattern.head? == some (.char '.'))
        shown.flatMap next
    else next (textOf part)

/-- The paths that a field fits, or its text if it fits none or is no pattern. -/
def paths (store : Store) (field : List Glyph) : List String :=
  if (Pattern.of field).isOpen then
    let found := (matchesAfter store (components field) "").filter fun path =>
      match store.find false ⟨path⟩ with
      | .ok _ => true
      | .error _ => false
    if found.isEmpty then [textOf field] else found
  else [textOf field]

/-- The texts that a word becomes. -/
def texts (run : String → Act String) (word : Word) : Act (List String) := do
  let found ← pieces run word
  let s ← get
  let found := fields (separators s) [] found
  pure (if s.verbatim then found.map textOf else found.flatMap (paths s.store))

def allTexts (run : String → Act String) : List Word → Act (List String)
  | [] => pure []
  | word :: rest => do
    let found ← texts run word
    let more ← allTexts run rest
    pure (found ++ more)

/-- The one text of a word where nothing is split. -/
def text (run : String → Act String) (word : Word) : Act String := do
  let found ← pieces run word
  pure (textOf (found.map fun glyph => if glyph = .cut then .fixed ' ' else glyph))

end Expansion

end BlockWatch.Shell
