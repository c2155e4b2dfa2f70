import BlockWatch.Shell.Word

/-!
# Tokens of a script

A script is cut into words, operators and ends of lines. Every token knows its line. A quote that is
not closed breaks the script where it opens, so what stands before it can still be run.
-/

namespace BlockWatch.Shell

inductive Token
  | word (w : Word)
  | operator (text : String)
  | newline
  /-- The number of a stream, right before a redirection. -/
  | stream (number : Nat)
  /-- The lines that a redirection takes from the script itself. -/
  | document (w : Word)
  | broken (complaint : String)

structure Lexeme where
  token : Token
  line : Nat

namespace Token

/-- What was read, and the characters that are left. -/
abbrev Read (α : Type) : Type := α × List Char

def unterminatedQuote : String := "Unterminated quoted string"

/-! ## Words -/

/-- Where a run of pieces ends. -/
inductive Bounds
  /-- At a blank or an operator. -/
  | bare
  /-- At a closing brace. -/
  | braces (inQuotes : Bool)
  /-- At a double quote. -/
  | quotes
  /-- At the end of the text. -/
  | text
deriving DecidableEq

namespace Bounds

def inQuotes : Bounds → Bool
  | bare => false
  | braces inQuotes => inQuotes
  | quotes | text => true

def stops : Bounds → Char → Bool
  | bare, c => c ∈ [' ', '\t', '\n', ';', '&', '|', '<', '>', '(', ')']
  | braces _, c => c == '}'
  | quotes, c => c == '"'
  | text, _ => false

/-- Whether the text may end here. -/
def mayEnd : Bounds → Bool
  | bare | text => true
  | _ => false

end Bounds

/-- Puts a character before some pieces. -/
def push (inQuotes : Bool) (c : Char) (pieces : List Piece) : List Piece :=
  match inQuotes, pieces with
  | true, .quoted s :: rest => .quoted (String.singleton c ++ s) :: rest
  | false, .text s :: rest => .text (String.singleton c ++ s) :: rest
  | true, pieces => .quoted (String.singleton c) :: pieces
  | false, pieces => .text (String.singleton c) :: pieces

/-- The characters up to a closing one, which is dropped. -/
def upTo (close : Char) : List Char → Except String (Read (List Char))
  | [] => .error unterminatedQuote
  | c :: rest =>
    if c = close then .ok ([], rest)
    else do
      let (inner, rest) ← upTo close rest
      pure (c :: inner, rest)

/-- The characters up to a back quote, without the backslashes that protect some of them. -/
def upToBackQuote : List Char → Except String (Read (List Char))
  | [] => .error "EOF in backquote substitution"
  | '\\' :: c :: rest => do
    let (inner, rest) ← upToBackQuote rest
    pure (if c ∈ ['\x60', '\\', '$'] then c :: inner else '\\' :: c :: inner, rest)
  | c :: rest =>
    if c = '\x60' then .ok ([], rest)
    else do
      let (inner, rest) ← upToBackQuote rest
      pure (c :: inner, rest)

/-- What surrounds a character on the way to a closing parenthesis. -/
inductive Around
  | nothing
  | single
  | double
deriving DecidableEq

/-- The characters up to the parenthesis that closes `depth + 1` open ones. -/
def upToParenthesis : Nat → Around → List Char → Except String (Read (List Char))
  | _, _, [] => .error "end of file unexpected (expecting \")\")"
  | depth, around, '\\' :: c :: rest =>
    if around = .single then do
      let (inner, rest) ← upToParenthesis depth (if c = '\'' then .nothing else .single) rest
      pure ('\\' :: c :: inner, rest)
    else do
      let (inner, rest) ← upToParenthesis depth around rest
      pure ('\\' :: c :: inner, rest)
  | depth, around, c :: rest =>
    let continue_ (depth : Nat) (around : Around) : Except String (Read (List Char)) := do
      let (inner, rest) ← upToParenthesis depth around rest
      pure (c :: inner, rest)
    match around with
    | .single => continue_ depth (if c = '\'' then .nothing else .single)
    | .double => continue_ depth (if c = '"' then .nothing else .double)
    | .nothing =>
      if c = '\'' then continue_ depth .single
      else if c = '"' then continue_ depth .double
      else if c = '(' then continue_ (depth + 1) .nothing
      else if c = ')' then
        match depth with
        | 0 => .ok ([], rest)
        | depth + 1 => continue_ depth .nothing
      else continue_ depth .nothing

/-- The name of a parameter. -/
def parameterName (cs : List Char) : Option (String × List Char) :=
  match cs with
  | [] => none
  | c :: rest =>
    if isNameStart c then
      some (String.ofList (cs.takeWhile isNameChar), cs.dropWhile isNameChar)
    else if c.isDigit || c ∈ ['@', '*', '#', '?', '-', '$', '!'] then
      some (String.singleton c, rest)
    else none

/-- What may follow a name in braces. -/
inductive Operation
  | plain
  | fallback (how : Fallback) (orEmpty : Bool)
  | trim (trim : Trim)

def fallbackOf : Char → Option Fallback
  | '-' => some .use
  | '=' => some .assign
  | '+' => some .alternative
  | '?' => some .fail
  | _ => none

def operation : List Char → Option (Operation × List Char)
  | '}' :: rest => some (.plain, rest)
  | '#' :: '#' :: rest => some (.trim ⟨false, true⟩, rest)
  | '#' :: rest => some (.trim ⟨false, false⟩, rest)
  | '%' :: '%' :: rest => some (.trim ⟨true, true⟩, rest)
  | '%' :: rest => some (.trim ⟨true, false⟩, rest)
  | ':' :: c :: rest => (fallbackOf c).map fun how => (.fallback how true, rest)
  | c :: rest => (fallbackOf c).map fun how => (.fallback how false, rest)
  | [] => none

mutual

/-- The pieces up to a closing brace, which is dropped. -/
def braced : Nat → Bool → List Char → Except String (Read (List Piece))
  | 0, _, cs => .ok ([], cs)
  | rounds + 1, inQuotes, cs => do
    let (given, rest) ← pieces rounds (.braces inQuotes) cs
    pure (given, rest.drop 1)

/-- The pieces of a word. Every two rounds take a character at least. -/
def pieces : Nat → Bounds → List Char → Except String (Read (List Piece))
  | 0, _, cs => .ok ([], cs)
  | _, bounds, [] => if bounds.mayEnd then .ok ([], []) else .error unterminatedQuote
  | rounds + 1, bounds, c :: rest =>
    let inQuotes := bounds.inQuotes
    let after (piece : Piece) (rest : List Char) : Except String (Read (List Piece)) := do
      let (more, rest) ← pieces rounds bounds rest
      pure (piece :: more, rest)
    let literal (protected_ : Bool) (c : Char) (rest : List Char) : Except String (Read (List Piece)) := do
      let (more, rest) ← pieces rounds bounds rest
      pure (push protected_ c more, rest)
    let malformed (rest : List Char) : Except String (Read (List Piece)) := do
      let (_, rest) ← braced rounds inQuotes rest
      after .malformed rest
    if bounds.stops c then .ok ([], c :: rest)
    else if c = '\\' then
      match rest with
      | [] => literal inQuotes c []
      | '\n' :: rest => pieces rounds bounds rest
      | d :: rest =>
        if inQuotes && d ∉ ['$', '\x60', '\\'] && !(d = '"' && bounds != .text) then
          literal true c (d :: rest)
        else literal true d rest
    else if c = '\'' && !inQuotes then do
      let (inner, rest) ← upTo '\'' rest
      after (.quoted (String.ofList inner)) rest
    else if c = '"' && bounds != .text then do
      let (inner, rest) ← pieces rounds .quotes rest
      match rest with
      | '"' :: rest =>
        let (more, rest) ← pieces rounds bounds rest
        pure (if inner.isEmpty then .quoted "" :: more else inner ++ more, rest)
      | _ => .error unterminatedQuote
    else if c = '\x60' then do
      let (inner, rest) ← upToBackQuote rest
      after (.output (String.ofList inner) inQuotes) rest
    else if c = '$' then
      match rest with
      | '(' :: '(' :: rest => do
        let (inner, rest) ← upToParenthesis 1 .nothing rest
        let sum := inner.dropLast
        let (inner, _) ← pieces rounds .text sum
        after (.sum inner inQuotes) rest
      | '(' :: rest => do
        let (inner, rest) ← upToParenthesis 0 .nothing rest
        after (.output (String.ofList inner) inQuotes) rest
      | '{' :: '#' :: d :: rest =>
        if d = '}' then after (.parameter "#" inQuotes) rest
        else match parameterName (d :: rest) with
          | some (name, '}' :: rest) => after (.length name) rest
          | _ => malformed (d :: rest)
      | '{' :: rest =>
        let named := match rest with
          | d :: _ =>
            if d.isDigit then
              some (String.ofList (rest.takeWhile Char.isDigit), rest.dropWhile Char.isDigit)
            else parameterName rest
          | [] => none
        match named with
        | none => malformed rest
        | some (name, rest) =>
          match operation rest with
          | none => malformed rest
          | some (.plain, rest) => after (.parameter name inQuotes) rest
          | some (.fallback how orEmpty, rest) => do
            let (given, rest) ← braced rounds inQuotes rest
            after (.fallback name how orEmpty given inQuotes) rest
          | some (.trim trim, rest) => do
            let (given, rest) ← braced rounds false rest
            after (.trimmed name trim given inQuotes) rest
      | rest =>
        match parameterName rest with
        | some (name, rest) => after (.parameter name inQuotes) rest
        | none => literal inQuotes c rest
    else literal inQuotes c rest

end

/-- The pieces of a word at the start of a text. -/
def readWord (bounds : Bounds) (cs : List Char) : Except String (Read Word) :=
  pieces (2 * cs.length + 2) bounds cs

/-! ## Lines -/

/-- The lines of a document up to the one that closes it. -/
def documentLines (stripTabs : Bool) (close : List Char) :
    Nat → List Char → List Char × List Char
  | 0, cs => ([], cs)
  | _, [] => ([], [])
  | rounds + 1, cs =>
    let line := cs.takeWhile (· != '\n')
    let rest := (cs.dropWhile (· != '\n')).drop 1
    let line := if stripTabs then line.dropWhile (· == '\t') else line
    if line = close then ([], rest)
    else
      let (more, rest) := documentLines stripTabs close rounds rest
      (line ++ '\n' :: more, rest)

/-- A document whose lines are still to come. -/
structure Pending where
  stripTabs : Bool
  verbatim : Bool
  close : List Char

/-- The documents that start on the next line, and what follows them. -/
def documents (cs : List Char) : List Pending → List Token × List Char
  | [] => ([], cs)
  | pending :: more =>
    let (lines, rest) := documentLines pending.stripTabs pending.close (cs.length + 1) cs
    let token : Token :=
      if pending.verbatim then .document [.quoted (String.ofList lines)]
      else match readWord .text lines with
        | .ok (w, _) => .document w
        | .error complaint => .broken complaint
    let (tokens, rest) := documents rest more
    (token :: tokens, rest)

def Pending.ofWord (stripTabs : Bool) (word : Word) : Pending where
  stripTabs := stripTabs
  verbatim := word.any fun piece => match piece with
    | .quoted _ => true
    | _ => false
  close := word.flatMap fun piece => match piece with
    | .quoted s | .text s => s.toList
    | _ => []

def operators : List String :=
  [";;", "&&", "||", "<<-", "<<", ">>", "<&", ">&", "<>", ">|", ";", "&", "|", "<", ">", "(", ")"]

/-- The operator at the start of a text. -/
def operator? (cs : List Char) : Option String :=
  operators.find? fun text => text.toList.isPrefixOf cs

def lineBreaks (cs : List Char) : Nat := cs.count '\n'

/-- The tokens of a text. Documents stand after the line that asks for them. -/
def scan : Nat → Nat → List Pending → List Char → List Lexeme
  | 0, _, _, _ => []
  | _, _, _, [] => []
  | rounds + 1, line, pending, c :: rest =>
    if c = ' ' || c = '\t' then scan rounds line pending rest
    else if c = '#' then scan rounds line pending (rest.dropWhile (· != '\n'))
    else if c = '\n' then
      let (tokens, after) := documents rest pending
      let taken := lineBreaks (rest.take (rest.length - after.length))
      tokens.map (⟨·, line⟩) ++ ⟨.newline, line⟩ :: scan rounds (line + 1 + taken) [] after
    else match c, rest with
      | '\\', '\n' :: rest => scan rounds (line + 1) pending rest
      | _, _ =>
        match operator? (c :: rest) with
        | some text =>
          let rest := (c :: rest).drop text.length
          if text = "<<" || text = "<<-" then
            let rest := rest.dropWhile fun d => d == ' ' || d == '\t'
            match readWord .bare rest with
            | .ok (w, after) =>
              ⟨.operator "<<", line⟩ ::
                scan rounds line (pending ++ [.ofWord (text == "<<-") w]) after
            | .error complaint => [⟨.broken complaint, line + lineBreaks rest⟩]
          else ⟨.operator text, line⟩ :: scan rounds line pending rest
        | none =>
          let digits := (c :: rest).takeWhile Char.isDigit
          match digits, (c :: rest).dropWhile Char.isDigit with
          | _ :: _, '<' :: after =>
            ⟨.stream ((String.ofList digits).toNat?.getD 0), line⟩ ::
              scan rounds line pending ('<' :: after)
          | _ :: _, '>' :: after =>
            ⟨.stream ((String.ofList digits).toNat?.getD 0), line⟩ ::
              scan rounds line pending ('>' :: after)
          | _, _ =>
            match readWord .bare (c :: rest) with
            | .ok (w, after) =>
              let taken := lineBreaks ((c :: rest).take (rest.length + 1 - after.length))
              ⟨.word w, line⟩ :: scan rounds (line + taken) pending after
            | .error complaint => [⟨.broken complaint, line + lineBreaks rest⟩]

/-- Puts every document where it is asked for. -/
def attach : List Token → List Lexeme → List Lexeme
  | _, [] => []
  | found, lexeme :: rest =>
    match lexeme.token with
    | .document _ => attach found rest
    | .operator "<<" =>
      match found with
      | token :: found => lexeme :: ⟨token, lexeme.line⟩ :: attach found rest
      | [] => lexeme :: ⟨.document [], lexeme.line⟩ :: attach [] rest
    | _ => lexeme :: attach found rest

def isDocument : Token → Bool
  | .document _ => true
  | _ => false

/-- The tokens of a script. -/
def ofText (text : String) : List Lexeme :=
  let cs := text.toList
  let lexemes := scan (cs.length + 1) 1 [] cs
  attach ((lexemes.map (·.token)).filter isDocument) lexemes

end Token

end BlockWatch.Shell
