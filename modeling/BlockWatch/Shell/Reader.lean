import BlockWatch.Shell.Command
import BlockWatch.Shell.Token

/-!
# Reading commands

Commands are read from the tokens of a script one after the other, so that each can run before the
next is read. What no command can start or go on with is reported with its line.
-/

namespace BlockWatch.Shell

/-- What was found where it cannot stand. -/
structure SyntaxFlaw where
  line : Nat
  complaint : String

namespace Reader

/-- What was read, and the tokens that are left. -/
abbrev Read (α : Type) : Type := α × List Lexeme

abbrev Result (α : Type) : Type := Except SyntaxFlaw α

def describe : Token → String
  | .word w => "\"" ++ (Word.literal? w).getD "word" ++ "\" unexpected"
  | .operator text => "\"" ++ text ++ "\" unexpected"
  | .newline => "newline unexpected"
  | .stream number => "\"" ++ toString number ++ "\" unexpected"
  | .document _ => "redirection unexpected"
  | .broken complaint => complaint

def unexpected {α : Type} (expected : String) : List Lexeme → Result α
  | ⟨.broken complaint, line⟩ :: _ => .error ⟨line, complaint⟩
  | ⟨.newline, line⟩ :: _ => .error ⟨line + 1, describe .newline ++ expected⟩
  | ⟨token, line⟩ :: _ => .error ⟨line, describe token ++ expected⟩
  | [] => .error ⟨0, "end of file unexpected" ++ expected⟩

def skipNewlines : List Lexeme → List Lexeme
  | ⟨.newline, _⟩ :: rest => skipNewlines rest
  | lexemes => lexemes

def reservedWords : List String :=
  ["if", "then", "elif", "else", "fi", "while", "until", "for", "do", "done", "case", "esac",
   "\x7b", "\x7d", "!", "in"]

/-- The reserved word at the start. -/
def reserved? : List Lexeme → Option String
  | ⟨.word w, _⟩ :: _ =>
    match Word.literal? w with
    | some text => if text ∈ reservedWords then some text else none
    | none => none
  | _ => none

/-- Takes a reserved word that has to be there. -/
def expect (text : String) (lexemes : List Lexeme) : Result (List Lexeme) :=
  match lexemes with
  | ⟨.word w, _⟩ :: rest =>
    if Word.literal? w = some text then .ok rest
    else unexpected (" (expecting \"" ++ text ++ "\")") lexemes
  | _ => unexpected (" (expecting \"" ++ text ++ "\")") lexemes

/-! ## Simple commands -/

def redirection? : String → Option (Redirection × Nat)
  | "<" => some (.read, 0)
  | ">" | ">|" => some (.write, 1)
  | ">>" => some (.append, 1)
  | "<&" => some (.same, 0)
  | ">&" => some (.same, 1)
  | "<<" => some (.document, 0)
  | "<>" => some (.read, 0)
  | _ => none

/-- A redirection at the start, if there is one. -/
def redirect? : List Lexeme → Result (Option (Read Redirect))
  | ⟨.stream number, _⟩ :: rest => do
    match ← operator rest with
    | some (redirect, rest) => pure (some ({ redirect with stream := number }, rest))
    | none => unexpected "" rest
  | lexemes => operator lexemes
where
  operator : List Lexeme → Result (Option (Read Redirect))
    | ⟨.operator text, _⟩ :: rest =>
      match redirection? text, rest with
      | none, _ => pure none
      | some (.document, stream), ⟨.document w, _⟩ :: rest =>
        pure (some (⟨stream, .document, w⟩, rest))
      | some (kind, stream), ⟨.word w, _⟩ :: rest => pure (some (⟨stream, kind, w⟩, rest))
      | some _, rest => unexpected "" rest
    | _ => pure none

/-- All redirections at the start. Each takes two tokens at least. -/
def redirects : Nat → List Lexeme → Result (Read (List Redirect))
  | 0, lexemes => pure ([], lexemes)
  | rounds + 1, lexemes => do
    match ← redirect? lexemes with
    | some (redirect, rest) =>
      let (more, rest) ← redirects rounds rest
      pure (redirect :: more, rest)
    | none => pure ([], lexemes)

/-- The name and the value of a word that assigns. -/
def assignment? : Word → Option (String × Word)
  | .text s :: pieces =>
    let cs := s.toList
    let name := cs.takeWhile isNameChar
    match name, cs.dropWhile isNameChar with
    | c :: _, '=' :: value =>
      if isNameStart c then
        let value := String.ofList value
        some (String.ofList name, if value.isEmpty then pieces else .text value :: pieces)
      else none
    | _, _ => none
  | _ => none

/-- Gathers a simple command: assignments may only stand before its words. -/
def simple (line : Nat) : Nat → List (String × Word) → List Word → List Redirect →
    List Lexeme → Result (Read Command)
  | 0, assignments, words, targets, lexemes =>
    pure (.simple line assignments.reverse words.reverse targets.reverse, lexemes)
  | rounds + 1, assignments, words, targets, lexemes => do
    match ← redirect? lexemes with
    | some (redirect, rest) => simple line rounds assignments words (redirect :: targets) rest
    | none =>
      match lexemes with
      | ⟨.word w, _⟩ :: rest =>
        match words, assignment? w with
        | [], some assignment =>
          simple line rounds (assignment :: assignments) words targets rest
        | _, _ => simple line rounds assignments (w :: words) targets rest
      | _ => pure (.simple line assignments.reverse words.reverse targets.reverse, lexemes)

/-- The words of a list up to its end. -/
def wordList : List Lexeme → Read (List Word)
  | ⟨.word w, _⟩ :: rest =>
    let (more, rest) := wordList rest
    (w :: more, rest)
  | lexemes => ([], lexemes)

/-- The patterns of an arm. -/
def patterns : Nat → List Lexeme → Result (Read (List Word))
  | 0, lexemes => unexpected "" lexemes
  | rounds + 1, lexemes =>
    match lexemes with
    | ⟨.word w, _⟩ :: ⟨.operator "|", _⟩ :: rest => do
      let (more, rest) ← patterns rounds rest
      pure (w :: more, rest)
    | ⟨.word w, _⟩ :: ⟨.operator ")", _⟩ :: rest => pure ([w], rest)
    | ⟨.word _, _⟩ :: rest => unexpected " (expecting \")\")" rest
    | lexemes => unexpected "" lexemes

/-- Ends an item of a list at a semicolon or a new line. -/
def separator? : List Lexeme → Option (List Lexeme)
  | ⟨.operator ";", _⟩ :: rest => some (skipNewlines rest)
  | ⟨.newline, _⟩ :: rest => some (skipNewlines rest)
  | _ => none

/-- Whether nothing more of a list can start here. -/
def ends (lexemes : List Lexeme) : Bool :=
  match lexemes with
  | [] => true
  | ⟨.operator text, _⟩ :: _ => text == ")" || text == ";;"
  | _ =>
    match reserved? lexemes with
    | some text => text ∈ ["then", "elif", "else", "fi", "do", "done", "esac", "\x7d"]
    | none => false

/-! ## All commands -/

mutual

/-- A list of commands up to what ends it. -/
def list : Nat → List Lexeme → Result (Read Command)
  | 0, lexemes => unexpected "" lexemes
  | rounds + 1, lexemes => do
    let lexemes := skipNewlines lexemes
    if ends lexemes then pure (.sequence [], lexemes)
    else
      let (first, rest) ← item rounds lexemes
      let (more, rest) ← list rounds rest
      match more with
      | .sequence parts => pure (.sequence (first :: parts), rest)
      | other => pure (.sequence [first, other], rest)

/-- A list that has to hold a command. -/
def filled : Nat → List Lexeme → Result (Read Command)
  | 0, lexemes => unexpected "" lexemes
  | rounds + 1, lexemes => do
    match ← list rounds lexemes with
    | (.sequence [], rest) => unexpected "" rest
    | found => pure found

/-- A chain of pipelines and its separator. -/
def item : Nat → List Lexeme → Result (Read Command)
  | 0, lexemes => unexpected "" lexemes
  | rounds + 1, lexemes => do
    let (first, rest) ← pipeline rounds lexemes
    let (command, rest) ← chain rounds first rest
    match rest with
    | ⟨.operator "&", _⟩ :: rest => pure (.background command, skipNewlines rest)
    | _ =>
      match separator? rest with
      | some rest => pure (command, rest)
      | none => if ends rest then pure (command, rest) else unexpected "" rest

/-- What follows the first pipeline of a chain. -/
def chain : Nat → Command → List Lexeme → Result (Read Command)
  | 0, first, lexemes => pure (first, lexemes)
  | rounds + 1, first, lexemes => do
    match lexemes with
    | ⟨.operator "&&", _⟩ :: rest =>
      let (second, rest) ← pipeline rounds (skipNewlines rest)
      chain rounds (.chain true first second) rest
    | ⟨.operator "||", _⟩ :: rest =>
      let (second, rest) ← pipeline rounds (skipNewlines rest)
      chain rounds (.chain false first second) rest
    | _ => pure (first, lexemes)

def pipeline : Nat → List Lexeme → Result (Read Command)
  | 0, lexemes => unexpected "" lexemes
  | rounds + 1, lexemes => do
    if reserved? lexemes = some "!" then
      let (parts, rest) ← piped rounds (lexemes.drop 1)
      pure (.pipeline true parts, rest)
    else
      let (parts, rest) ← piped rounds lexemes
      match parts with
      | [single] => pure (single, rest)
      | parts => pure (.pipeline false parts, rest)

def piped : Nat → List Lexeme → Result (Read (List Command))
  | 0, lexemes => unexpected "" lexemes
  | rounds + 1, lexemes => do
    let (first, rest) ← command rounds lexemes
    match rest with
    | ⟨.operator "|", _⟩ :: rest =>
      let (more, rest) ← piped rounds (skipNewlines rest)
      pure (first :: more, rest)
    | rest => pure ([first], rest)

def command : Nat → List Lexeme → Result (Read Command)
  | 0, lexemes => unexpected "" lexemes
  | rounds + 1, lexemes => do
    let compound (found : Read Command) : Result (Read Command) := do
      let (inner, rest) := found
      match ← redirects rounds rest with
      | ([], rest) => pure (inner, rest)
      | (targets, rest) =>
        let line := (lexemes.head?.map (·.line)).getD 0
        pure (.redirected inner line targets, rest)
    match reserved? lexemes with
    | some "\x7b" =>
      let (body, rest) ← filled rounds (lexemes.drop 1)
      compound (body, ← expect "\x7d" rest)
    | some "if" => compound (← branch rounds (lexemes.drop 1))
    | some "while" => compound (← loop rounds true (lexemes.drop 1))
    | some "until" => compound (← loop rounds false (lexemes.drop 1))
    | some "for" => compound (← each rounds (lexemes.drop 1))
    | some "case" => compound (← select rounds (lexemes.drop 1))
    | some "in" => simple (((lexemes.head?.map (·.line)).getD 0)) rounds [] [] [] lexemes
    | some _ => unexpected "" lexemes
    | none =>
      match lexemes with
      | ⟨.operator "(", _⟩ :: rest =>
        let (body, rest) ← filled rounds rest
        match rest with
        | ⟨.operator ")", _⟩ :: rest => compound (.subshell body, rest)
        | rest => unexpected " (expecting \")\")" rest
      | ⟨.word w, line⟩ :: ⟨.operator "(", _⟩ :: ⟨.operator ")", _⟩ :: rest =>
        match Word.literal? w with
        | some name =>
          let (body, rest) ← command rounds (skipNewlines rest)
          pure (.define name body, rest)
        | none => .error ⟨line, "Bad function name"⟩
      | ⟨.word _, line⟩ :: _ => simple line rounds [] [] [] lexemes
      | ⟨.stream _, line⟩ :: _ => simple line rounds [] [] [] lexemes
      | ⟨.operator text, line⟩ :: _ =>
        if (redirection? text).isSome then simple line rounds [] [] [] lexemes
        else unexpected "" lexemes
      | lexemes => unexpected "" lexemes

/-- A body between `do` and `done`. -/
def body : Nat → List Lexeme → Result (Read Command)
  | 0, lexemes => unexpected "" lexemes
  | rounds + 1, lexemes => do
    let (inner, rest) ← filled rounds (← expect "do" (skipNewlines lexemes))
    pure (inner, ← expect "done" rest)

def loop : Nat → Bool → List Lexeme → Result (Read Command)
  | 0, _, lexemes => unexpected "" lexemes
  | rounds + 1, whileSuccess, lexemes => do
    let (condition, rest) ← filled rounds lexemes
    let (inner, rest) ← body rounds rest
    pure (.loop whileSuccess condition inner, rest)

def each : Nat → List Lexeme → Result (Read Command)
  | 0, lexemes => unexpected "" lexemes
  | rounds + 1, lexemes => do
    match lexemes with
    | ⟨.word w, line⟩ :: rest =>
      match Word.literal? w with
      | none => .error ⟨line, "Bad for loop variable"⟩
      | some name =>
        let rest := skipNewlines rest
        if reserved? rest = some "in" then
          let (words, rest) := wordList (rest.drop 1)
          match separator? rest with
          | some rest =>
            let (inner, rest) ← body rounds rest
            pure (.each name (some words) inner, rest)
          | none => unexpected "" rest
        else
          let (inner, rest) ← body rounds ((separator? rest).getD rest)
          pure (.each name none inner, rest)
    | lexemes => .error ⟨(lexemes.head?.map (·.line)).getD 0, "Bad for loop variable"⟩

/-- What follows the `if` or `elif` of a condition. -/
def branch : Nat → List Lexeme → Result (Read Command)
  | 0, lexemes => unexpected "" lexemes
  | rounds + 1, lexemes => do
    let (condition, rest) ← filled rounds lexemes
    let (accepted, rest) ← filled rounds (← expect "then" rest)
    match reserved? rest with
    | some "elif" =>
      let (refused, rest) ← branch rounds (rest.drop 1)
      pure (.branch condition accepted (some refused), rest)
    | some "else" =>
      let (refused, rest) ← filled rounds (rest.drop 1)
      pure (.branch condition accepted (some refused), ← expect "fi" rest)
    | _ => pure (.branch condition accepted none, ← expect "fi" rest)

def select : Nat → List Lexeme → Result (Read Command)
  | 0, lexemes => unexpected "" lexemes
  | rounds + 1, lexemes => do
    match lexemes with
    | ⟨.word subject, _⟩ :: rest =>
      let (cases, rest) ← arms rounds (skipNewlines (← expect "in" (skipNewlines rest)))
      pure (.select subject cases, rest)
    | lexemes => unexpected "" lexemes

def arms : Nat → List Lexeme → Result (Read (List (List Word × Command)))
  | 0, lexemes => unexpected "" lexemes
  | rounds + 1, lexemes => do
    if reserved? lexemes = some "esac" then pure ([], lexemes.drop 1)
    else
      let lexemes := match lexemes with
        | ⟨.operator "(", _⟩ :: rest => rest
        | lexemes => lexemes
      let (alternatives, rest) ← patterns (rounds + 1) lexemes
      let (inner, rest) ← list rounds rest
      match rest with
      | ⟨.operator ";;", _⟩ :: rest =>
        let (more, rest) ← arms rounds (skipNewlines rest)
        pure ((alternatives, inner) :: more, rest)
      | rest => pure ([(alternatives, inner)], ← expect "esac" rest)

end

/-- How deep a command of a script of this many tokens can be. -/
def depth (lexemes : List Lexeme) : Nat := 12 * (lexemes.length + 1)

/-- The commands up to the end of the next line that has any, and what follows them. A line ends
where a list could end. -/
def nextLine (lexemes : List Lexeme) : Option (Result (Read Command)) :=
  match skipNewlines lexemes with
  | [] => none
  | lexemes => some (items (depth lexemes) lexemes)
where
  /-- The items of one line. -/
  items : Nat → List Lexeme → Result (Read Command)
    | 0, lexemes => unexpected "" lexemes
    | rounds + 1, lexemes => do
      let (first, rest) ← pipeline (depth lexemes) lexemes
      let (command, rest) ← chain (depth lexemes) first rest
      let continued (found : Command) (rest : List Lexeme) : Result (Read Command) :=
        match rest with
        | [] => pure (found, [])
        | ⟨.newline, _⟩ :: rest => pure (found, rest)
        | rest => do
          let (more, rest) ← items rounds rest
          match more with
          | .sequence parts => pure (.sequence (found :: parts), rest)
          | other => pure (.sequence [found, other], rest)
      match rest with
      | ⟨.operator ";", _⟩ :: rest => continued command rest
      | ⟨.operator "&", _⟩ :: rest => continued (.background command) rest
      | ⟨.newline, _⟩ :: rest => pure (command, rest)
      | [] => pure (command, [])
      | rest => unexpected "" rest

end Reader

end BlockWatch.Shell
