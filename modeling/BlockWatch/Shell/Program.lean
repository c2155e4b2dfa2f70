import BlockWatch.Shell.Utility

/-!
# Programs

How a path becomes a program: an installed tool is one, and a file that can be executed and names an
interpreter in its first line is one with that interpreter. A name without a slash is looked for
where tools are installed.
-/

namespace BlockWatch.Shell

/-- A tool and its arguments. -/
structure Invocation where
  tool : String
  arguments : List String
deriving DecidableEq, Repr

namespace Program

def searchPath : List String := ["/usr/local/bin", "/usr/bin", "/bin"]

/-- The entry that a program's name leads to. -/
def lookUp (store : Store) (program : Path) : Store.Result Entry :=
  if program.text.contains '/' then (store.find true program).map (·.2)
  else
    let found := searchPath.filterMap fun directory =>
      (store.find true ((Path.mk directory).child program.text)).toOption
    match found with
    | (_, entry) :: _ => if program.text.isEmpty then .error .notFound else .ok entry
    | [] => .error .notFound

/-- The interpreter that the first line of a file names, and what stands after it. -/
def interpreter? (contents : ByteArray) : Option (String × Option String) :=
  match (Text.ofBytes (contents.extract 0 255)).toList with
  | '#' :: '!' :: rest =>
    let isBlank (c : Char) : Bool := c == ' ' || c == '\t'
    let line := (rest.takeWhile (· != '\n')).dropWhile isBlank
    let line := (line.reverse.dropWhile isBlank).reverse
    let name := line.takeWhile fun c => !isBlank c
    let argument := (line.dropWhile fun c => !isBlank c).dropWhile isBlank
    if name.isEmpty then none
    else some (String.ofList name,
      if argument.isEmpty then none else some (String.ofList argument))
  | _ => none

/-- What runs for a program. An interpreter may be a script itself, as often as is allowed. -/
def load (store : Store) : Nat → Path → List String → Store.Result Invocation
  | 0, _, _ => .error .tooManyLinks
  | nested + 1, program, arguments => do
    match ← lookUp store program with
    | .tool name => .ok ⟨name, arguments⟩
    | .file contents true =>
      match interpreter? contents with
      | some (name, argument) =>
        load store nested ⟨name⟩ (argument.toList ++ program.text :: arguments)
      | none => .error .noExec
    | _ => .error .denied

/-- How many interpreters may stand behind each other. -/
def maxNested : Nat := 5

end Program

end BlockWatch.Shell
