import BlockWatch.Shell.Printed
import BlockWatch.Shell.Test

/-!
# Utilities

The commands that scripts find without a path. Each takes its arguments, works on the store and the
streams, complains of what fails, and leaves its status.
-/

namespace BlockWatch.Shell.Utility

abbrev Behaviour : Type := List String → Act Unit

/-- Leaves a failure and complains of a path. -/
def fail (name what : String) (path : String) (cause : IoError) : Act Unit := do
  complainOf (name ++ ": " ++ what ++ "'" ++ path ++ "': " ++ cause.words)
  setStatus 1

/-- Changes the store, or complains. -/
def change (result : Store.Result Store) (orElse : IoError → Act Unit) : Act Unit := do
  match result with
  | .ok store => modify fun s => { s with store }
  | .error cause => orElse cause

/-- The letters of the options at the start, and the arguments after them. -/
def options : List String → List Char × List String
  | "--" :: rest => ([], rest)
  | argument :: rest =>
    match argument.toList with
    | '-' :: '-' :: _ =>
      let (letters, rest) := options rest
      ((longOptions.lookup argument).toList ++ letters, rest)
    | '-' :: c :: more =>
      let (letters, rest) := options rest
      (c :: more ++ letters, rest)
    | _ => ([], argument :: rest)
  | [] => ([], [])
where
  longOptions : List (String × Char) := [
    ("--parents", 'p'), ("--recursive", 'r'), ("--force", 'f'), ("--symbolic", 's')]

/-- Does something for every path. -/
def forEach (act : String → Act Unit) : List String → Act Unit
  | [] => pure ()
  | path :: rest => do
    act path
    forEach act rest

/-- The part of a path after the last slash, slashes at the end apart. -/
def baseName (path : String) : String :=
  match (Route.ofText path).names.getLast? with
  | some name => name
  | none => if path.isEmpty then "" else "/"

/-- The part of a path before its last name. -/
def parentName (path : String) : String :=
  let cs := (path.toList.reverse.dropWhile (· == '/')).dropWhile (· != '/')
  if cs.isEmpty then (if path.startsWith "/" then "/" else ".")
  else
    let parent := String.ofList (cs.dropWhile (· == '/')).reverse
    if parent.isEmpty then "/" else parent

/-- The path itself, or the path of the source's name in it if it is a directory. -/
def inside (store : Store) (target source : String) : String :=
  if store.isDirectory ⟨target⟩ then (Path.child ⟨target⟩ (baseName source)).text else target

/-! ## Output -/

def echo : Behaviour := fun arguments => do
  let (newline, arguments) := match arguments with
    | "-n" :: rest => (false, rest)
    | arguments => (true, arguments)
  let (bytes, stop) := Printed.unescaped (" ".intercalate arguments)
  let bytes := if newline && !stop then bytes ++ [10] else bytes
  writeTo 1 ⟨bytes.toArray⟩
  setStatus 0

def printf : Behaviour
  | [] => do
    complain "printf: usage: printf format [arg ...]"
    setStatus 2
  | "--" :: format :: arguments | format :: arguments => do
    let print := Printed.formatted format arguments
    forEach (fun complaint => complain ("printf: " ++ complaint)) print.complaints
    writeTo 1 ⟨print.bytes.toArray⟩
    setStatus (if print.complaints.isEmpty then 0 else if print.isFaulty then 2 else 1)

def cat : Behaviour := fun arguments => do
  setStatus 0
  let (_, paths) := options arguments
  forEach (fun path => do
    if path = "-" then writeTo 1 (← drain 0)
    else
      match (← get).store.readBytes ⟨path⟩ with
      | .ok bytes => writeTo 1 bytes
      | .error cause =>
        complainOf ("cat: " ++ path ++ ": " ++ cause.words)
        setStatus 1) (if paths.isEmpty then ["-"] else paths)

def ls : Behaviour := fun arguments => do
  setStatus 0
  let (letters, paths) := options arguments
  forEach (fun path => do
    match (← get).store.list ⟨path⟩ with
    | .ok entries =>
      let names := (entries.map (·.1)).filter fun name =>
        letters.contains 'a' || letters.contains 'A' || !name.startsWith "."
      forEach (fun name => print (name ++ "\n")) names
    | .error .notDirectory => print (path ++ "\n")
    | .error cause => do
      complainOf ("ls: cannot access '" ++ path ++ "': " ++ cause.words)
      setStatus 2) (if paths.isEmpty then ["."] else paths)

def seq : Behaviour := fun arguments => do
  let numbers := arguments.map Sum.ofValue
  let (first, step, last) : Int × Int × Int := match numbers with
    | [last] => (1, 1, last)
    | [first, last] => (first, 1, last)
    | [first, step, last] => (first, step, last)
    | _ => (1, 1, 0)
  let rounds := if step = 0 then 0 else ((last - first) / step + 1).toNat
  forEach (fun n => print (n ++ "\n"))
    ((List.range rounds).map fun (n : Nat) => toString (first + step * (n : Int)))
  setStatus 0

def expr : Behaviour := fun arguments => do
  match Sum.value (fun _ => .ok 0) (" ".intercalate arguments) with
  | .ok (value, _) =>
    print (toString value ++ "\n")
    setStatus (if value = 0 then 1 else 0)
  | .error _ =>
    complainOf "expr: syntax error"
    setStatus 2

/-! ## Conditions -/

def test (name : String) : Behaviour := fun arguments => do
  match Test.holds (← get).store arguments with
  | .ok true => setStatus 0
  | .ok false => setStatus 1
  | .error complaint =>
    complain (name ++ ": " ++ complaint)
    setStatus 2

def bracket : Behaviour := fun arguments => do
  match arguments.getLast? with
  | some "]" => test "[" arguments.dropLast
  | _ =>
    complain "[: missing ]"
    setStatus 2

/-! ## Files -/

/-- The part of a path that is no directory but would have to be one. -/
def obstacle (store : Store) (path : String) (cause : IoError) : String :=
  let cs := path.toList
  let starts := (List.range cs.length).filter fun n => n != 0 && cs[n]? == some '/'
  let parts := starts.map fun n => String.ofList (cs.take n)
  if cause = .notDirectory then
    (parts.find? fun part => !store.isDirectory ⟨part⟩).getD path
  else path

def mkdir : Behaviour := fun arguments => do
  setStatus 0
  let (letters, paths) := options arguments
  let paths := if letters.contains 'm' then paths.drop 1 else paths
  forEach (fun path => do
    let store := (← get).store
    if letters.contains 'p' then
      change (store.makeDirectories ⟨path⟩) fun cause =>
        fail "mkdir" "cannot create directory " (obstacle store path cause) cause
    else
      change (store.makeDirectory ⟨path⟩) (fail "mkdir" "cannot create directory " path)) paths

def rmdir : Behaviour := fun arguments => do
  setStatus 0
  forEach (fun path => do
    change ((← get).store.removeDirectory ⟨path⟩) (fail "rmdir" "failed to remove " path))
    (options arguments).2

def rm : Behaviour := fun arguments => do
  setStatus 0
  let (letters, paths) := options arguments
  let force := letters.contains 'f'
  let deep := letters.contains 'r' || letters.contains 'R'
  forEach (fun path => do
    let store := (← get).store
    let removed := if deep && (match store.find false ⟨path⟩ with
        | .ok (_, entry) => entry.isDirectory
        | .error _ => false)
      then store.removeTree ⟨path⟩ else store.removeFile ⟨path⟩
    change removed fun cause =>
      if force && (cause = .notFound || cause = .notDirectory) then pure ()
      else fail "rm" "cannot remove " path cause) paths

def touch : Behaviour := fun arguments => do
  setStatus 0
  forEach (fun path => do
    let store := (← get).store
    if store.isDirectory ⟨path⟩ then pure ()
    else change ((store.alter ⟨path⟩ id).map (·.2)) (fail "touch" "cannot touch " path))
    (options arguments).2

/-- Copies one file, or a directory if `deep` allows it. -/
def copy (deep : Bool) (source target : String) : Act Unit := do
  let store := (← get).store
  let target := inside store target source
  match store.find (!deep) ⟨source⟩ with
  | .error cause => fail "cp" "cannot stat " source cause
  | .ok (_, .directory entries) =>
    if deep then
      match store.locate true ⟨target⟩ with
      | .ok (.vacant parent name) =>
        set { (← get) with store := store.place (parent ++ [name]) (.directory entries) }
      | .ok (.occupied location) =>
        set { (← get) with store := store.place location (.directory entries) }
      | .error cause => fail "cp" "cannot create directory " target cause
    else
      complainOf ("cp: -r not specified; omitting directory '" ++ source ++ "'")
      setStatus 1
  | .ok (_, .link aim) =>
    change (store.makeLink aim ⟨target⟩) (fail "cp" "cannot create symbolic link " target)
  | .ok _ =>
    change (store.copyFile ⟨source⟩ ⟨target⟩) (fail "cp" "cannot create regular file " target)

def cp : Behaviour := fun arguments => do
  setStatus 0
  let (letters, paths) := options arguments
  let deep := letters.any fun c => c == 'r' || c == 'R' || c == 'a'
  match paths.getLast? with
  | some target => forEach (fun source => copy deep source target) paths.dropLast
  | none =>
    complainOf "cp: missing file operand"
    setStatus 1

def mv : Behaviour := fun arguments => do
  setStatus 0
  let (_, paths) := options arguments
  match paths.getLast? with
  | some target =>
    forEach (fun source => do
      let store := (← get).store
      match store.find false ⟨source⟩ with
      | .error cause => fail "mv" "cannot stat " source cause
      | .ok _ =>
        change (store.rename ⟨source⟩ ⟨inside store target source⟩)
          (fail "mv" "cannot move " source)) paths.dropLast
  | none =>
    complainOf "mv: missing file operand"
    setStatus 1

def ln : Behaviour := fun arguments => do
  setStatus 0
  let (letters, paths) := options arguments
  match paths with
  | [source, target] =>
    let store := (← get).store
    let target := inside store target source
    let store := if letters.contains 'f' then (store.removeFile ⟨target⟩).toOption.getD store
      else store
    if letters.contains 's' then
      change (store.makeLink source ⟨target⟩) (fail "ln" "failed to create symbolic link " target)
    else change (store.copyFile ⟨source⟩ ⟨target⟩) (fail "ln" "failed to create hard link " target)
  | _ =>
    complainOf "ln: missing file operand"
    setStatus 1

/-- Whether a mode lets a file be executed; nothing if it does not say. -/
def executableBy (mode : String) : Option Bool :=
  let cs := mode.toList
  if cs.all Char.isDigit then some (cs.any fun c => c.toNat % 2 == 1)
  else if cs.contains 'x' then some (!cs.contains '-')
  else none

def chmod : Behaviour := fun arguments => do
  setStatus 0
  match arguments with
  | mode :: paths =>
    forEach (fun path => do
      let store := (← get).store
      match store.find true ⟨path⟩ with
      | .error cause => fail "chmod" "cannot access " path cause
      | .ok _ =>
        match executableBy mode with
        | some executable => change (store.setExecutable ⟨path⟩ executable) fun _ => pure ()
        | none => pure ()) paths
  | [] =>
    complainOf "chmod: missing operand"
    setStatus 1

/-! ## The working directory -/

def pwd : Behaviour := fun _ => do
  print ("/" ++ "/".intercalate (← get).store.here ++ "\n")
  setStatus 0

def cd : Behaviour := fun arguments => do
  let target := arguments.headD "/"
  let s ← get
  match s.store.find true ⟨target⟩ with
  | .ok (location, .directory _) =>
    set { s with store := { s.store with here := location } }
    setStatus 0
  | _ =>
    complain ("cd: can't cd to " ++ target)
    setStatus 2

/-! ## Time and processes -/

/-- The nanoseconds of a decimal number of seconds, minutes, hours or days. -/
def nanosOf? (text : String) : Option Nat :=
  let cs := text.toList
  let whole := cs.takeWhile Char.isDigit
  let rest := cs.dropWhile Char.isDigit
  let (fraction, rest) := match rest with
    | '.' :: rest => ((rest.takeWhile Char.isDigit).take 9, rest.dropWhile Char.isDigit)
    | rest => ([], rest)
  let scale? : Option Nat := match rest with
    | [] | ['s'] => some 1
    | ['m'] => some 60
    | ['h'] => some 3600
    | ['d'] => some 86400
    | _ => none
  if whole.isEmpty && fraction.isEmpty then none
  else scale?.map fun scale =>
    scale * (Printed.natOf whole * 1000000000 +
      Printed.natOf fraction * Nat.pow 10 (9 - fraction.length))

def sleep : Behaviour := fun arguments => do
  match arguments.mapM nanosOf? with
  | some (first :: rest) =>
    setStatus 0
    Shell.sleep (rest.foldl (· + ·) first)
  | some [] => refused "missing operand"
  | none =>
    match arguments.find? (·.startsWith "-") with
    | some text => refused ("invalid option -- '" ++ String.ofList (text.toList.drop 1 |>.take 1) ++ "'")
    | none =>
      let wrong := arguments.filter fun text => (nanosOf? text).isNone
      forEach (fun text => complainOf ("sleep: invalid time interval '" ++ text ++ "'"))
        wrong.dropLast
      refused ("invalid time interval '" ++ wrong.getLast?.getD "" ++ "'")
where
  refused (what : String) : Act Unit := do
    complainOf ("sleep: " ++ what)
    complainOf "Try 'sleep --help' for more information."
    setStatus 1

/-- The number of a signal by its name or its digits. -/
def signal? (text : String) : Option Nat :=
  match text.toNat? with
  | some number => if number ≤ 64 then some number else none
  | none =>
    (ExitStatus.signalNames.find? fun entry =>
      entry.2 == text || entry.2 == "SIG" ++ text).map (·.1)

/-- The signals that do not end a process. -/
def harmlessSignals : List Nat := [0, 17, 18, 23, 28]

def stoppingSignals : List Nat := [19, 20, 21, 22]

def killUsage : String :=
  "kill: Usage: kill [-s sigspec | -signum | -sigspec] [pid | job]... or\nkill -l [exitstatus]"

/-- Sends a signal to processes; only the running script is there to get it. -/
def send (number : Nat) : List String → Act Unit
  | [] => do
    complain killUsage
    setStatus 2
  | targets => do
    setStatus 0
    forEach (fun target => do
      let digits := if target.startsWith "-" then target.toList.drop 1 else target.toList
      if target = toString (← get).process then
        if number ∈ harmlessSignals then pure ()
        else if number ∈ stoppingSignals then throw .asleep
        else throw (.signal number)
      else if target.startsWith "%" then
        complain ("kill: No such job: " ++ target)
        setStatus 2
      else if digits.isEmpty || !digits.all Char.isDigit then
        complain ("kill: Illegal number: " ++ target)
        setStatus 2
      else
        complain "kill: No such process\n"
        setStatus 1) targets

def kill : Behaviour := fun arguments => do
  match arguments with
  | "-s" :: name :: rest =>
    match signal? name with
    | some number => send number rest
    | none =>
      complain ("kill: invalid signal number or name: " ++ name)
      setStatus 2
  | "--" :: rest => send 15 rest
  | first :: rest =>
    match first.toList with
    | '-' :: c :: name =>
      match signal? (String.ofList (c :: name)) with
      | some number => send number rest
      | none =>
        complain ("kill: Illegal option -" ++ String.singleton c)
        setStatus 2
    | _ => send 15 (first :: rest)
  | [] => send 15 []

/-- The utilities by name. -/
def table : List (String × Behaviour) := [
  ("echo", echo), ("printf", printf), ("cat", cat), ("ls", ls), ("seq", seq), ("expr", expr),
  ("true", fun _ => setStatus 0), ("false", fun _ => setStatus 1), ("test", test "test"),
  ("[", bracket), ("mkdir", mkdir), ("rmdir", rmdir), ("rm", rm), ("touch", touch), ("cp", cp),
  ("mv", mv), ("ln", ln), ("chmod", chmod), ("pwd", pwd), ("cd", cd), ("sleep", sleep),
  ("kill", kill), ("wait", fun _ => setStatus 0), ("umask", fun _ => setStatus 0),
  ("sync", fun _ => setStatus 0),
  ("basename", fun arguments => do
    print (baseName (arguments.headD "") ++ "\n")
    setStatus 0),
  ("dirname", fun arguments => do
    print (parentName (arguments.headD "") ++ "\n")
    setStatus 0)]

/-- The utilities that are programs of their own, and the programs that run scripts. -/
def programs : List String := [
  "cat", "chmod", "cp", "dirname", "basename", "echo", "env", "expr", "false", "kill", "ln", "ls",
  "mkdir", "mv", "printf", "pwd", "rm", "rmdir", "seq", "sh", "dash", "bash", "sleep", "sync",
  "test", "[", "touch", "true"]

end BlockWatch.Shell.Utility
