import BlockWatch.Shell.Program
import BlockWatch.Shell.Setting

/-!
# Commands by name

A name stands for a command of the shell itself, a function of the script, a utility or a program,
in this order. A program that is a shell runs its script apart from the script that starts it.
-/

namespace BlockWatch.Shell

/-- Runs a script in a shell of its own. -/
def runScript (run : Command → Act Unit) (title : String) (arguments : List String)
    (strict : Bool) (text : String) : Act Unit :=
  isolated (do
    modify fun s =>
      { s with
        title, arguments, strict
        bindings := s.bindings.filter fun entry => entry.1 ∈ s.exported
        functions := []
        guarded := false
        complete := false
        traced := false
        verbatim := false
        settled := []
        loops := 0
        hidden := none
        traps := []
        line := 0
        process := s.process + 1 }
    setStatus 0
    runText run text) fun number => do
      complainOf (if number = 9 then "Killed" else if number = 15 then "Terminated" else "")
      setStatus (128 + number)

/-- Takes the options of a shell: whether it is strict, whether it is given its script as text, and
what is left. -/
def shellOptions (strict given : Bool) : List String → Bool × Bool × List String
  | "-o" :: _ :: rest => shellOptions strict given rest
  | argument :: rest =>
    match argument.toList with
    | '-' :: c :: letters =>
      shellOptions (strict || (c :: letters).contains 'e') (given || (c :: letters).contains 'c')
        rest
    | _ => (strict, given, argument :: rest)
  | [] => (strict, given, [])

/-- Runs a shell with its arguments. -/
def runShell (run : Command → Act Unit) (arguments : List String) : Act Unit := do
  match shellOptions false false arguments with
  | (strict, true, text :: title :: arguments) => runScript run title arguments strict text
  | (strict, true, [text]) => runScript run "sh" [] strict text
  | (strict, false, path :: arguments) =>
    match (← get).store.readBytes ⟨path⟩ with
    | .ok bytes => runScript run path arguments strict (Text.ofBytes bytes)
    | .error cause =>
      complainOf ("sh: 0: cannot open " ++ path ++ ": " ++ openingWords false cause)
      setStatus 2
  | (strict, _, []) => runScript run "sh" [] strict (Text.ofBytes (← drain 0))

/-- Assignments before a command. -/
def splitAssignments : List String → List String × List String
  | [] => ([], [])
  | argument :: rest =>
    if argument.contains '=' then
      let (more, rest) := splitAssignments rest
      (argument :: more, rest)
    else ([], argument :: rest)

/-- Runs a tool that is installed. Tools that run other tools do so at most `nested` deep. -/
def runTool (run : Command → Act Unit) : Nat → Invocation → Act Unit
  | 0, _ => setStatus 126
  | nested + 1, ⟨tool, arguments⟩ => do
    if tool ∈ ["sh", "dash", "bash"] then runShell run arguments
    else if tool = "env" then
      match splitAssignments arguments with
      | (assignments, program :: arguments) =>
        exportAll assignments
        match Program.load (← get).store Program.maxNested ⟨program⟩ arguments with
        | .ok invocation => runTool run nested invocation
        | .error cause =>
          complainOf ("env: '" ++ program ++ "': " ++ cause.words)
          setStatus (if cause = .notFound then 127 else 126)
      | _ => setStatus 0
    else match Utility.table.lookup tool with
      | some utility => utility arguments
      | none => setStatus 127

/-- Runs a program by its path; complaints say `before` first. A script without an interpreter is
run by the shell. -/
def runProgram (run : Command → Act Unit) (before program : String) (arguments : List String) :
    Act Unit := do
  match Program.load (← get).store Program.maxNested ⟨program⟩ arguments with
  | .ok invocation => runTool run Program.maxNested invocation
  | .error cause =>
    if cause = .noExec then runShell run (program :: arguments)
    else if cause = .notFound || cause = .notDirectory then
      complain (before ++ program ++ ": not found")
      setStatus 127
    else
      complain (before ++ program ++ ": " ++ cause.words)
      setStatus 126

/-- Calls a function with arguments of its own. -/
def call (run : Command → Act Unit) (body : Command) (arguments : List String) : Act Unit := do
  let before ← get
  modify fun s => { s with arguments, hidden := some [], loops := 0 }
  let outcome ← attempt (run body)
  unhide ((← get).hidden.getD [])
  modify fun s =>
    { s with arguments := before.arguments, hidden := before.hidden, loops := before.loops }
  match outcome with
  | .ok () => pure ()
  | .error (.back code) => setStatus code
  | .error leave => throw leave

/-- The commands whose failed redirections end the script. -/
def specialCommands : List String :=
  [":", ".", "break", "continue", "eval", "exec", "exit", "export", "readonly", "return", "set",
   "shift", "trap", "unset"]

/-- Runs a command by its name. -/
def dispatch (run : Command → Act Unit) : Nat → String → List String → Act Unit
  | 0, _, _ => setStatus 127
  | nested + 1, name, arguments => do
    match name with
    | "exit" =>
      match arguments.head? with
      | some text => throw (.exit ((← numberFor "exit" text) % 256))
      | none => throw (.exit (← get).status)
    | "return" =>
      match arguments.head? with
      | some text => throw (.back ((← numberFor "return" text) % 256))
      | none => throw (.back (← get).status)
    | "break" | "continue" =>
      let levels := min (← numberFor name (arguments.headD "1")) (← get).loops
      setStatus 0
      if levels = 0 then pure ()
      else throw (if name = "break" then .stop levels else .next levels)
    | "shift" =>
      let n ← numberFor "shift" (arguments.headD "1")
      let s ← get
      if n ≤ s.arguments.length then
        set { s with arguments := s.arguments.drop n, status := 0 }
      else giveUp "shift: can't shift that many"
    | "set" =>
      setOptions arguments
      setStatus 0
    | "export" =>
      exportAll arguments
      setStatus 0
    | "readonly" =>
      settleAll arguments
      setStatus 0
    | "local" =>
      if (← get).hidden.isNone then giveUp "local: not in a function"
      hideAll arguments
      setStatus 0
    | "unset" =>
      match arguments.find? (· ∈ (← get).settled) with
      | some name => giveUp ("unset: " ++ name ++ ": is read only")
      | none =>
        modify fun s =>
          { s with
            bindings := s.bindings.filter fun entry => entry.1 ∉ arguments
            functions := s.functions.filter fun entry => entry.1 ∉ arguments
            status := 0 }
    | ":" => setStatus 0
    | "trap" =>
      setTraps arguments
      setStatus 0
    | "kill" =>
      match ← attempt (Utility.kill arguments) with
      | .ok () => pure ()
      | .error (.signal number) =>
        match (← get).traps.lookup (eventOf (toString number)) with
        | some text => runText run text
        | none => throw (.signal number)
      | .error leave => throw leave
    | "eval" =>
      setStatus 0
      runText run (" ".intercalate arguments)
    | "." =>
      let path := arguments.headD ""
      match (← get).store.readBytes ⟨path⟩ with
      | .ok bytes => runText run (Text.ofBytes bytes)
      | .error cause => giveUp (".: cannot open " ++ path ++ ": " ++ openingWords false cause)
    | "read" => readLine arguments
    | "exec" =>
      match arguments with
      | [] => setStatus 0
      | program :: arguments =>
        modify fun s => { s with traps := [] }
        match (Utility.table.lookup program) with
        | some utility => utility arguments
        | none => runProgram run "exec: " program arguments
        throw (.exit (← get).status)
    | "command" =>
      match arguments with
      | ["-v", name] =>
        let s ← get
        if (s.functions.lookup name).isSome || (Utility.table.lookup name).isSome ||
            name ∈ specialCommands then
          print (name ++ "\n")
          setStatus 0
        else match Program.lookUp s.store ⟨name⟩ with
          | .ok _ =>
            print (name ++ "\n")
            setStatus 0
          | .error _ => setStatus 127
      | name :: arguments => dispatch run nested name arguments
      | [] => setStatus 0
    | _ =>
      match (← get).functions.lookup name with
      | some body => call run body arguments
      | none =>
        match Utility.table.lookup name with
        | some utility => utility arguments
        | none => runProgram run "" name arguments

end BlockWatch.Shell
