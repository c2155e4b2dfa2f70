import BlockWatch.Scenario.Run
import BlockWatch.Shell.Run

/-!
# The bench

A machine that is all here: a store of files, and programs that are scripts. On it a cluster can be
laid out, seeded and launched without any process being started. A script that is launched runs until
it has slept as long as a launch is watched; from then on it does nothing until it is killed.
-/

namespace BlockWatch

/-- The files, and how each process that was started has ended. -/
structure Bench where
  store : Store
  processes : List (Option ExitStatus) := []

namespace Bench

/-! ## Files -/

/-- A directory of some entries. -/
def directoryOf (entries : List (String × Entry)) : Entry :=
  .directory (entries.foldl (fun found entry => Entry.insert entry.1 entry.2 found) [])

def tools : Entry := directoryOf (Shell.Utility.programs.map fun name => (name, .tool name))

/-- The device, the tools, and an empty working directory. -/
def blank : Bench where
  store := {
    root := directoryOf [
      ("bin", tools), ("usr", directoryOf [("bin", tools)]),
      ("dev", directoryOf [("null", .device)]), ("tmp", directoryOf [("bench", .directory [])])]
    here := ["tmp", "bench"] }

/-- Puts a file on the bench, with the directories that lead to it. What starts as a script does can
be executed. -/
def withFile (bench : Bench) (path : Path) (text : String) : Bench :=
  let made := do
    let store ← bench.store.makeDirectories ((Store.ancestors path).headD ⟨""⟩)
    let store ← store.writeBytes path text.toUTF8
    store.setExecutable path (text.startsWith "#!")
  { bench with store := made.toOption.getD bench.store }

/-- A bench with files by their paths. -/
def ofFiles (files : Json.Members) : Bench :=
  files.foldl (fun bench file => match file.2 with
    | .string text => bench.withFile ⟨file.1⟩ text
    | _ => bench) blank

/-- Reads from the store. -/
def look {α : Type} (f : Store → Store.Result α) : Op Bench IoError α := do
  match f (← get).store with
  | .ok value => pure value
  | .error cause => throw cause

/-- Changes the store. -/
def change (f : Store → Store.Result Store) : Op Bench IoError Unit := do
  let store ← look f
  modify fun bench => { bench with store }

/-- The entries of a directory that have names of their own. -/
def listed (entries : List (String × Entry)) : List Listed :=
  (entries.filter fun entry => ProperName entry.1).map fun entry => ⟨entry.1, entry.2.isDirectory⟩

/-! ## Processes -/

/-- What a program starts with. -/
def stateFor (bench : Bench) (command : Command) : Shell.State where
  store := bench.store
  pools := [.empty]
  streams := [(0, .nothing), (1, .nothing), (2, .pool 0)]
  bindings := [("PATH", ":".intercalate Shell.Program.searchPath),
    ("PWD", "/" ++ "/".intercalate bench.store.here)]
  exported := ["PATH", "PWD"]
  title := command.program.text
  process := 1000 + bench.processes.length

def invoke (command : Command) : Op Bench IoError Shell.Invocation :=
  look fun store =>
    Shell.Program.load store Shell.Program.maxNested command.program command.arguments

/-- Runs a command to its end. One that has none is killed. -/
def run (command : Command) : Op Bench IoError Finished := do
  let invocation ← invoke command
  let bench ← get
  let (status, after) := Shell.process invocation (bench.stateFor command)
  set { bench with store := { after.store with here := bench.store.here } }
  pure {
    status := status.getD (.signaled 9)
    complaint := Text.trim (Text.ofBytes (after.pool 0)) }

/-- The stream to the file at a path. -/
def streamTo (path : Path) : Op Bench IoError Shell.Stream :=
  look fun store => (store.find true path).map fun (location, entry) =>
    match entry with
    | .file .. => .file location
    | _ => .nothing

/-- Starts a command that writes its output and its complaints to two files. -/
def start (command : Command) (output complaints : Path) : Op Bench IoError Nat := do
  let invocation ← invoke command
  let streams := [(0, .nothing), (1, ← streamTo output), (2, ← streamTo complaints)]
  let bench ← get
  let (status, after) := Shell.process invocation
    { bench.stateFor command with streams, patience := some launchGrace.nanos }
  set {
    store := { after.store with here := bench.store.here }
    processes := bench.processes ++ [status] : Bench }
  pure bench.processes.length

def ended? (process : Nat) : Op Bench IoError (Option ExitStatus) := do
  pure ((← get).processes.getD process none)

def kill (process : Nat) : Op Bench IoError Unit :=
  modify fun bench =>
    { bench with
      processes := bench.processes.modify process fun status => some (status.getD (.signaled 9)) }

def await (process : Nat) : Op Bench IoError ExitStatus := do
  pure (((← get).processes.getD process none).getD (.signaled 9))

/-- The bench as a machine. -/
def machine : Machine Bench where
  exists_ path := look (·.isThere path)
  readText path := look (·.readText path)
  writeText path text := change (·.writeBytes path text.toUTF8)
  makeDirectories path := change (·.makeDirectories path)
  removeTree path := change (·.removeTree path)
  copyFile source target := change (·.copyFile source target)
  list path := look fun store => (store.list path).map listed
  createFile path := change (·.writeBytes path .empty)
  run := run
  start := start
  ended? := ended?
  kill := kill
  await := await

end Bench

end BlockWatch
