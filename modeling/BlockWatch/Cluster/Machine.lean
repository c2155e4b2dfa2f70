import BlockWatch.IoError
import BlockWatch.Path
import BlockWatch.Text.Quoted

/-!
# The machine

What a cluster needs of the machine it runs on: files, commands that run to their end, and processes
that are started, looked after and stopped. A machine is given by its operations on some state, so
everything built on it holds for any machine, one whose operations fail at will included.
-/

namespace BlockWatch

/-- A program and its arguments. -/
structure Command where
  program : Path
  arguments : List String
deriving DecidableEq, Repr

/-- The program and the arguments in quotes, as messages show them. -/
def Command.describe (c : Command) : String :=
  " ".intercalate ((c.program.text :: c.arguments).map Text.quote)

/-- How a process ended. -/
inductive ExitStatus
  | exited (code : Nat)
  | signaled (number : Nat)
deriving DecidableEq, Repr

namespace ExitStatus

def signalNames : List (Nat × String) := [
  (1, "SIGHUP"), (2, "SIGINT"), (3, "SIGQUIT"), (4, "SIGILL"), (5, "SIGTRAP"), (6, "SIGABRT"),
  (7, "SIGBUS"), (8, "SIGFPE"), (9, "SIGKILL"), (10, "SIGUSR1"), (11, "SIGSEGV"),
  (12, "SIGUSR2"), (13, "SIGPIPE"), (14, "SIGALRM"), (15, "SIGTERM"), (16, "SIGSTKFLT"),
  (17, "SIGCHLD"), (18, "SIGCONT"), (19, "SIGSTOP"), (20, "SIGTSTP"), (21, "SIGTTIN"),
  (22, "SIGTTOU"), (23, "SIGURG"), (24, "SIGXCPU"), (25, "SIGXFSZ"), (26, "SIGVTALRM"),
  (27, "SIGPROF"), (28, "SIGWINCH"), (29, "SIGIO"), (30, "SIGPWR"), (31, "SIGSYS")]

def text : ExitStatus → String
  | exited code => "exit status: " ++ toString code
  | signaled number =>
    let name := match signalNames.find? (·.1 == number) with
      | some (_, name) => " (" ++ name ++ ")"
      | none => ""
    "signal: " ++ toString number ++ name

def isSuccess : ExitStatus → Bool
  | exited code => code == 0
  | signaled _ => false

end ExitStatus

/-- What a command leaves that ran to its end: its status and what it complained of, trimmed. -/
structure Finished where
  status : ExitStatus
  complaint : String
deriving DecidableEq, Repr

/-- The name of an entry of a directory, and whether it is itself a directory. -/
structure Listed where
  name : String
  isDirectory : Bool
deriving DecidableEq, Repr

/-- An operation that succeeds or fails and leaves a new state either way. -/
abbrev Op (σ ε α : Type) : Type := ExceptT ε (StateM σ) α

/-- The operations of a machine. -/
structure Machine (σ : Type) where
  /-- Whether something is there, links followed. -/
  exists_ : Path → Op σ IoError Bool
  readText : Path → Op σ IoError String
  /-- Replaces the contents of a file or makes the file. -/
  writeText : Path → String → Op σ IoError Unit
  /-- Makes a directory and those that lead to it, unless it is there. -/
  makeDirectories : Path → Op σ IoError Unit
  /-- Removes a directory and all that is in it; a link is removed itself. -/
  removeTree : Path → Op σ IoError Unit
  /-- Copies the contents of a file to a path. -/
  copyFile : Path → Path → Op σ IoError Unit
  list : Path → Op σ IoError (List Listed)
  /-- Makes an empty file or empties one. -/
  createFile : Path → Op σ IoError Unit
  /-- Runs a command to its end. -/
  run : Command → Op σ IoError Finished
  /-- Starts a command that writes its output and its complaints to two files. -/
  start : Command → Path → Path → Op σ IoError Nat
  /-- How a process ended, if it has, once a process that was just started had time to fail. -/
  ended? : Nat → Op σ IoError (Option ExitStatus)
  kill : Nat → Op σ IoError Unit
  await : Nat → Op σ IoError ExitStatus

/-- Whether something is known to be there; where the machine cannot tell, nothing is. -/
def Machine.isThere {σ : Type} (machine : Machine σ) (path : Path) : StateM σ Bool := do
  match ← (machine.exists_ path).run with
  | .ok there => pure there
  | .error _ => pure false

/-- How a process that was just started has ended, if it has. A process of which this cannot be told
is given up, and no process that is given up is left running. -/
def Machine.lookAfter {σ : Type} (machine : Machine σ) (process : Nat) :
    Op σ IoError (Option ExitStatus) := fun state =>
  match (machine.ended? process).run.run state with
  | (.ok status, state) => (.ok status, state)
  | (.error cause, state) => (.error cause, ((machine.kill process).run.run state).2)

end BlockWatch
