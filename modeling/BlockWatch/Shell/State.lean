import BlockWatch.Shell.Command
import BlockWatch.Store.Basic
import BlockWatch.Text.Decoded

/-!
# The state of a script

What a running script knows and changes: the store it works on, its variables and arguments, where
its streams go, and how long it has slept. A script that is watched only for a while counts as
asleep once it has slept that long.
-/

namespace BlockWatch.Shell

/-- Where a stream goes. -/
inductive Stream
  /-- What is written is lost, and there is nothing to read. -/
  | nothing
  /-- To the end of the file at a location. -/
  | file (location : List String)
  /-- To the end of a pool of bytes, or from its start. -/
  | pool (index : Nat)
deriving DecidableEq, Repr

structure State where
  store : Store
  pools : List ByteArray := []
  streams : List (Nat × Stream) := []
  bindings : List (String × String) := []
  /-- The variables that programs started by the script see. -/
  exported : List String := []
  arguments : List String := []
  /-- What the script is called in its complaints. -/
  title : String
  functions : List (String × Command) := []
  /-- The status of the last command. -/
  status : Nat := 0
  line : Nat := 0
  /-- Whether a command that fails ends the script. -/
  strict : Bool := false
  /-- Whether the running command is a condition, which may fail. -/
  guarded : Bool := false
  /-- Whether a parameter must have a value. -/
  complete : Bool := false
  /-- Whether every command is shown before it runs. -/
  traced : Bool := false
  /-- Whether patterns are left as they are instead of becoming paths. -/
  verbatim : Bool := false
  /-- The variables that keep their values. -/
  settled : List String := []
  process : Nat := 1
  /-- How many loops are around the running command. -/
  loops : Nat := 0
  /-- What the local variables of the running function were before it; nothing outside functions. -/
  hidden : Option (List (String × Option String)) := none
  /-- What runs when a signal comes, or at the end, by the name of the event. -/
  traps : List (String × String) := []
  /-- The status of the last script whose output went into the running command. -/
  substituted : Option Nat := none
  /-- How long it has slept, in nanoseconds. -/
  slept : Nat := 0
  /-- How long it is watched. -/
  patience : Option Nat := none

/-- Why a script does not go on with the next command. -/
inductive Leave
  | exit (code : Nat)
  | signal (number : Nat)
  /-- Out of this many loops. -/
  | stop (levels : Nat)
  /-- To the next round of the loop this many levels up. -/
  | next (levels : Nat)
  /-- Back from a function. -/
  | back (code : Nat)
  | asleep
deriving DecidableEq, Repr

abbrev Act (α : Type) : Type := ExceptT Leave (StateM State) α

def setStatus (code : Nat) : Act Unit := modify fun s => { s with status := code }

/-! ## Variables -/

def unassign (name : String) : Act Unit :=
  modify fun s => { s with bindings := s.bindings.filter (·.1 != name) }

/-- Gives a variable a value, even one that is to keep the value it has. -/
def reassign (name value : String) : Act Unit :=
  modify fun s =>
    { s with bindings := (name, value) :: s.bindings.filter (·.1 != name) }

/-- The letters of the options that are set. -/
def State.letters (s : State) : String :=
  (if s.complete then "u" else "") ++ (if s.traced then "x" else "") ++
    (if s.verbatim then "f" else "") ++ (if s.strict then "e" else "")

/-- The value of a parameter. -/
def State.value? (s : State) (name : String) : Option String :=
  match name with
  | "@" | "*" => some (" ".intercalate s.arguments)
  | "#" => some (toString s.arguments.length)
  | "?" => some (toString s.status)
  | "$" => some (toString s.process)
  | "-" => some s.letters
  | "!" => some ""
  | "0" => some s.title
  | name =>
    match name.toNat? with
    | some n => s.arguments[n - 1]?
    | none => s.bindings.lookup name

/-! ## Streams -/

def State.stream (s : State) (number : Nat) : Stream := (s.streams.lookup number).getD .nothing

def redirectTo (number : Nat) (stream : Stream) : Act Unit :=
  modify fun s =>
    { s with streams := (number, stream) :: s.streams.filter (·.1 != number) }

def closeStream (number : Nat) : Act Unit :=
  modify fun s => { s with streams := s.streams.filter (·.1 != number) }

/-- Makes a pool that holds some bytes. -/
def newPool (bytes : ByteArray) : Act Nat := do
  let s ← get
  set { s with pools := s.pools ++ [bytes] }
  pure s.pools.length

def State.pool (s : State) (index : Nat) : ByteArray := s.pools.getD index .empty

def setPool (index : Nat) (bytes : ByteArray) : Act Unit :=
  modify fun s => { s with pools := s.pools.set index bytes }

/-- Writes bytes to a stream. -/
def writeTo (number : Nat) (bytes : ByteArray) : Act Unit := do
  let s ← get
  match s.stream number with
  | .nothing => pure ()
  | .file location => set { s with store := s.store.appendAt location bytes }
  | .pool index => setPool index (s.pool index ++ bytes)

def print (text : String) : Act Unit := writeTo 1 text.toUTF8

/-- Writes a line to the stream of complaints. -/
def complainOf (text : String) : Act Unit := writeTo 2 (text ++ "\n").toUTF8

/-- Complains under the name of the script and its line. -/
def complain (text : String) : Act Unit := do
  let s ← get
  complainOf (s.title ++ ": " ++ toString s.line ++ ": " ++ text)

/-- Ends the script with a complaint. -/
def giveUp {α : Type} (complaint : String) : Act α := do
  complain complaint
  throw (.exit 2)

/-- Gives a variable a value unless it is to keep the one it has; `command` says who complains. -/
def assign (name value : String) (command : String := "") : Act Unit := do
  if name ∈ (← get).settled then giveUp (command ++ name ++ ": is read only")
  else reassign name value

/-- All that is left to read from a stream. -/
def drain (number : Nat) : Act ByteArray := do
  let s ← get
  match s.stream number with
  | .pool index =>
    setPool index .empty
    pure (s.pool index)
  | _ => pure .empty

/-! ## Sleep -/

def sleep (nanoseconds : Nat) : Act Unit := do
  modify fun s => { s with slept := s.slept + nanoseconds }
  let s ← get
  match s.patience with
  | some patience => if patience ≤ s.slept then throw .asleep else pure ()
  | none => pure ()

end BlockWatch.Shell
