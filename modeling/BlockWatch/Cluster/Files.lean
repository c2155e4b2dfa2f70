import BlockWatch.Cluster.Error
import BlockWatch.Cluster.Machine
import BlockWatch.Json.DottedPath

/-!
# Node files

The files of a node's home hold objects. They are read whole, changed at dotted paths and written
back in the pretty form.
-/

namespace BlockWatch

def homePrefix : String := "test"

def genesisFile : String := "genesis.json"

def configFile : String := "config.json"

def nodeKeyFile : String := "node_key.json"

def dataDirectory : String := "data"

/-- An operation of bringup. -/
abbrev Bringup (σ α : Type) : Type := Op σ (Stop BringupError) α

namespace Bringup

variable {σ α : Type}

def fail (cause : BringupError) : Bringup σ α := throw (.error cause)

/-- Reports the failure of an operation at a path. -/
def atPath (path : Path) (op : Op σ IoError α) : Bringup σ α :=
  op.adapt fun cause => .error (.io path cause)

/-- Goes on with what is known already. -/
def ofExcept (outcome : Except (Stop BringupError) α) : Bringup σ α :=
  ExceptT.mk (pure outcome)

end Bringup

/-- The object that a text holds. -/
def objectOf (path : Path) (text : String) : Except (Stop BringupError) Json.Members :=
  match Json.Value.ofText text with
  | .ok (.object members) => .ok members
  | .ok _ => .error (.error (.notAnObject path))
  | .error stop => .error (stop.map (.malformed path))

/-- Reads the object in a file. -/
def readObject {σ : Type} (machine : Machine σ) (path : Path) : Bringup σ Json.Members := do
  let text ← Bringup.atPath path (machine.readText path)
  Bringup.ofExcept (objectOf path text)

/-- Writes values at dotted paths of the object in a file. -/
def patchFile {σ : Type} (machine : Machine σ) (path : Path)
    (changes : List (String × Json.Value)) : Bringup σ Unit := do
  let members ← readObject machine path
  let patched := Json.DottedPath.setAll members changes
  Bringup.atPath path (machine.writeText path (Json.Value.object patched).pretty)

/-- Runs a command and fails with what it complained of unless it succeeds. -/
def runToEnd {σ : Type} (machine : Machine σ) (command : Command) : Bringup σ Unit := do
  let finished ← (machine.run command).adapt fun cause =>
    .error (.spawn command.describe cause)
  if finished.status.isSuccess then pure ()
  else
    Bringup.fail (.commandFailed command.describe finished.status.text finished.complaint)

end BlockWatch
