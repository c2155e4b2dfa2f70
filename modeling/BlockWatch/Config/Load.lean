import BlockWatch.Cluster.Machine
import BlockWatch.Config.Harness

/-!
# Loading the harness configuration

An environment variable names the file of the configuration; without it the defaults hold. A file
that is named has to be there.
-/

namespace BlockWatch

/-- The environment variable that names the file. -/
def configVariable : String := "SYNCWATCH_CONFIG"

namespace HarnessConfig

/-- The configuration that the text of a file holds. -/
def ofFileText (path : Path) (text : String) : Except (Stop ConfigError) HarnessConfig :=
  (ofText text).mapError (·.map (.malformed path))

/-- Reads the file at a path. -/
def ofFile {σ : Type} (machine : Machine σ) (path : Path) :
    Op σ (Stop ConfigError) HarnessConfig := do
  if ← machine.isThere path then
    let text ← (machine.readText path).adapt fun cause => .error (.unreadable path cause)
    ExceptT.mk (pure (ofFileText path text))
  else throw (.error (.notFound path))

/-- Reads the file that a setting names, if there is one. -/
def load {σ : Type} (machine : Machine σ) (setting : Option String) :
    Op σ (Stop ConfigError) HarnessConfig :=
  match setting with
  | some path => ofFile machine ⟨path⟩
  | none => pure {}

end HarnessConfig

end BlockWatch
