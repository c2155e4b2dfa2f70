import BlockWatch.Cluster.Files

/-!
# Seeding

Before launch every home receives the same dataset: accounts that a program generates, or a copy of
the genesis file and the data directory of a snapshot. The homes are seeded one after the other, and
the first failure ends the seeding.
-/

namespace BlockWatch

/-- Where a dataset comes from. -/
inductive Dataset
  | generate (accounts : UInt64)
  | snapshot (source : Path)
  | skip
deriving DecidableEq, Repr

namespace Dataset

/-- A snapshot if one is given, and accounts otherwise. -/
def ofSnapshotOr (snapshot : Option Path) (accounts : UInt64) : Dataset :=
  match snapshot with
  | some source => .snapshot source
  | none => .generate accounts

def describe : Dataset → String
  | generate accounts => toString accounts ++ " generated accounts"
  | snapshot source => "snapshot " ++ source.text
  | skip => "no dataset"

end Dataset

/-- Fills homes with a dataset by a program that generates accounts and by copies of files. -/
structure Seeder where
  binary : Path
deriving DecidableEq

namespace Seeder

variable {σ : Type}

def populateCommand (seeder : Seeder) (accounts : UInt64) (home : Path) : Command where
  program := seeder.binary
  arguments := ["--home", home.text, "--additional-accounts-num", toString accounts]

/-- Generates accounts in every home. -/
def populate (seeder : Seeder) (machine : Machine σ) (accounts : UInt64) :
    List Path → Bringup σ Unit
  | [] => pure ()
  | home :: rest => do
    runToEnd machine (seeder.populateCommand accounts home)
    populate seeder machine accounts rest

/-- Copies the entries of a directory, those that are directories by `copyDirectory`. -/
def copyEntries (machine : Machine σ) (copyDirectory : Path → Path → Bringup σ Unit)
    (source target : Path) : List Listed → Bringup σ Unit
  | [] => pure ()
  | entry :: rest => do
    let inner := source.child entry.name
    let copy := target.child entry.name
    if entry.isDirectory then copyDirectory inner copy
    else Bringup.atPath inner (machine.copyFile inner copy)
    copyEntries machine copyDirectory source target rest

/-- Copies a directory with all that is in it. Paths have a limited length, which limits how deep a
directory can lie as well. -/
def copyTree (machine : Machine σ) : Nat → Path → Path → Bringup σ Unit
  | 0, source, _ => Bringup.fail (.io source (.system 36))
  | depth + 1, source, target => do
    Bringup.atPath target (machine.makeDirectories target)
    let entries ← Bringup.atPath source (machine.list source)
    copyEntries machine (copyTree machine depth) source target entries

/-- The most directories that can lie in each other, as each adds two bytes to a path of at most
4096. -/
def maxDepth : Nat := 2048

/-- Copies the genesis file and the data directory of a snapshot into one home. -/
def copyInto (machine : Machine σ) (source home : Path) : Bringup σ Unit := do
  let genesis := home.child genesisFile
  Bringup.atPath genesis (machine.copyFile (source.child genesisFile) genesis)
  let target := home.child dataDirectory
  if ← machine.isThere target then
    Bringup.atPath target (machine.removeTree target)
  let data := source.child dataDirectory
  if ← machine.isThere data then
    copyTree machine maxDepth data target

def copyIntoAll (machine : Machine σ) (source : Path) : List Path → Bringup σ Unit
  | [] => pure ()
  | home :: rest => do
    copyInto machine source home
    copyIntoAll machine source rest

/-- Copies a snapshot into every home. A snapshot has to have a genesis file. -/
def copySnapshot (machine : Machine σ) (source : Path) (homes : List Path) : Bringup σ Unit := do
  if ← machine.isThere (source.child genesisFile) then
    copyIntoAll machine source homes
  else Bringup.fail (.invalidSnapshot source)

/-- Seeds every home from a dataset. -/
def seed (seeder : Seeder) (machine : Machine σ) (dataset : Dataset) (homes : List Path) :
    Bringup σ Unit :=
  match dataset with
  | .generate accounts => seeder.populate machine accounts homes
  | .snapshot source => copySnapshot machine source homes
  | .skip => pure ()

end Seeder

end BlockWatch
