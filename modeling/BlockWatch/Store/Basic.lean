import BlockWatch.Cluster.Machine
import BlockWatch.Store.Route

/-!
# Stores

A store is a tree of entries and the directory from which paths are followed. Its operations fail as
those of a file system do; an operation that fails leaves the store as it was, except where several
entries are made or removed one after the other.
-/

namespace BlockWatch

structure Store where
  root : Entry
  /-- The names from the root to the working directory. -/
  here : List String

namespace Store

abbrev Result (α : Type) : Type := Except IoError α

/-- Follows a path to its end. The last link on it is followed only if `follow` says so. -/
def locate (s : Store) (follow : Bool) (path : Path) : Result Place :=
  if path.text.isEmpty then .error .notFound
  else
    let route := Route.ofText path.text
    let start := if route.fromRoot then [] else s.here
    walk s.root (follow || route.closed) maxLinks start route.names

def mustBeDirectory (path : Path) : Bool := (Route.ofText path.text).closed

/-- The location and the entry that a path leads to. -/
def find (s : Store) (follow : Bool) (path : Path) : Result (List String × Entry) := do
  match ← s.locate follow path with
  | .occupied location =>
    match s.root.get? location with
    | some entry =>
      if mustBeDirectory path && !entry.isDirectory then .error .notDirectory
      else .ok (location, entry)
    | none => .error .notFound
  | .vacant .. => .error .notFound

/-- Puts an entry at a location. -/
def place (s : Store) (location : List String) (entry : Entry) : Store :=
  match location.getLast? with
  | none => s
  | some name => { s with root := s.root.modify (Entry.insert name entry) location.dropLast }

/-- Removes what is at a location. -/
def clear (s : Store) (location : List String) : Store :=
  match location.getLast? with
  | none => s
  | some name => { s with root := s.root.modify (Entry.erase name) location.dropLast }

/-! ## Reading -/

def isThere (s : Store) (path : Path) : Result Bool :=
  match s.find true path with
  | .ok _ => .ok true
  | .error cause => if cause = .notFound then .ok false else .error cause

def readBytes (s : Store) (path : Path) : Result ByteArray := do
  match ← s.find true path with
  | (_, .file contents _) => .ok contents
  | (_, .directory _) => .error .isDirectory
  | _ => .ok .empty

def readText (s : Store) (path : Path) : Result String := do
  match String.fromUTF8? (← s.readBytes path) with
  | some text => .ok text
  | none => .error .notText

/-- The entries of a directory. -/
def list (s : Store) (path : Path) : Result (List (String × Entry)) := do
  match ← s.find true path with
  | (_, .directory entries) => .ok entries
  | _ => .error .notDirectory

/-! ## Files -/

/-- Makes or changes the file that a path leads to; links are followed, also to where nothing is yet.
The location of the file is returned; what is written to a device is lost. -/
def alter (s : Store) (path : Path) (f : ByteArray → ByteArray) :
    Result (Option (List String) × Store) := do
  match ← s.locate true path with
  | .vacant parent name =>
    if mustBeDirectory path then .error .isDirectory
    else
      let location := parent ++ [name]
      .ok (some location, s.place location (.file (f .empty) false))
  | .occupied location =>
    match s.root.get? location with
    | some (.file contents executable) =>
      if mustBeDirectory path then .error .notDirectory
      else .ok (some location, s.place location (.file (f contents) executable))
    | some (.directory _) => .error .isDirectory
    | _ => .ok (none, s)

/-- Replaces the contents of a file or makes the file. -/
def writeBytes (s : Store) (path : Path) (contents : ByteArray) : Result Store := do
  pure (← s.alter path fun _ => contents).2

/-- Adds to the end of the file at a location, if it is still there. -/
def appendAt (s : Store) (location : List String) (bytes : ByteArray) : Store :=
  match s.root.get? location with
  | some (.file contents executable) => s.place location (.file (contents ++ bytes) executable)
  | _ => s

def setExecutable (s : Store) (path : Path) (executable : Bool) : Result Store := do
  match ← s.find true path with
  | (location, .file contents _) => .ok (s.place location (.file contents executable))
  | _ => .ok s

/-- Copies a file with its contents and whether it can be executed. A file that is copied onto
itself is emptied before it is read. -/
def copyFile (s : Store) (source target : Path) : Result Store := do
  match ← s.find true source with
  | (location, .file contents executable) =>
    let (copy, emptied) ← s.alter target fun _ => .empty
    match copy with
    | none => .ok emptied
    | some copy =>
      let contents := if copy = location then .empty else contents
      .ok (emptied.place copy (.file contents executable))
  | _ => .error .notFile

def makeLink (s : Store) (target : String) (path : Path) : Result Store := do
  match ← s.locate false path with
  | .vacant parent name => .ok (s.place (parent ++ [name]) (.link target))
  | .occupied _ => .error .alreadyExists

/-- Removes what is no directory; a link is removed itself. -/
def removeFile (s : Store) (path : Path) : Result Store := do
  match ← s.find false path with
  | (_, .directory _) => .error .isDirectory
  | (location, _) => .ok (s.clear location)

/-! ## Directories -/

def makeDirectory (s : Store) (path : Path) : Result Store := do
  match ← s.locate false path with
  | .vacant parent name => .ok (s.place (parent ++ [name]) (.directory []))
  | .occupied _ => .error .alreadyExists

def isDirectory (s : Store) (path : Path) : Bool :=
  match s.find true path with
  | .ok (_, entry) => entry.isDirectory
  | .error _ => false

/-- Makes a directory, or accepts the one that is there. -/
def ensureDirectory (s : Store) (path : Path) : Result Store :=
  match s.makeDirectory path with
  | .ok made => .ok made
  | .error cause => if s.isDirectory path then .ok s else .error cause

/-- The paths that lead to a path, the nearest first. A dot counts as a name only at the start. -/
def ancestors (path : Path) : List Path :=
  let route := Route.ofText path.text
  let names := match route.names with
    | [] => []
    | first :: rest =>
      (if first = "." && route.fromRoot then [] else [first]) ++ rest.filter (· != ".")
  let start := if route.fromRoot then "/" else ""
  (List.range names.length).reverse.map fun n =>
    ⟨start ++ "/".intercalate (names.take n)⟩

/-- Makes the first path whose parent is there, and then the rest. -/
def makeAlong (s : Store) (path : Path) : List Path → Result Store
  | [] => s.ensureDirectory path
  | parent :: further =>
    match s.makeDirectory path with
    | .ok made => .ok made
    | .error cause =>
      if cause = .notFound then
        if parent.text.isEmpty then s.ensureDirectory path
        else do (← s.makeAlong parent further).ensureDirectory path
      else if s.isDirectory path then .ok s
      else .error cause

/-- Makes a directory and those that lead to it, unless it is there. -/
def makeDirectories (s : Store) (path : Path) : Result Store :=
  if path.text.isEmpty then .ok s else s.makeAlong path (ancestors path)

/-- Removes an empty directory. -/
def removeDirectory (s : Store) (path : Path) : Result Store := do
  match ← s.find false path with
  | (location, .directory []) => .ok (s.clear location)
  | (_, .directory _) => .error .notEmpty
  | _ => .error .notDirectory

/-- Removes a directory with all that is in it; a link is removed itself. -/
def removeTree (s : Store) (path : Path) : Result Store := do
  match ← s.find false path with
  | (location, .directory _) => .ok (s.clear location)
  | (location, .link _) => .ok (s.clear location)
  | _ => .error .notDirectory

/-- Moves an entry to a vacant name, onto a file, or into a directory. -/
def rename (s : Store) (source target : Path) : Result Store := do
  let (location, entry) ← s.find false source
  let destination ← match ← s.locate false target with
    | .vacant parent name => pure (parent ++ [name])
    | .occupied there =>
      match s.root.get? there, entry with
      | some (.directory []), .directory _ => pure there
      | some (.directory _), .directory _ => .error .notEmpty
      | some (.directory _), _ => .error .isDirectory
      | _, .directory _ => .error .notDirectory
      | _, _ => pure there
  if destination = location then .ok s
  else if location.isPrefixOf destination then .error .invalidArgument
  else .ok ((s.clear location).place destination entry)

end Store

end BlockWatch
