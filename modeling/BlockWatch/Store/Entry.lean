/-!
# Entries of a store

An entry is a file, a directory, a symbolic link, a device that swallows what it is given, or an
installed tool. The entries of a directory are kept in the order of their names, which is also the
order in which they are listed.
-/

namespace BlockWatch

inductive Entry
  | file (contents : ByteArray) (executable : Bool)
  | directory (entries : List (String × Entry))
  | link (target : String)
  | device
  | tool (name : String)

instance : Inhabited Entry := ⟨.directory []⟩

namespace Entry

/-- The entry of a name. -/
def find? (name : String) : List (String × Entry) → Option Entry
  | [] => none
  | (other, entry) :: rest => if other = name then some entry else find? name rest

/-- Replaces the entry of a name, or puts a new one before the first greater name. -/
def insert (name : String) (entry : Entry) : List (String × Entry) → List (String × Entry)
  | [] => [(name, entry)]
  | (other, old) :: rest =>
    if other = name then (name, entry) :: rest
    else if name < other then (name, entry) :: (other, old) :: rest
    else (other, old) :: insert name entry rest

def erase (name : String) (entries : List (String × Entry)) : List (String × Entry) :=
  entries.filter (·.1 != name)

/-- The entry that some names lead to through directories. -/
def get? : List String → Entry → Option Entry
  | [], entry => some entry
  | name :: rest, directory entries =>
    match find? name entries with
    | some inner => get? rest inner
    | none => none
  | _ :: _, _ => none

/-- Changes the directory that some names lead to; nothing happens if it is none. -/
def modify (f : List (String × Entry) → List (String × Entry)) : List String → Entry → Entry
  | [], directory entries => directory (f entries)
  | name :: rest, directory entries =>
    match find? name entries with
    | some inner => directory (insert name (modify f rest inner) entries)
    | none => directory entries
  | _, entry => entry

def isDirectory : Entry → Bool
  | directory _ => true
  | _ => false

end Entry

end BlockWatch
