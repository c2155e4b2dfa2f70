import BlockWatch.Json.Value

/-!
# Dotted paths

A dotted path names a place inside an object by the keys that lead to it, split at every dot; an
empty part is a key like any other. `set` writes a value there and makes an object of whatever else
stands on the way, and `lookup` follows a path through objects only.
-/

namespace BlockWatch.Json

namespace DottedPath

/-- The parts between the separators; there is always one. -/
def splitAt (separator : Char) : List Char → List (List Char)
  | [] => [[]]
  | c :: rest =>
    if c = separator then [] :: splitAt separator rest
    else match splitAt separator rest with
      | [] => [[c]]
      | part :: parts => (c :: part) :: parts

/-- The keys of a path. -/
def keys (path : String) : List String := (splitAt '.' path.toList).map String.ofList

/-- Writes a value at the end of some keys. -/
def setKeys (value : Value) : List String → Members → Members
  | [], members => members
  | [key], members => members.insert key value
  | key :: rest, members =>
    let inner := match members.find? key with
      | some (.object inner) => inner
      | _ => []
    members.insert key (.object (setKeys value rest inner))

/-- Writes a value at a path. -/
def set (members : Members) (path : String) (value : Value) : Members :=
  setKeys value (keys path) members

/-- Writes values at paths, in order. -/
def setAll (members : Members) (changes : List (String × Value)) : Members :=
  changes.foldl (fun members change => set members change.1 change.2) members

/-- The value at the end of some keys. -/
def lookupKeys : List String → Value → Option Value
  | [], value => some value
  | key :: rest, .object members =>
    match Members.find? key members with
    | some value => lookupKeys rest value
    | none => none
  | _ :: _, _ => none

/-- The value at a path. -/
def lookup (members : Members) (path : String) : Option Value :=
  lookupKeys (keys path) (.object members)

end DottedPath

end BlockWatch.Json
