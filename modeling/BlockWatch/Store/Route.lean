import BlockWatch.IoError
import BlockWatch.Json.DottedPath
import BlockWatch.Path
import BlockWatch.Store.Entry

/-!
# Routes

A path leads through directories one name at a time. A link on the way is replaced by its target; at
most `maxLinks` of them are followed, so no walk goes in circles. The last name may be vacant in a
directory that is there, which is where something new can be made.
-/

namespace BlockWatch

/-- A name of one entry, which is not a way to stay or to go up. -/
structure ProperName (name : String) : Prop where
  nonempty : name.toList ≠ []
  unbroken : '/' ∉ name.toList
  notHere : name ≠ "."
  notUp : name ≠ ".."

instance (name : String) : Decidable (ProperName name) :=
  decidable_of_iff (name.toList ≠ [] ∧ '/' ∉ name.toList ∧ name ≠ "." ∧ name ≠ "..")
    ⟨fun ⟨nonempty, unbroken, notHere, notUp⟩ => ⟨nonempty, unbroken, notHere, notUp⟩,
      fun h => ⟨h.nonempty, h.unbroken, h.notHere, h.notUp⟩⟩

/-- A path taken apart. -/
structure Route where
  fromRoot : Bool
  names : List String
  /-- Whether the path ends in a slash, so that it must lead to a directory. -/
  closed : Bool

namespace Route

/-- Slashes in a row count as one. -/
def ofText (text : String) : Route where
  fromRoot := text.startsWith "/"
  names := ((Json.DottedPath.splitAt '/' text.toList).filter (!·.isEmpty)).map String.ofList
  closed := text.endsWith "/"

end Route

/-- Where a walk ends: at an entry, or at a vacant name of a directory. Both are given by names from
the root. -/
inductive Place
  | occupied (location : List String)
  | vacant (parent : List String) (name : String)
deriving DecidableEq, Repr

/-- The most links that are followed on one walk. -/
def maxLinks : Nat := 40

/-- Walks on from a directory; `jump` goes on at the target of a link. -/
def walkIn (root : Entry) (follow : Bool)
    (jump : List String → String → List String → Except IoError Place) :
    List String → List String → Except IoError Place
  | here, [] => .ok (.occupied here)
  | here, name :: rest =>
    match root.get? here with
    | some (.directory entries) =>
      if name = "." then walkIn root follow jump here rest
      else if name = ".." then walkIn root follow jump here.dropLast rest
      else match Entry.find? name entries with
        | none => if rest.isEmpty then .ok (.vacant here name) else .error .notFound
        | some (.link target) =>
          if rest.isEmpty && !follow then .ok (.occupied (here ++ [name]))
          else jump here target rest
        | some _ => walkIn root follow jump (here ++ [name]) rest
    | _ => .error .notDirectory

/-- Walks along names, following as many links as are left. -/
def walk (root : Entry) (follow : Bool) : Nat → List String → List String → Except IoError Place
  | 0 => walkIn root follow fun _ _ _ => .error .tooManyLinks
  | links + 1 => walkIn root follow fun here target rest =>
    let route := Route.ofText target
    let start := if route.fromRoot then [] else here
    walk root follow links start
      (route.names ++ (if route.closed then ["."] else []) ++ rest)

end BlockWatch
