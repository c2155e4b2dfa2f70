import BlockWatch.Store.Basic

/-!
# Listings

All that can be seen below a directory, links followed, by path.
-/

namespace BlockWatch

/-- What is seen at a path. -/
inductive Seen
  | directory
  | bytes (contents : ByteArray)
  /-- Nothing that could be read. -/
  | missing

namespace Store

def seeContents (s : Store) (path : Path) : Seen :=
  match s.readBytes path with
  | .ok contents => .bytes contents
  | .error _ => .missing

/-- How deep a listing goes. -/
def maxListed : Nat := 256

/-- What is seen below a path, at most so many directories deep. -/
def below (s : Store) : Nat → Path → List (Path × Seen)
  | 0, _ => []
  | depth + 1, path =>
    match s.list path with
    | .error _ => []
    | .ok entries => entries.flatMap fun entry =>
      let inner := if path.text = "." then ⟨entry.1⟩ else path.child entry.1
      if s.isDirectory inner then (inner, .directory) :: below s depth inner
      else [(inner, s.seeContents inner)]

/-- What is seen below a path, in the order of the paths. -/
def listing (s : Store) (path : Path) : List (Path × Seen) :=
  (s.below maxListed path).mergeSort fun a b => decide (a.1.text ≤ b.1.text)

end Store

end BlockWatch
