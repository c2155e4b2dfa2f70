/-!
# Paths

A path is its text; nothing is normalised. Joining puts one slash between two parts unless one is
there or nothing stands on the left, and a right part that starts at the root stands alone.
-/

namespace BlockWatch

structure Path where
  text : String
deriving DecidableEq, Repr, Inhabited

namespace Path

def isAbsolute (p : Path) : Bool := p.text.startsWith "/"

def join (p q : Path) : Path :=
  if q.isAbsolute then q
  else if p.text.isEmpty || p.text.endsWith "/" then ⟨p.text ++ q.text⟩
  else ⟨p.text ++ "/" ++ q.text⟩

/-- The path of a name under `p`. -/
def child (p : Path) (name : String) : Path := p.join ⟨name⟩

end Path

end BlockWatch
