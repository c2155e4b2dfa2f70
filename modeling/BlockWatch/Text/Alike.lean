/-!
# Texts that are alike

How alike two texts are by the characters they share: a character matches an equal one that stands
nearly as far from the start, each character matches at most once, and matches that come in another
order count half.
-/

namespace BlockWatch.Text

/-- Whether a character matches one between two places that is not taken yet; that one is then
taken. -/
def takeMatch (c : Char) (low high : Nat) : Nat → List (Char × Bool) → Option (List (Char × Bool))
  | _, [] => none
  | place, (d, taken) :: rest =>
    if low ≤ place ∧ place ≤ high ∧ c = d ∧ taken = false then some ((d, true) :: rest)
    else (takeMatch c low high (place + 1) rest).map ((d, taken) :: ·)

/-- The characters of the first text that match, and the second text with what is taken. -/
def matching (reach : Nat) : Nat → List Char → List (Char × Bool) →
    List Char × List (Char × Bool)
  | _, [], target => ([], target)
  | place, c :: rest, target =>
    match takeMatch c (place - reach) (place + reach) 0 target with
    | some target =>
      let (found, target) := matching reach (place + 1) rest target
      (c :: found, target)
    | none => matching reach (place + 1) rest target

/-- Whether two texts are alike: the mean of the share of the first that matches, the share of the
second, and the share of the matches in order is over seven tenths. -/
def areAlike (first second : String) : Bool :=
  let a := first.toList
  let b := second.toList
  let reach := max a.length b.length / 2 - 1
  let (found, target) := matching reach 0 a (b.map (·, false))
  let taken := (target.filter (·.2)).map (·.1)
  let m := found.length
  let disordered := ((found.zip taken).filter fun pair => pair.1 != pair.2).length / 2
  if m = 0 then a.isEmpty && b.isEmpty
  else
    let sides := a.length * b.length
    21 * sides * m < 10 * (m * m * b.length + m * m * a.length + (m - disordered) * sides)

end BlockWatch.Text
