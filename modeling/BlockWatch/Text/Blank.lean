/-!
# White space

The characters of the Unicode property White_Space, which separate the parts of a span's text and
are trimmed from both ends of a program's complaint.
-/

namespace BlockWatch.Text

def isBlank (c : Char) : Bool :=
  let n := c.toNat
  (9 ≤ n && n ≤ 13) || n == 32 || n == 0x85 || n == 0xA0 || n == 0x1680 ||
    (0x2000 ≤ n && n ≤ 0x200A) || n == 0x2028 || n == 0x2029 || n == 0x202F || n == 0x205F ||
    n == 0x3000

/-- Drops white space from both ends. -/
def trim (s : String) : String :=
  let kept := s.toList.dropWhile isBlank
  String.ofList (kept.reverse.dropWhile isBlank).reverse

end BlockWatch.Text
