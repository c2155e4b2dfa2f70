import BlockWatch.Time.Span

/-!
# Spans in one unit

The brief text of a span counts the largest of seconds, milliseconds, microseconds and
nanoseconds that the span holds at least one of, with a decimal fraction for the rest.
-/

namespace BlockWatch.Span

/-- `amount / 10 ^ places` in decimal, without trailing zeros after the point. -/
def decimalText (amount places : Nat) : String :=
  let rest := toString (amount % Nat.pow 10 places)
  let padded := List.replicate (places - rest.length) '0' ++ rest.toList
  let kept := (padded.reverse.dropWhile (· == '0')).reverse
  let whole := toString (amount / Nat.pow 10 places)
  if amount % Nat.pow 10 places = 0 then whole else whole ++ "." ++ String.ofList kept

/-- The brief text. -/
def brief (d : Span) : String :=
  if nanosPerSecond ≤ d.nanos then decimalText d.nanos 9 ++ "s"
  else if 1000000 ≤ d.nanos then decimalText d.nanos 6 ++ "ms"
  else if 1000 ≤ d.nanos then decimalText d.nanos 3 ++ "µs"
  else toString d.nanos ++ "ns"

end BlockWatch.Span
