import BlockWatch.Bench
import BlockWatch.CommandLine.Session
import BlockWatch.Poll.Status

/-!
# The program

A session on a bench. Its files come from standard input as an object of texts by path; its log and
its complaint go to the two streams of the program, and its exit code is the program's.
-/

namespace BlockWatch.CommandLine

/-- Nothing on a bench can be reached over a network. -/
def unreachable : Poller (ClusterState Bench) := fun node next =>
  { outcome := Exchange.unreachable.report node.name node.rpcUrl
      (defaultStatusTimeout.nanos / 1000000)
    next }

/-- The bench that a text describes; nothing is on it if the text is no object. -/
def benchOf (text : String) : Bench :=
  match Json.Members.ofText text with
  | .ok files => .ofFiles files
  | .error _ => .blank

/-- What a session comes to on the bench that a text describes. -/
def sessionOn (text : String) (environment : Environment) (arguments : List String) : Outcome :=
  session Bench.machine unreachable environment arguments (benchOf text)

end BlockWatch.CommandLine

open BlockWatch BlockWatch.CommandLine

/-- All that is left on a stream. -/
partial def readAll (stream : IO.FS.Stream) (sofar : String) : IO String := do
  let line ← stream.getLine
  if line.isEmpty then pure sofar else readAll stream (sofar ++ line)

def main (arguments : List String) : IO UInt32 := do
  let text ← match Request.ofArguments arguments with
    | .run _ => readAll (← IO.getStdin) ""
    | _ => pure ""
  let names := [configVariable, verboseVariable, logVariable]
  let values ← names.mapM fun name => return (name, ← IO.getEnv name)
  let outcome := sessionOn text (fun name => (values.lookup name).join) arguments
  for line in outcome.lines Span.brief do
    IO.println line
  IO.eprint outcome.complaint
  return UInt32.ofNat outcome.exitCode
