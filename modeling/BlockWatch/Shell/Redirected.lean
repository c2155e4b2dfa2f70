import BlockWatch.Shell.Isolated

/-!
# Redirections

A redirection opens a file, takes lines of the script or follows another stream. What cannot be
opened is complained of, and the command does not run.
-/

namespace BlockWatch.Shell

/-- The words for a file that cannot be opened. -/
def openingWords (forWriting : Bool) (cause : IoError) : String :=
  if cause = .notFound || cause = .notDirectory then
    if forWriting then "Directory nonexistent" else "No such file"
  else cause.words

/-- Redirects a stream, or complains and says that it cannot. -/
def redirect (run : Command → Act Unit) (r : Redirect) : Act Bool := do
  let target ← Expansion.text (substitute run) r.target
  let store := (← get).store
  let write (f : ByteArray → ByteArray) : Act Bool := do
    match store.alter ⟨target⟩ f with
    | .ok (location, store) =>
      modify fun s => { s with store }
      redirectTo r.stream (match location with
        | some location => .file location
        | none => .nothing)
      pure true
    | .error cause =>
      complain ("cannot create " ++ target ++ ": " ++ openingWords true cause)
      pure false
  match r.kind with
  | .write => write fun _ => .empty
  | .append => write id
  | .read =>
    match store.readBytes ⟨target⟩ with
    | .ok bytes =>
      redirectTo r.stream (.pool (← newPool bytes))
      pure true
    | .error cause =>
      complain ("cannot open " ++ target ++ ": " ++ openingWords false cause)
      pure false
  | .document =>
    redirectTo r.stream (.pool (← newPool target.toUTF8))
    pure true
  | .same =>
    match target.toNat? with
    | some number =>
      match (← get).streams.lookup number with
      | some stream =>
        redirectTo r.stream stream
        pure true
      | none =>
        complain (target ++ ": Bad file descriptor")
        pure false
    | none =>
      closeStream r.stream
      pure true

def redirectAll (run : Command → Act Unit) : List Redirect → Act Bool
  | [] => pure true
  | r :: rest => do
    if ← redirect run r then redirectAll run rest else pure false

/-- Runs something with redirected streams and puts the streams back. -/
def withRedirects (run : Command → Act Unit) (redirects : List Redirect) (act : Act Unit) :
    Act Unit := do
  let streams := (← get).streams
  if ← redirectAll run redirects then
    ending act (modify fun s => { s with streams })
  else
    modify fun s => { s with streams }
    setStatus 2

end BlockWatch.Shell
