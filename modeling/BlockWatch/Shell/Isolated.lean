import BlockWatch.Shell.Expansion
import BlockWatch.Shell.Reader

/-!
# Scripts inside scripts

A script runs line by line. It may run apart from what is around it, so that only the store, the
pools of bytes and the time it slept outlive it; what it prints may be captured; and its failure may
be no failure of what runs it.
-/

namespace BlockWatch.Shell

/-- Runs the commands of a script one line after the other. A line takes a token at least. What is
missing is missed on the last line. -/
def runLines (run : Command → Act Unit) (last : Nat) : Nat → List Lexeme → Act Unit
  | 0, _ => pure ()
  | rounds + 1, lexemes => do
    match Reader.nextLine lexemes with
    | none => pure ()
    | some (.ok (command, rest)) =>
      run command
      runLines run last rounds rest
    | some (.error flaw) =>
      modify fun s => { s with line := if flaw.line = 0 then last else flaw.line }
      giveUp ("Syntax error: " ++ flaw.complaint)

def runText (run : Command → Act Unit) (text : String) : Act Unit :=
  let lexemes := Token.ofText text
  runLines run (1 + Token.lineBreaks text.toList) (lexemes.length + 1) lexemes

/-! ## Shells inside shells -/

/-- How something ends. -/
def attempt (act : Act Unit) : Act (Except Leave Unit) := ExceptT.mk do
  pure (.ok (← act.run))

/-- Runs something that cannot change the variables and the streams around it. A signal is for the
whole process; `onSignal` says what becomes of one. -/
def isolated (act : Act Unit) (onSignal : Nat → Act Unit := fun number => throw (.signal number)) :
    Act Unit := do
  let before ← get
  let outcome ← attempt act
  modify fun after =>
    { before with
      store := { after.store with here := before.store.here }
      pools := after.pools
      slept := after.slept
      status := after.status }
  match outcome with
  | .ok () | .error (.stop _) | .error (.next _) => pure ()
  | .error (.exit code) | .error (.back code) => setStatus code
  | .error (.signal number) => onSignal number
  | .error .asleep => throw .asleep

/-- What something prints. -/
def captured (act : Act Unit) : Act ByteArray := do
  let index ← newPool .empty
  isolated do
    redirectTo 1 (.pool index)
    act
  pure ((← get).pool index)

/-- What a script prints, as text. -/
def substitute (run : Command → Act Unit) (text : String) : Act String := do
  let before := (← get).status
  let bytes ← captured (runText run text)
  modify fun s => { s with substituted := some s.status, status := before }
  pure (Text.ofBytes bytes)

/-- Does something last, however what comes before it ends. -/
def ending (act last : Act Unit) : Act Unit := do
  let outcome ← attempt act
  last
  match outcome with
  | .ok () => pure ()
  | .error leave => throw leave

/-- Runs something whose failure does not end the script. -/
def guarded (act : Act Unit) : Act Unit := do
  let before := (← get).guarded
  modify fun s => { s with guarded := true }
  ending act (modify fun s => { s with guarded := before })

/-- Ends a strict script if the last command failed. -/
def check : Act Unit := do
  let s ← get
  if s.strict && !s.guarded && s.status != 0 then throw (.exit s.status) else pure ()

end BlockWatch.Shell
