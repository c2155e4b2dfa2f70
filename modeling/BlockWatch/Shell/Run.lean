import BlockWatch.Shell.Launch

/-!
# Running scripts

`step` runs one command, given a way to run the commands inside it; `execute` ties the two together
for as many steps in depth as it is given. Loops have a limited number of rounds, so every run comes
to an end; one that reaches a limit counts as asleep.
-/

namespace BlockWatch.Shell

/-- Puts variables back as they were. -/
def restore (names : List String) (before : List (String × String)) : Act Unit :=
  modify fun s =>
    { s with
      bindings := before.filter (fun entry => entry.1 ∈ names) ++
        s.bindings.filter fun entry => entry.1 ∉ names }

def assignWords (run : Command → Act Unit) : List (String × Word) → Act Unit
  | [] => pure ()
  | (name, word) :: rest => do
    assign name (← Expansion.text (substitute run) word)
    assignWords run rest

/-- Shows a command before it runs, if it is to be shown. -/
def trace (names words : List String) : Act Unit := do
  let s ← get
  if s.traced then
    let assignments := names.map fun name => name ++ "=" ++ (s.bindings.lookup name).getD ""
    complainOf ("+ " ++ " ".intercalate (assignments ++ words))

/-- Runs a simple command. -/
def simple (run : Command → Act Unit) (line : Nat) (assignments : List (String × Word))
    (words : List Word) (redirects : List Redirect) : Act Unit := do
  modify fun s => { s with line, substituted := none }
  match ← Expansion.allTexts (substitute run) words with
  | [] =>
    assignWords run assignments
    if !assignments.isEmpty then trace (assignments.map (·.1)) []
    setStatus ((← get).substituted.getD 0)
    withRedirects run redirects (pure ())
  | name :: arguments =>
    let streams := (← get).streams
    if ← redirectAll run redirects then
      let before := (← get).bindings
      let exported := (← get).exported
      let names := assignments.map (·.1)
      assignWords run assignments
      modify fun s => { s with exported := names ++ s.exported }
      let within := (← get).streams
      modify fun s => { s with streams }
      trace names (name :: arguments)
      modify fun s => { s with streams := within }
      ending (dispatch run 8 name arguments) do
        modify fun s => { s with exported := if names.isEmpty then s.exported else exported }
        if name ∉ specialCommands then restore names before
        if !(name = "exec" && arguments.isEmpty) then modify fun s => { s with streams }
    else
      modify fun s => { s with streams }
      setStatus 2
      if name ∈ specialCommands then throw (.exit 2)
  check

/-- Runs the parts of a pipeline, each with what the one before it prints. -/
def pipeline (run : Command → Act Unit) : List Command → Act Unit
  | [] => pure ()
  | [last] => isolated (run last)
  | first :: rest => do
    let bytes ← captured (run first)
    let index ← newPool bytes
    let streams := (← get).streams
    redirectTo 0 (.pool index)
    pipeline run rest
    modify fun s => { s with streams }

/-- The first arm that fits. -/
def chosen (run : Command → Act Unit) (subject : String) :
    List (List Word × Command) → Act (Option Command)
  | [] => pure none
  | (alternatives, body) :: rest => do
    let found ← alternatives.mapM fun word => Expansion.pieces (substitute run) word
    if found.any fun glyphs => (Pattern.of glyphs).fits subject.toList then pure (some body)
    else chosen run subject rest

/-- What a loop does after a round, and whether it goes on. -/
def afterRound (outcome : Except Leave Unit) : Act Bool :=
  match outcome with
  | .ok () => pure true
  | .error (.stop levels) => if levels ≤ 1 then pure false else throw (.stop (levels - 1))
  | .error (.next levels) => if levels ≤ 1 then pure true else throw (.next (levels - 1))
  | .error leave => throw leave

/-- Runs the body of a loop. -/
def inLoop (run : Command → Act Unit) (body : Command) : Act (Except Leave Unit) := do
  let loops := (← get).loops
  modify fun s => { s with loops := loops + 1 }
  let outcome ← attempt (run body)
  modify fun s => { s with loops }
  pure outcome

def rounds (run : Command → Act Unit) (name : String) (body : Command) : List String → Act Unit
  | [] => pure ()
  | value :: rest => do
    assign name value
    let outcome ← inLoop run body
    if ← afterRound outcome then rounds run name body rest else pure ()

/-- The rounds of a loop, after one that left a status. A loop that runs out of rounds counts as
asleep. -/
def loop (run : Command → Act Unit) (whileSuccess : Bool) (condition body : Command) :
    Nat → Nat → Act Unit
  | 0, _ => throw .asleep
  | left + 1, status => do
    guarded (run condition)
    if ((← get).status = 0) = whileSuccess then
      let outcome ← inLoop run body
      let status := (← get).status
      if ← afterRound outcome then loop run whileSuccess condition body left status
      else setStatus 0
    else setStatus status

/-- The most rounds of a loop. -/
def maxRounds : Nat := 10000

def sequence (run : Command → Act Unit) : List Command → Act Unit
  | [] => pure ()
  | first :: rest => do
    run first
    sequence run rest

/-- Runs one command; `run` runs the commands inside it. -/
def step (run : Command → Act Unit) : Command → Act Unit
  | .simple line assignments words redirects => simple run line assignments words redirects
  | .pipeline negated parts => do
    if negated then
      guarded (match parts with
        | [single] => run single
        | parts => pipeline run parts)
      setStatus (if (← get).status = 0 then 1 else 0)
    else
      pipeline run parts
      check
  | .chain ifSuccess first second => do
    guarded (run first)
    if ((← get).status = 0) = ifSuccess then run second else pure ()
  | .sequence parts => sequence run parts
  | .background command => do
    let slept := (← get).slept
    let patience := (← get).patience
    modify fun s => { s with patience := some slept.succ }
    let outcome ← attempt (isolated (run command))
    modify fun s => { s with slept, patience }
    match outcome with
    | .error (.signal number) => throw (.signal number)
    | _ => setStatus 0
  | .redirected command line redirects => do
    modify fun s => { s with line }
    withRedirects run redirects (run command)
  | .subshell command => do
    isolated (run command)
    check
  | .loop whileSuccess condition body => loop run whileSuccess condition body maxRounds 0
  | .each name words body => do
    let values ← match words with
      | some words => Expansion.allTexts (substitute run) words
      | none => pure (← get).arguments
    setStatus 0
    rounds run name body values
  | .select subject arms => do
    let text ← Expansion.text (substitute run) subject
    match ← chosen run text arms with
    | some body =>
      setStatus 0
      run body
    | none => setStatus 0
  | .branch condition accepted refused => do
    guarded (run condition)
    if (← get).status = 0 then run accepted
    else match refused with
      | some refused => run refused
      | none => setStatus 0
  | .define name body => do
    modify fun s => { s with functions := (name, body) :: s.functions }
    setStatus 0

/-- Runs a command in at most so many steps in depth. -/
def execute : Nat → Command → Act Unit
  | 0 => fun _ => throw .asleep
  | depth + 1 => step (execute depth)

/-- The most steps in depth. -/
def maxDepth : Nat := 1000

/-- How a process ends; nothing if it does not. -/
def Leave.status? : Leave → State → Option ExitStatus
  | .exit code, _ | .back code, _ => some (.exited code)
  | .signal number, _ => some (.signaled number)
  | .stop _, s | .next _, s => some (.exited s.status)
  | .asleep, _ => none

/-- Runs a script, and at its end what is to run then. -/
def runWhole (run : Command → Act Unit) (text : String) : Act Unit := do
  let outcome ← attempt (runText run text)
  let s ← get
  let code := match outcome with
    | .error (.exit code) => some code
    | .ok () => some s.status
    | .error _ => none
  match code, s.traps.lookup "EXIT" with
  | some code, some action =>
    setStatus code
    modify fun s => { s with traps := [] }
    runText run action
    throw (.exit code)
  | _, _ =>
    match outcome with
    | .ok () => pure ()
    | .error leave => throw leave

/-- Runs a tool as a process: how it ends, if it does, and the state it leaves. -/
def process (invocation : Invocation) (s : State) : Option ExitStatus × State :=
  let act : Act Unit := do
    if invocation.tool ∈ ["sh", "dash", "bash"] then
      match shellOptions false false invocation.arguments with
      | (strict, false, path :: arguments) =>
        match s.store.readBytes ⟨path⟩ with
        | .ok bytes =>
          set { s with title := path, arguments, strict }
          runWhole (execute maxDepth) (Text.ofBytes bytes)
        | .error cause =>
          complainOf ("sh: 0: cannot open " ++ path ++ ": " ++ openingWords false cause)
          setStatus 2
      | _ => runShell (execute maxDepth) invocation.arguments
    else runTool (execute maxDepth) Program.maxNested invocation
  let (outcome, after) := act.run.run s
  match outcome with
  | .ok () => (some (.exited after.status), after)
  | .error leave => (leave.status? after, after)

end BlockWatch.Shell
