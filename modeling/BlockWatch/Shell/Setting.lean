import BlockWatch.Shell.Redirected
import BlockWatch.Shell.Utility

/-!
# Settings of a script

What a script changes about itself: its variables and which of them others see, its options and
arguments, and what runs at its end or when a signal comes.
-/

namespace BlockWatch.Shell

/-- The number that a command takes, or the end of the script. -/
def numberFor (command : String) (text : String) : Act Nat := do
  if !text.isEmpty && text.all Char.isDigit then pure (Printed.natOf text.toList)
  else giveUp (command ++ ": Illegal number: " ++ text)

/-- Assigns as a text says; `command` does it. Gives the name. -/
def assignText (command text : String) : Act String := do
  let cs := text.toList
  let name := String.ofList (cs.takeWhile (· != '='))
  match cs.dropWhile (· != '=') with
  | '=' :: value => assign name (String.ofList value) (command ++ ": ")
  | _ => pure ()
  pure name

/-- Assigns as texts say, and notes something of the names. -/
def assignTexts (command : String) (note : String → State → State) : List String → Act Unit
  | [] => pure ()
  | text :: rest => do
    if text.startsWith "-" then pure ()
    else
      let name ← assignText command text
      modify (note name)
    assignTexts command note rest

def exportAll : List String → Act Unit :=
  assignTexts "export" fun name s => { s with exported := name :: s.exported }

def settleAll : List String → Act Unit :=
  assignTexts "readonly" fun name s => { s with settled := name :: s.settled }

/-- Makes variables local to the running function. -/
def hideAll : List String → Act Unit
  | [] => pure ()
  | text :: rest => do
    let name := String.ofList (text.toList.takeWhile (· != '='))
    modify fun s =>
      { s with hidden := s.hidden.map fun hidden => (name, s.bindings.lookup name) :: hidden }
    let _ ← assignText "local" text
    hideAll rest

/-- Puts back what local variables were before. -/
def unhide : List (String × Option String) → Act Unit
  | [] => pure ()
  | (name, value) :: rest => do
    match value with
    | some value => reassign name value
    | none => unassign name
    unhide rest

/-- Sets options and arguments. -/
def setOptions : List String → Act Unit
  | [] => pure ()
  | "--" :: arguments => modify fun s => { s with arguments }
  | "-o" :: _ :: rest | "+o" :: _ :: rest => setOptions rest
  | argument :: rest => do
    match argument.toList with
    | '-' :: letters =>
      modify fun s =>
        { s with
          strict := s.strict || letters.contains 'e'
          complete := s.complete || letters.contains 'u'
          traced := s.traced || letters.contains 'x'
          verbatim := s.verbatim || letters.contains 'f' }
      setOptions rest
    | '+' :: letters =>
      modify fun s =>
        { s with
          strict := s.strict && !letters.contains 'e'
          complete := s.complete && !letters.contains 'u'
          traced := s.traced && !letters.contains 'x'
          verbatim := s.verbatim && !letters.contains 'f' }
      setOptions rest
    | _ => modify fun s => { s with arguments := argument :: rest }

/-- The name of an event that can be trapped: the end, or a signal. -/
def eventOf (text : String) : String :=
  if text = "EXIT" || text = "0" then "EXIT"
  else match Utility.signal? text with
    | some number => toString number
    | none => text

/-- Sets what runs at some events; a dash or nothing takes it away. -/
def setTraps (arguments : List String) : Act Unit := do
  let (action, events) : Option String × List String := match arguments with
    | [event] => (none, [event])
    | "-" :: events => (none, events)
    | "--" :: action :: events | action :: events => (some action, events)
    | [] => (none, [])
  let events := events.map eventOf
  modify fun s =>
    let others := s.traps.filter fun entry => entry.1 ∉ events
    { s with
      traps := match action with
        | some action => events.map (·, action) ++ others
        | none => others }

/-- Gives the fields of a line to names, the last of which takes all that is left. -/
def assignFields (separators : List Char) : List String → List Char → Act Unit
  | [], _ => pure ()
  | [name], cs =>
    let isSeparator (c : Char) : Bool := c ∈ separators
    assign name
      (String.ofList ((cs.dropWhile isSeparator).reverse.dropWhile isSeparator).reverse)
  | name :: rest, cs => do
    let isSeparator (c : Char) : Bool := c ∈ separators
    let cs := cs.dropWhile isSeparator
    assign name (String.ofList (cs.takeWhile fun c => !isSeparator c))
    assignFields separators rest ((cs.dropWhile fun c => !isSeparator c).drop 1)

/-- Reads a line into variables. -/
def readLine (names : List String) : Act Unit := do
  let bytes ← drain 0
  let all := bytes.toList
  let line := all.takeWhile (· != 10)
  let rest := (all.dropWhile (· != 10)).drop 1
  match (← get).stream 0 with
  | .pool index => setPool index ⟨rest.toArray⟩
  | _ => pure ()
  let names := names.filter (!·.startsWith "-")
  assignFields (Expansion.separators (← get)) names
    (Text.ofBytes ⟨line.toArray⟩).toList
  setStatus (if line.length = all.length then 1 else 0)

end BlockWatch.Shell
