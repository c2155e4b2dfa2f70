import BlockWatch.Text.Alike

/-!
# Arguments

The program takes at most one argument, a snapshot, and knows one flag, which asks for help. A flag
that is not known may have been meant as the snapshot; that is said as long as none was given.
-/

namespace BlockWatch.CommandLine

/-- Why the arguments are refused. -/
inductive UsageFlaw
  /-- An argument that nothing takes; whether it could be meant as a value, and the flag that it is
  like. -/
  | unexpected (argument : String) (maybeValue : Bool) (like : Option String)
  /-- A value for the flag that asks for help. -/
  | unexpectedValue (value : String)
  | emptySnapshot
deriving DecidableEq, Repr

def programName : String := "state-sync-massive"

def helpFlag : String := "--help"

/-- What stands last in every complaint about arguments. -/
def moreInformation : String := "For more information, try '--help'.\n"

def usage (flags : String) : String := "Usage: " ++ programName ++ " " ++ flags ++ "[SNAPSHOT]"

def UsageFlaw.message : UsageFlaw → String
  | unexpected argument maybeValue like =>
    let tip := match like with
      | some flag => "  tip: a similar argument exists: '" ++ flag ++ "'\n\n"
      | none =>
        if maybeValue then
          "  tip: to pass '" ++ argument ++ "' as a value, use '-- " ++ argument ++ "'\n\n"
        else ""
    "error: unexpected argument '" ++ argument ++ "' found\n\n" ++ tip ++
      usage (if like.isSome then helpFlag ++ " " else "") ++ "\n\n" ++ moreInformation
  | unexpectedValue value =>
    "error: unexpected value '" ++ value ++ "' for '" ++ helpFlag ++
      "' found; no more were expected\n\n" ++ usage (helpFlag ++ " ") ++ "\n\n" ++
      moreInformation
  | emptySnapshot =>
    "error: a value is required for '[SNAPSHOT]' but none was supplied\n\n" ++ moreInformation

/-- The lines that explain the program. -/
def help : List String := [
  "Watch block production while a late node state-syncs a large genesis",
  "",
  usage "",
  "",
  "Arguments:",
  "  [SNAPSHOT]  Prepared node home (genesis.json and data/) to copy into every node instead of " ++
    "generating accounts",
  "",
  "Options:",
  "  -h, --help  Print help"]

/-- What the arguments ask for. -/
inductive Request
  | run (snapshot : Option String)
  | help
  | refuse (flaw : UsageFlaw)
deriving DecidableEq, Repr

/-- An empty snapshot is refused once the arguments have been understood. -/
def settle (snapshot : Option String) (request : Request) : Request :=
  if snapshot = some "" then .refuse .emptySnapshot else request

/-- Takes the arguments one after the other; `literally` says that flags are over. -/
def request (literally : Bool) (snapshot : Option String) : List String → Request
  | [] => settle snapshot (.run snapshot)
  | argument :: rest =>
    let value : Request := match snapshot with
      | none => request literally (some argument) rest
      | some _ => .refuse (.unexpected argument false none)
    let maybeValue := snapshot.isNone
    if literally then value
    else match argument.toList with
      | ['-', '-'] => request true snapshot rest
      | '-' :: '-' :: letters =>
        let name := String.ofList (letters.takeWhile (· != '='))
        match letters.dropWhile (· != '=') with
        | '=' :: given =>
          if name = "help" then .refuse (.unexpectedValue (String.ofList given))
          else unknown name maybeValue
        | _ => if name = "help" then settle snapshot .help else unknown name maybeValue
      | '-' :: letter :: _ =>
        if letter = 'h' then settle snapshot .help
        else .refuse (.unexpected ("-" ++ String.singleton letter) maybeValue none)
      | _ => value
where
  /-- A flag that is not known. -/
  unknown (name : String) (maybeValue : Bool) : Request :=
    .refuse (.unexpected ("--" ++ name) maybeValue
      (if Text.areAlike name "help" then some helpFlag else none))

def Request.ofArguments (arguments : List String) : Request := request false none arguments

end BlockWatch.CommandLine
