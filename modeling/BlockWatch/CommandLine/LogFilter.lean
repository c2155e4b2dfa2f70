/-!
# Log filters

Which log lines are shown. A filter is a list of directives, each with a level and perhaps a target;
of those whose target a line's target starts with, the longest decides.
-/

namespace BlockWatch.CommandLine

/-- How much is shown. -/
inductive Level
  | off
  | error
  | warn
  | info
  | debug
  | trace
deriving DecidableEq, Repr

namespace Level

def rank : Level → Nat
  | off => 0
  | error => 1
  | warn => 2
  | info => 3
  | debug => 4
  | trace => 5

def names : List (String × Level) := [
  ("off", off), ("error", error), ("warn", warn), ("info", info), ("debug", debug),
  ("trace", trace), ("0", off), ("1", error), ("2", warn), ("3", info), ("4", debug),
  ("5", trace)]

/-- A level by its name, in letters of any case, or by its number. -/
def ofText? (text : String) : Option Level := names.lookup text.toLower

end Level

/-- A level for the targets that start with a text. -/
structure Directive where
  target : String
  level : Level
deriving DecidableEq, Repr

abbrev LogFilter : Type := List Directive

namespace LogFilter

/-- A level, a target, or both with a sign between them. -/
def directive? (text : String) : Option Directive :=
  let cs := text.toList
  let name := String.ofList (cs.takeWhile (· != '='))
  match cs.dropWhile (· != '=') with
  | '=' :: level => (Level.ofText? (String.ofList level)).map fun level => ⟨name, level⟩
  | _ =>
    match Level.ofText? name with
    | some level => some ⟨"", level⟩
    | none => some ⟨name, .trace⟩

/-- The filter that a text describes. Without directives only errors are shown. -/
def ofText? (text : String) : Option LogFilter := do
  let directives ← ((text.splitOn ",").filter (!·.isEmpty)).mapM directive?
  pure (if directives.isEmpty then [⟨"", .error⟩] else directives)

/-- The filter from a setting, or the one for everything up to a level. -/
def ofSetting (setting : Option String) (level : Level) : LogFilter :=
  (setting.bind ofText?).getD [⟨"", level⟩]

/-- Whether lines of a target are shown at a level. -/
def shows (filter : LogFilter) (target : String) (level : Level) : Bool :=
  let fitting := filter.filter fun d => target.startsWith d.target
  let longest := fitting.foldl (fun n d => max n d.target.length) 0
  match (fitting.filter fun d => d.target.length = longest).getLast? with
  | some d => level.rank ≤ d.level.rank
  | none => false

end LogFilter

end BlockWatch.CommandLine
