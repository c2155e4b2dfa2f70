import BlockWatch.Shell.Word

/-!
# Commands of a script

The commands that a script is made of, and how their streams are redirected.
-/

namespace BlockWatch.Shell

/-- Where a stream goes. -/
inductive Redirection
  | read
  | write
  | append
  /-- To where another stream goes, or nowhere. -/
  | same
  /-- From lines of the script. -/
  | document
deriving DecidableEq, Repr

structure Redirect where
  stream : Nat
  kind : Redirection
  target : Word

inductive Command
  | simple (line : Nat) (assignments : List (String × Word)) (words : List Word)
    (redirects : List Redirect)
  | pipeline (negated : Bool) (parts : List Command)
  /-- The second runs if the first succeeds, or if it fails. -/
  | chain (ifSuccess : Bool) (first second : Command)
  | sequence (parts : List Command)
  | background (command : Command)
  | redirected (command : Command) (line : Nat) (redirects : List Redirect)
  | subshell (command : Command)
  /-- Runs the body as long as the condition succeeds, or as long as it fails. -/
  | loop (whileSuccess : Bool) (condition body : Command)
  /-- Runs the body for every word, or for every argument. -/
  | each (name : String) (words : Option (List Word)) (body : Command)
  | select (subject : Word) (arms : List (List Word × Command))
  | branch (condition accepted : Command) (refused : Option Command)
  | define (name : String) (body : Command)

end BlockWatch.Shell
