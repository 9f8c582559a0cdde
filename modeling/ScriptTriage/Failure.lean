/-
What can go wrong around an analysis, and how it is told to the user. A failure is hostile input if the script itself
caused it and not the surroundings.
-/

namespace ScriptTriage

inductive Failure where
  /-- the system refused to read or write -/
  | io (message : String)
  /-- the grammar could not be loaded -/
  | grammar (message : String)
  /-- the script could not be read -/
  | parse (reason : String)
  /-- the reader broke down on the script -/
  | crash
  /-- the options make no sense -/
  | configuration (message : String)
  /-- a registry refused a candidate -/
  | registry (message : String)
deriving DecidableEq, Repr, Inhabited

namespace Failure

def message : Failure → String
  | .io m => "I/O error: " ++ m
  | .grammar m => "failed to load JavaScript grammar: " ++ m
  | .parse reason => "script parsing failed: " ++ reason
  | .crash => "parser crashed while parsing script"
  | .configuration m => "configuration error: " ++ m
  | .registry m => "shellcode registry rejected candidate: " ++ m

/-- did the script itself cause it? -/
def isHostileInput : Failure → Bool
  | .parse _ | .crash => true
  | _ => false

/-- the failure of a reader that gives up on a script -/
def noTree : Failure := .parse "parser returned no tree"

/-- the failure of a script with syntax errors that is read strictly -/
def syntaxErrors : Failure := .parse "script contains syntax errors"

end Failure

end ScriptTriage
