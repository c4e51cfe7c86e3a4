import ScoreText.Diagnostic

/-!
Errors as they are shown outside: diagnostics gathered into one message, and the line under which
an error is logged. Libraries break down in ways of their own.
-/

namespace ScoreText

structure NotationFault where
  message : String
  diagnostics : List Diagnostic
  deriving DecidableEq, Repr

/-- The message, with the diagnostics in brackets. -/
def NotationFault.display (f : NotationFault) : String :=
  match f.diagnostics with
  | [] => f.message
  | ds => f.message ++ " (" ++ "; ".intercalate (ds.map Diagnostic.display) ++ ")"

/-- The logged form of an error, with the place in the program where it was caught. -/
def loggedError (context : Option String) (message : String) : String :=
  match context.filter (· ≠ "") with
  | some c => "[scoreline - " ++ c ++ "] " ++ message
  | none => "[scoreline] " ++ message

structure LogRecord where
  level : String
  source : String
  message : String
  deriving DecidableEq, Repr

def logError (context : Option String) (message : String) : LogRecord :=
  ⟨"ERROR", "scoreline", loggedError context message⟩

/-- How a library breaks down: over a value, over the system, or otherwise. -/
inductive BreakdownKind
  | value
  | system
  | other
  deriving DecidableEq, Repr

/-- What a library reports when it breaks down, with the name it gives to the fault. -/
structure LibraryFault where
  kind : BreakdownKind
  name : String
  message : String
  deriving DecidableEq, Repr

/-- A fault as it is shown when nothing in the program catches it. -/
def LibraryFault.display (f : LibraryFault) : String :=
  if f.message = "" then f.name else f.name ++ ": " ++ f.message

end ScoreText
