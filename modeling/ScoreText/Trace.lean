import ScoreText.Input
import ScoreText.Position

/-!
The debug log: what each stage reports about its work.
-/

namespace ScoreText

inductive Trace
  | lexed (tokens errors : Nat)
  | recovering (position : Position)
  | parsed (measures errors : Nat)
  | rejected (fault : InputFault)
  | rendering (measures : Nat) (format : String)
  | engraved (pages : Nat)
  deriving DecidableEq, Repr

namespace Trace

/-- The stage that writes an entry. -/
def source : Trace → String
  | .lexed .. => "scoreline.lexer"
  | .recovering .. | .parsed .. | .rejected .. => "scoreline.parser"
  | .rendering .. => "scoreline.exporter"
  | .engraved .. => "scoreline.renderers"

def message : Trace → String
  | .lexed tokens errors =>
    "Lexed " ++ toString tokens ++ " tokens, " ++ toString errors ++ " errors"
  | .recovering p => "Recovering at " ++ p.display
  | .parsed measures errors =>
    "Parsed " ++ toString measures ++ " measure(s) with " ++ toString errors ++ " error(s)"
  | .rejected fault => "Rejected input: " ++ fault.message
  | .rendering measures format =>
    "Rendering " ++ toString measures ++ " measure(s) as " ++ format
  | .engraved pages => "verovio engraved " ++ toString pages ++ " page(s)"

def line (t : Trace) : String := "DEBUG " ++ t.source ++ ": " ++ t.message

end Trace

end ScoreText
