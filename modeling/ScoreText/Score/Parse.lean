import ScoreText.Score.Event
import ScoreText.Token.Lexer
import ScoreText.Trace

/-!
Parsing: from tokens or from a text to a score and its diagnostics. A text with lexical errors is
parsed only when the options are not strict.
-/

namespace ScoreText

structure ParserOptions where
  /-- Report lexical errors without parsing. -/
  strict : Bool := true
  /-- Go on after a malformed item. -/
  allowPartial : Bool := false
  /-- Stop after this many errors; numbers below 1 count as 1. -/
  maxErrors : Int := 10
  deriving DecidableEq, Repr

namespace ParserOptions

/-- How many errors may be recorded. -/
def limit (o : ParserOptions) : Nat := (max 1 o.maxErrors).toNat

/-- Whether the parser skips ahead after a malformed item. -/
def canRecover (o : ParserOptions) : Bool := o.allowPartial || 1 < o.limit

end ParserOptions

/-- The outcome of a parse. There is no score when the parser never ran. -/
structure ParseResult where
  success : Bool
  diagnostics : List Diagnostic
  score : Option Score
  deriving DecidableEq, Repr

def tokenEvents (options : ParserOptions) (tokens : List Token) : List Event :=
  (Cursor.ofTokens tokens).readEvents options.canRecover options.limit

/-- The outcome that the events of a reading amount to. -/
def ParseResult.ofEvents (events : List Event) : ParseResult where
  success := (events.filterMap Event.diagnostic?).isEmpty
  diagnostics := events.filterMap Event.diagnostic?
  score := some (Score.ofItems (events.filterMap Event.item?))

def parseTokens (options : ParserOptions) (tokens : List Token) :
    Except TokenFault ParseResult :=
  let events := tokenEvents options tokens
  match events.findSome? Event.fault? with
  | some fault => .error fault
  | none => .ok (.ofEvents events)

/-- The tokens that a text is parsed from, and its lexical errors. -/
def lexForParse (text : String) : Lexed := lex text { ignoreWhitespace := true }

def parseText (options : ParserOptions) (text : String) : Except TokenFault ParseResult :=
  let lexed := lexForParse text
  if options.strict && !lexed.diagnostics.isEmpty then
    .ok ⟨false, lexed.diagnostics.take options.limit, none⟩
  else do
    let result ← parseTokens options lexed.tokens
    return ⟨result.success && lexed.diagnostics.isEmpty,
      (lexed.diagnostics ++ result.diagnostics).take options.limit, result.score⟩

/-- Parses whatever is offered as notation; only a text can be. -/
def parse (options : ParserOptions) : Input → Except TokenFault ParseResult
  | .text content => parseText options content
  | .other kind => .ok
    ⟨false, [{ problem := .rejectedInput ⟨"string", kind⟩, position := .start }], none⟩

def Lexed.trace (lexed : Lexed) : Trace :=
  .lexed lexed.tokens.length lexed.diagnostics.length

def parseTokensTrace (options : ParserOptions) (tokens : List Token) : List Trace :=
  let events := tokenEvents options tokens
  let recovered := if options.canRecover then events.filterMap Event.givenUp? else []
  let items := events.filterMap Event.item?
  recovered.map .recovering ++
    [.parsed (Score.ofItems items).measures.length (events.filterMap Event.diagnostic?).length]

def parseTextTrace (options : ParserOptions) (text : String) : List Trace :=
  let lexed := lexForParse text
  if options.strict && !lexed.diagnostics.isEmpty then [lexed.trace]
  else lexed.trace :: parseTokensTrace options lexed.tokens

def parseTrace (options : ParserOptions) : Input → List Trace
  | .text content => parseTextTrace options content
  | .other kind => [.rejected ⟨"string", kind⟩]

end ScoreText
