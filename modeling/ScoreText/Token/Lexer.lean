import ScoreText.Diagnostic
import ScoreText.Lexeme

/-!
Lexing: a notation text becomes placed tokens, closed by one end token, and a diagnostic for each
character that belongs to no token.
-/

namespace ScoreText

structure LexerOptions where
  ignoreWhitespace : Bool := false
  includePosition : Bool := true
  deriving DecidableEq, Repr

structure Lexed where
  tokens : List Token
  diagnostics : List Diagnostic
  deriving DecidableEq, Repr

/-- Each lexeme with the place where it starts. -/
def placeFrom (p : Position) : List Lexeme → List (Position × Lexeme)
  | [] => []
  | x :: xs => (p, x) :: placeFrom (p.after x.source) xs

def tokenOf? : Position × Lexeme → Option Token
  | (p, .token kind _ text) => some ⟨kind, String.ofList text, p⟩
  | _ => none

def strayOf? : Position × Lexeme → Option Diagnostic
  | (p, .stray c) => some { problem := .strayCharacter c, position := p }
  | _ => none

def placedLexemes (text : String) : List (Position × Lexeme) :=
  placeFrom .start (lexemes text.toList)

/-- All tokens of a text, white space and the end included. -/
def allTokens (text : String) : List Token :=
  (placedLexemes text).filterMap tokenOf? ++ [.endAt (Position.start.after text.toList)]

namespace LexerOptions

def keeps (o : LexerOptions) (kind : Kind) : Bool := !(o.ignoreWhitespace && kind.isTrivia)

/-- A token with or without its place. -/
def stamp (o : LexerOptions) (t : Token) : Token :=
  if o.includePosition then t else { t with position := .nowhere }

end LexerOptions

def lex (text : String) (options : LexerOptions := {}) : Lexed where
  tokens := ((allTokens text).filter (options.keeps ·.kind)).map options.stamp
  diagnostics := (placedLexemes text).filterMap strayOf?

end ScoreText
