import ScoreText.Position

/-!
Tokens: the classified and placed units of a notation text.
-/

namespace ScoreText

inductive Kind
  | note
  | duration
  | clef
  | accidental
  | number
  | identifier
  | rest
  | colon
  | pipe
  | slash
  | whitespace
  | newline
  | eof
  | unknown
  deriving DecidableEq, Repr

namespace Kind

def name : Kind → String
  | .note => "NOTE"
  | .duration => "DURATION"
  | .clef => "CLEF"
  | .accidental => "ACCIDENTAL"
  | .number => "NUMBER"
  | .identifier => "IDENTIFIER"
  | .rest => "REST"
  | .colon => "COLON"
  | .pipe => "PIPE"
  | .slash => "SLASH"
  | .whitespace => "WHITESPACE"
  | .newline => "NEWLINE"
  | .eof => "EOF"
  | .unknown => "UNKNOWN"

/-- Every kind, in the order of the names. -/
def all : List Kind :=
  [.accidental, .clef, .colon, .duration, .eof, .identifier, .newline, .note, .number, .pipe,
    .rest, .slash, .unknown, .whitespace]

def ofName? (s : String) : Option Kind := all.find? fun k => k.name == s

/-- Whether tokens of this kind only separate others. -/
def isTrivia : Kind → Bool
  | .whitespace | .newline => true
  | _ => false

/-- Whether a token of this kind begins a declaration, a note or a rest. -/
def startsElement : Kind → Bool
  | .identifier | .note | .rest => true
  | _ => false

end Kind

structure Token where
  kind : Kind
  text : String
  position : Position
  deriving DecidableEq, Repr

namespace Token

/-- The end of a text at a given place. -/
def endAt (p : Position) : Token := ⟨.eof, "", p⟩

end Token

end ScoreText
