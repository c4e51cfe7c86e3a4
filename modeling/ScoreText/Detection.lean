import ScoreText.Grammar.Fragment
import ScoreText.Input
import ScoreText.Text.Case
import ScoreText.Text.Lines
import ScoreText.Text.WordChar

/-!
Detection: whether a text looks like notation, by a keyword or by a recognizable piece of
notation anywhere in it.
-/

namespace ScoreText

open Text Text.Recognizer

def diagramKeywords : List String := ["music", "score", "notation"]

def mentionsKeyword (cs : List Char) : Bool :=
  diagramKeywords.any fun k => (word id k.toList).occursIn cs

def clefSign : Recognizer :=
  (word foldCase "clef".toList).andThen <| (many isBlank).andThen <|
    (one (· == ':')).andThen <| (many isBlank).andThen clefName

def timeSign : Recognizer :=
  (word foldCase "time".toList).andThen <| (many isBlank).andThen <|
    (one (· == ':')).andThen <| (many isBlank).andThen ratio

def isNoteLetterAnyCase (c : Char) : Bool := isNoteLetter (foldCase c).toUpper

/-- A bar line with a note letter after it. -/
def barSign : Recognizer :=
  (one (· == '|')).andThen <| (many isBlank).andThen (one isNoteLetterAnyCase)

/-- Whether a note starts a text and ends at the end of a word. -/
def startsWithNote (cs : List Char) : Bool :=
  match noteShape isNoteLetterAnyCase foldCase cs with
  | some rest => !rest.head?.any isWordChar
  | none => false

/-- Whether a note stands by itself somewhere in a text; `inWord` tells whether a word reaches up
to its start. -/
def hasNoteSign (inWord : Bool) : List Char → Bool
  | [] => false
  | c :: cs => (!inWord && startsWithNote (c :: cs)) || hasNoteSign (isWordChar c) cs

def hasMusicalPatterns (cs : List Char) : Bool :=
  clefSign.occursIn cs || timeSign.occursIn cs || hasNoteSign false cs || barSign.occursIn cs

def looksLikeMusic (cs : List Char) : Bool :=
  let normal := trim (lower cs)
  mentionsKeyword normal || hasMusicalPatterns normal

/-- Whether a value is a text that looks like notation. -/
def detect : Input → Bool
  | .text content => looksLikeMusic content.toList
  | .other _ => false

def announces (line : List Char) : Bool := mentionsKeyword (trim (lower line))

/-- A text from the first line that announces notation on, or all of it if no line does. -/
def diagramContent (cs : List Char) : List Char :=
  match (lines cs).dropWhile (!announces ·) with
  | [] => cs
  | ls => unlines ls

end ScoreText
