/-!
Places in a source text. Lines and columns count from 1, offsets from 0, all in characters. Only
LF ends a line. A token that comes from elsewhere may claim any place, so the numbers are
integers.
-/

namespace ScoreText

structure Position where
  line : Int
  column : Int
  offset : Int
  deriving DecidableEq, Repr

namespace Position

def start : Position := ⟨1, 1, 0⟩

/-- The place of things that have none. -/
def nowhere : Position := ⟨0, 0, 0⟩

def step (p : Position) (c : Char) : Position :=
  if c = '\n' then ⟨p.line + 1, 1, p.offset + 1⟩ else ⟨p.line, p.column + 1, p.offset + 1⟩

def after (p : Position) (cs : List Char) : Position := cs.foldl step p

/-- Line and column, as diagnostics show them. -/
def display (p : Position) : String := toString p.line ++ ":" ++ toString p.column

end Position

end ScoreText
