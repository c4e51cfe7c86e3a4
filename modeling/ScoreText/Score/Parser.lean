import ScoreText.Score.Parse

/-!
The parser as an object that keeps its state: the cursor over its tokens, the problems met, the
notes and rests since the last bar line, and the measures closed so far. It can be run again and
again. A run that breaks off leaves behind the state in which it did.
-/

namespace ScoreText

/-- A parser over a token list, with all it has gathered. -/
structure Parser where
  options : ParserOptions
  cursor : Cursor
  diagnostics : List Diagnostic := []
  /-- The notes and rests that no bar line has closed yet. -/
  pending : List Element := []
  measures : List Measure := []
  deriving DecidableEq, Repr

/-- What one turn of the parser's loop leads to: another turn, the end of the loop, or the end of
the whole run. The declarations read so far stand in the score. -/
inductive Turn
  | goOn (next : Parser) (score : Score)
  | stop (last : Parser) (score : Score)
  | broken (fault : TokenFault) (last : Parser)
  deriving DecidableEq, Repr

def Turn.parser : Turn → Parser
  | .goOn next _ => next
  | .stop last _ => last
  | .broken _ last => last

def Score.declare (s : Score) : Item → Score
  | .clef c => { s with clef := some c }
  | .time t => { s with time := some t }
  | .element _ | .bar => s

namespace Parser

/-- A parser over the tokens that are not white space. -/
def ofTokens (options : ParserOptions) (tokens : List Token) : Parser :=
  { options, cursor := .ofTokens tokens }

/-- Makes the pending notes and rests a measure, if there are any. -/
def closeMeasure (p : Parser) : Parser :=
  if p.pending.isEmpty then p
  else { p with
    measures := p.measures ++ [⟨p.measures.length + 1, p.pending⟩]
    pending := [] }

def take (p : Parser) : Item → Parser
  | .element e => { p with pending := p.pending ++ [e] }
  | .bar => p.closeMeasure
  | .clef _ | .time _ => p

def moveTo (p : Parser) (c : Cursor) : Parser := { p with cursor := c }

def report (p : Parser) (d : Diagnostic) : Parser := { p with diagnostics := p.diagnostics ++ [d] }

/-- Whether the loop is over: at the end of the tokens, or when no more problem may be recorded. -/
def isDone (p : Parser) : Bool := p.cursor.isAtEnd || p.options.limit ≤ p.diagnostics.length

/-- How many more problems may be recorded. -/
def room (p : Parser) : Nat := p.options.limit - p.diagnostics.length

/-- One turn of the loop. It is endless when the cursor stands on the last token and the loop waits
for it to move on. -/
def turn (p : Parser) (score : Score) : Turn :=
  match p.cursor.step with
  | .item i next =>
    if p.cursor.after.isEmpty then .broken .endless p
    else .goOn ((p.moveTo next).take i) (score.declare i)
  | .stray d next => .goOn ((p.report d).moveTo next) score
  | .failed d next =>
    if !p.options.canRecover then .stop ((p.report d).moveTo next) score
    else if next.recover.isStuck then .broken .endless ((p.report d).moveTo next.recover)
    else .goOn ((p.report d).moveTo next.recover) score
  | .broken f next => .broken f (p.moveTo next)

section Fields

variable (p : Parser)

@[simp] theorem options_closeMeasure : p.closeMeasure.options = p.options := by
  unfold closeMeasure
  split <;> rfl

@[simp] theorem cursor_closeMeasure : p.closeMeasure.cursor = p.cursor := by
  unfold closeMeasure
  split <;> rfl

@[simp] theorem diagnostics_closeMeasure : p.closeMeasure.diagnostics = p.diagnostics := by
  unfold closeMeasure
  split <;> rfl

@[simp] theorem options_take (i : Item) : (p.take i).options = p.options := by
  cases i <;> simp [take]

@[simp] theorem cursor_take (i : Item) : (p.take i).cursor = p.cursor := by
  cases i <;> simp [take]

@[simp] theorem diagnostics_take (i : Item) : (p.take i).diagnostics = p.diagnostics := by
  cases i <;> simp [take]

@[simp] theorem room_take (i : Item) : (p.take i).room = p.room := by
  simp [room]

@[simp] theorem room_moveTo (c : Cursor) : (p.moveTo c).room = p.room := rfl

@[simp] theorem cursor_moveTo (c : Cursor) : (p.moveTo c).cursor = c := rfl

@[simp] theorem room_report (d : Diagnostic) : (p.report d).room = p.room - 1 := by
  simp only [room, report, List.length_append, List.length_singleton]
  omega

end Fields

theorem room_pos {p : Parser} (h : p.isDone = false) : 0 < p.room := by
  simp only [isDone, Bool.or_eq_false_iff, decide_eq_false_iff_not] at h
  unfold room
  omega

/-- A turn that leads to another one moves the cursor on or takes up room. -/
theorem lt_of_turn {p next : Parser} {score score' : Score} (hp : p.isDone = false)
    (h : p.turn score = .goOn next score') :
    next.room + next.cursor.remaining < p.room + p.cursor.remaining := by
  have hroom := room_pos hp
  unfold turn at h
  split at h
  · next i c hs =>
    have hle : c.remaining ≤ p.cursor.remaining - 1 := Cursor.within_of_step_eq hs
    split at h
    · cases h
    · next hafter =>
      cases h
      have hpos : 0 < p.cursor.remaining := by
        unfold Cursor.remaining
        cases ha : p.cursor.after with
        | nil => simp [ha] at hafter
        | cons _ _ => simp
      simp only [room_take, room_moveTo, cursor_take, cursor_moveTo]
      omega
  · next d c hs =>
    have hle : c.remaining ≤ p.cursor.remaining - 1 := Cursor.within_of_step_eq hs
    cases h
    simp only [room_moveTo, room_report, cursor_moveTo]
    omega
  · next d c hs =>
    have hle : c.remaining ≤ p.cursor.remaining - 1 := Cursor.within_of_step_eq hs
    have hrecover := c.remaining_recover
    split at h
    · cases h
    · split at h
      · cases h
      · cases h
        simp only [room_moveTo, room_report, cursor_moveTo]
        omega
  · cases h

def read (p : Parser) (score : Score) : Except TokenFault Score × Parser :=
  if p.isDone then (.ok score, p)
  else
    match _ht : p.turn score with
    | .goOn next score => next.read score
    | .stop last score => (.ok score, last)
    | .broken fault last => (.error fault, last)
termination_by p.room + p.cursor.remaining
decreasing_by exact lt_of_turn (Bool.eq_false_iff.2 ‹_›) ‹_›

def restart (p : Parser) : Parser := { options := p.options, cursor := p.cursor.reset }

def result (p : Parser) (score : Score) : ParseResult :=
  ⟨p.diagnostics.isEmpty, p.diagnostics, some { score with measures := p.measures }⟩

def run (p : Parser) : Except TokenFault ParseResult × Parser :=
  match p.restart.read {} with
  | (.error fault, last) => (.error fault, last)
  | (.ok score, last) => (.ok (last.closeMeasure.result score), last.closeMeasure)

end Parser

end ScoreText
