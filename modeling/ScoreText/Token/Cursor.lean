import ScoreText.Token

/-!
A cursor over the tokens that carry meaning. It always stands on a token: white space is removed,
an end token stands for an empty list, and at the last token the cursor stays where it is.
-/

namespace ScoreText

/-- A token list around the token that the cursor stands on. The tokens before it are held in
reverse. -/
structure Cursor where
  before : List Token
  current : Token
  after : List Token
  deriving DecidableEq, Repr

inductive CursorFault
  | unexpected (wanted found : Kind)
  | reported (message : String)
  deriving DecidableEq, Repr

def CursorFault.message : CursorFault → String
  | .unexpected wanted found => "Expected token type " ++ wanted.name ++ ", got " ++ found.name
  | .reported message => message

namespace Cursor

/-- The cursor at the first of the tokens that are not white space. -/
def ofTokens (tokens : List Token) : Cursor :=
  match tokens.filter (!·.kind.isTrivia) with
  | [] => ⟨[], .endAt .nowhere, []⟩
  | t :: rest => ⟨[], t, rest⟩

def tokens (c : Cursor) : List Token := c.before.reverse ++ c.current :: c.after

def position (c : Cursor) : Nat := c.before.length

def size (c : Cursor) : Nat := c.before.length + 1 + c.after.length

/-- The token `n` places after the cursor, or before it when `n` is negative; beyond an end, the
token at that end. -/
def peek (c : Cursor) : Int → Token
  | .ofNat n => (c.current :: c.after).getD n ((c.current :: c.after).getLastD c.current)
  | .negSucc n => c.before.getD n (c.before.getLastD c.current)

/-- The cursor one token further, unless it stands on the last one. -/
def advance (c : Cursor) : Cursor :=
  match c.after with
  | [] => c
  | t :: rest => ⟨c.current :: c.before, t, rest⟩

def isAny (c : Cursor) (kinds : List Kind) : Bool := kinds.contains c.current.kind

def isAtEnd (c : Cursor) : Bool := c.current.kind = .eof

/-- The token under the cursor, if it has the wanted kind, and the cursor after it. A text that
is not empty replaces the usual message. -/
def consume (c : Cursor) (kind : Kind) (message : String := "") :
    Except CursorFault (Token × Cursor) :=
  if c.current.kind = kind then .ok (c.current, c.advance)
  else if message = "" then .error (.unexpected kind c.current.kind)
  else .error (.reported message)

def reset (c : Cursor) : Cursor :=
  match c.tokens with
  | [] => c
  | t :: rest => ⟨[], t, rest⟩

end Cursor

inductive CursorCall
  | current
  | peek (offset : Int)
  | advance
  | isAny (kinds : List Kind)
  | consume (kind : Kind) (message : String)
  | isAtEnd
  | reset
  | size
  deriving DecidableEq, Repr

inductive CursorAnswer
  | token (token : Token)
  | verdict (holds : Bool)
  | count (n : Nat)
  | refused (fault : CursorFault)
  | done
  deriving DecidableEq, Repr

/-- The cursor after a call, and the answer. A refused call leaves the cursor where it is. -/
def Cursor.handle (c : Cursor) : CursorCall → Cursor × CursorAnswer
  | .current => (c, .token c.current)
  | .peek offset => (c, .token (c.peek offset))
  | .advance => (c.advance, .token c.current)
  | .isAny kinds => (c, .verdict (c.isAny kinds))
  | .consume kind message =>
    match c.consume kind message with
    | .ok (t, next) => (next, .token t)
    | .error fault => (c, .refused fault)
  | .isAtEnd => (c, .verdict c.isAtEnd)
  | .reset => (c.reset, .done)
  | .size => (c, .count c.size)

end ScoreText
