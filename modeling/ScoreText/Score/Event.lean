import ScoreText.Score.Reading

/-!
The events of a reading: the items of a token list and the problems with it, in the order in
which they are met, until the end token or a limit on the number of problems.
-/

namespace ScoreText

/-- What one step of a reading leaves behind. -/
inductive Event
  | item (item : Item)
  | stray (diagnostic : Diagnostic)
  /-- A malformed item, and the place of the token at which it was given up. -/
  | failed (diagnostic : Diagnostic) (givenUp : Position)
  | broken (fault : TokenFault)
  deriving DecidableEq, Repr

namespace Event

def item? : Event → Option Item
  | .item i => some i
  | _ => none

def diagnostic? : Event → Option Diagnostic
  | .stray d => some d
  | .failed d _ => some d
  | _ => none

def givenUp? : Event → Option Position
  | .failed _ p => some p
  | _ => none

def fault? : Event → Option TokenFault
  | .broken f => some f
  | _ => none

end Event

/-- The events from the cursor on, with at most `limit` problems. After a malformed item a reading
that recovers skips ahead, and any other one ends. A reading that can move on no more before it has
met an end token is endless. -/
def Cursor.readEvents (recovers : Bool) (limit : Nat) (c : Cursor) : List Event :=
  if limit = 0 ∨ c.isAtEnd then []
  else
    match h : c.step with
    | .item i next =>
      -- Only a bar line can be read without moving on, and then it is read again and again.
      if c.after.isEmpty then [.broken .endless]
      else .item i :: next.readEvents recovers limit
    | .stray d next => .stray d :: next.readEvents recovers (limit - 1)
    | .failed d next =>
      .failed d next.current.position ::
        if !recovers then []
        else if next.recover.isStuck then [.broken .endless]
        else next.recover.readEvents recovers (limit - 1)
    | .broken f _ => [.broken f]
termination_by limit + c.remaining
decreasing_by
  · next hne =>
    have hpos : 0 < c.remaining := by
      unfold Cursor.remaining
      cases ha : c.after with
      | nil => simp [ha] at hne
      | cons _ _ => simp
    have hle : next.remaining ≤ c.remaining - 1 := Cursor.within_of_step_eq h
    omega
  · have hle : next.remaining ≤ c.remaining - 1 := Cursor.within_of_step_eq h
    omega
  · have hle : next.remaining ≤ c.remaining - 1 := Cursor.within_of_step_eq h
    have hrecover := next.remaining_recover
    omega

end ScoreText
