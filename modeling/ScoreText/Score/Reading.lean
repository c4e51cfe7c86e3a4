import ScoreText.Diagnostic
import ScoreText.Score.Item
import ScoreText.Text.Case
import ScoreText.Text.Integer
import ScoreText.Text.Quoted
import ScoreText.Token.Cursor

/-!
Reading items off a token cursor. A step reads one item, or skips a token that starts none, or
fails inside an item. Every step moves the cursor on, unless it stands on the last token.
-/

namespace ScoreText

/-- Why tokens that no lexer produces cannot be read: a text cannot be converted, or reading never
comes to an end, as there is no end token. -/
inductive TokenFault
  | accidental (text : String)
  | number (text : String)
  | endless
  deriving DecidableEq, Repr

def TokenFault.message : TokenFault → String
  | .accidental text => Text.quoted text ++ " is not a valid Accidental"
  | .number text => "invalid literal for int() with base 10: " ++ Text.quoted text
  | .endless => "no end token"

/-- Why an item could not be read: a problem, or a token text that cannot be converted; with the
cursor where this was noticed. -/
inductive Halt
  | problem (diagnostic : Diagnostic) (next : Cursor)
  | fault (fault : TokenFault) (next : Cursor)
  deriving DecidableEq, Repr

def maxOctave : Nat := 9

namespace Cursor

/-- A problem with the token under the cursor. -/
def refuse (c : Cursor) (problem : Problem) : Halt := .problem (.atToken problem c.current) c

/-- Steps over a token of the given kind. -/
def pass (c : Cursor) (kind : Kind) (missing : Problem) : Except Halt Cursor :=
  if c.current.kind = kind then .ok c.advance else .error (c.refuse missing)

def readDuration (c : Cursor) (missing : Problem) : Except Halt (Duration × Cursor) :=
  let t := c.current
  if t.kind = .duration then
    match Duration.ofCode? t.text with
    | some d => .ok (d, c.advance)
    | none => .error (.problem (.atToken (.invalidDuration t.text) t) c.advance)
  else .error (c.refuse missing)

def readAccidental (c : Cursor) : Except Halt (Option Accidental × Cursor) :=
  let t := c.current
  if t.kind = .accidental then
    match (onlyChar? t.text).bind Accidental.ofChar? with
    | some a => .ok (some a, c.advance)
    | none => .error (.fault (.accidental t.text) c.advance)
  else .ok (none, c)

/-- Reads an octave: a number of one digit. -/
def readOctave (c : Cursor) (afterAccidental : Bool) : Except Halt (Nat × Cursor) :=
  let t := c.current
  if t.kind = .number then
    if 1 < t.text.length then
      .error (.problem (.atToken (.invalidOctave t.text) t) c.advance)
    else
      match Text.integer? t.text with
      | none => .error (.fault (.number t.text) c.advance)
      | some n =>
        if maxOctave < n then .error (.problem (.atToken (.invalidOctave t.text) t) c.advance)
        else .ok (n.toNat, c.advance)
  else .error (c.refuse (.missingOctave afterAccidental))

def readNote (c : Cursor) : Except Halt (Element × Cursor) :=
  let t := c.current
  let name := String.ofList (Text.upper t.text.toList)
  match (onlyChar? name).bind NoteLetter.ofChar? with
  | none => .error (.problem (.atToken (.invalidNoteName name) t) c.advance)
  | some letter => do
    let (accidental, c) ← c.advance.readAccidental
    let (octave, c) ← c.readOctave accidental.isSome
    let (duration, c) ← c.readDuration .missingNoteDuration
    return (.note ⟨letter, octave, accidental⟩ duration t.position, c)

def readRest (c : Cursor) : Except Halt (Element × Cursor) := do
  let (duration, next) ← c.advance.readDuration .missingRestDuration
  return (.rest duration c.current.position, next)

def readClef (c : Cursor) : Except Halt (Clef × Cursor) := do
  let next ← c.advance.pass .colon .missingClefColon
  let t := next.current
  if t.kind = .clef then
    let name := String.ofList (Text.lower t.text.toList)
    match ClefType.ofName? name with
    | some type => return (⟨type, c.current.position⟩, next.advance)
    | none => throw (.problem (.atToken (.invalidClefType name) t) next.advance)
  else throw (next.refuse .missingClefType)

/-- The time signature with the given numeral texts, if both are positive numbers. -/
def timeSignature? (numerator denominator : String) (p : Position) : Option TimeSignature := do
  let n ← Text.integer? numerator
  let d ← Text.integer? denominator
  if 0 < n ∧ 0 < d then return ⟨n.toNat, d.toNat, p⟩ else none

def readTime (c : Cursor) : Except Halt (TimeSignature × Cursor) := do
  let t := c.current
  let atNumerator ← c.advance.pass .colon .missingTimeColon
  let atSlash ← atNumerator.pass .number .missingNumerator
  let atDenominator ← atSlash.pass .slash .missingSlash
  let next ← atDenominator.pass .number .missingDenominator
  let n := atNumerator.current.text
  let d := atDenominator.current.text
  match timeSignature? n d t.position with
  | some time => return (time, next)
  | none => throw (.problem (.atToken (.invalidTimeSignature n d) t) next)

end Cursor

inductive Step
  | item (item : Item) (next : Cursor)
  /-- A token that starts no item, passed over by itself. -/
  | stray (diagnostic : Diagnostic) (next : Cursor)
  /-- A malformed item, read as far as it was right. -/
  | failed (diagnostic : Diagnostic) (next : Cursor)
  | broken (fault : TokenFault) (next : Cursor)
  deriving DecidableEq, Repr

/-- The step that an attempt to read an item makes. -/
def Step.ofAttempt {α : Type} (toItem : α → Item) : Except Halt (α × Cursor) → Step
  | .ok (a, next) => .item (toItem a) next
  | .error (.problem d next) => .failed d next
  | .error (.fault f next) => .broken f next

namespace Cursor

def skip (c : Cursor) (problem : Problem) : Step := .stray (.atToken problem c.current) c.advance

/-- Reads a declaration from its keyword on. -/
def stepIdentifier (c : Cursor) : Step :=
  let keyword := String.ofList (Text.lower c.current.text.toList)
  if keyword = "clef" then .ofAttempt .clef c.readClef
  else if keyword = "time" then .ofAttempt .time c.readTime
  else c.skip (.unknownIdentifier c.current.text)

def step (c : Cursor) : Step :=
  match c.current.kind with
  | .identifier => c.stepIdentifier
  | .note => .ofAttempt .element c.readNote
  | .rest => .ofAttempt .element c.readRest
  | .pipe => .item .bar c.advance
  | kind => c.skip (.unexpectedToken kind)

/-- The cursor at the first token from which reading can go on: one that starts an item, one
right after a bar line, or the end. -/
def resumeFrom (before : List Token) (t : Token) : List Token → Cursor
  | [] => ⟨before, t, []⟩
  | u :: rest =>
    if t.kind = .eof ∨ t.kind.startsElement then ⟨before, t, u :: rest⟩
    else if t.kind = .pipe then ⟨t :: before, u, rest⟩
    else resumeFrom (t :: before) u rest

def recover (c : Cursor) : Cursor := resumeFrom c.before c.current c.after

/-- Whether skipping ahead has come to the last token and still looks for one to go on from. -/
def isStuck (c : Cursor) : Bool :=
  c.after.isEmpty && !c.isAtEnd && !c.current.kind.startsElement &&
    !c.before.head?.any (·.kind = .pipe)

def remaining (c : Cursor) : Nat := c.after.length

theorem remaining_advance (c : Cursor) : c.advance.remaining = c.remaining - 1 := by
  unfold advance remaining
  split <;> simp [*]

theorem remaining_resumeFrom (before : List Token) (t : Token) (after : List Token) :
    (resumeFrom before t after).remaining ≤ after.length := by
  induction after generalizing before t with
  | nil => simp [resumeFrom, remaining]
  | cons u rest ih =>
    unfold resumeFrom
    split
    · simp [remaining]
    · split
      · simp [remaining]
      · exact Nat.le_succ_of_le (ih _ _)

theorem remaining_recover (c : Cursor) : c.recover.remaining ≤ c.remaining :=
  remaining_resumeFrom _ _ _

end Cursor

/-- `EndsWithin n cursor x`: an attempt ends, well or not, with at most `n` tokens after the
cursor. -/
private def EndsWithin {α : Type} (n : Nat) (cursor : α → Cursor) : Except Halt α → Prop
  | .ok a => (cursor a).remaining ≤ n
  | .error (.problem _ next) => next.remaining ≤ n
  | .error (.fault _ _) => True

/-- A step leaves at most `n` tokens after the cursor. -/
def Step.Within (n : Nat) : Step → Prop
  | .item _ next | .stray _ next | .failed _ next => next.remaining ≤ n
  | .broken _ _ => True

private theorem EndsWithin.bind {α β : Type} {n : Nat} {p : α → Cursor} {q : β → Cursor}
    {x : Except Halt α} {f : α → Except Halt β} (hx : EndsWithin n p x)
    (hf : ∀ a, (p a).remaining ≤ n → EndsWithin n q (f a)) : EndsWithin n q (x >>= f) := by
  cases x with
  | ok a => exact hf a hx
  | error halt =>
    cases halt with
    | problem d next => exact hx
    | fault f next => trivial

private theorem EndsWithin.step {α : Type} {n : Nat} {x : Except Halt (α × Cursor)}
    (h : EndsWithin n Prod.snd x) (toItem : α → Item) : (Step.ofAttempt toItem x).Within n := by
  unfold Step.ofAttempt
  split
  · exact h
  · exact h
  · trivial

namespace Cursor

variable {c : Cursor} {n : Nat}

private theorem remaining_advance_le (h : c.remaining ≤ n) : c.advance.remaining ≤ n := by
  rw [remaining_advance]
  omega

private theorem endsWithin_pass (h : c.remaining ≤ n) (kind : Kind) (missing : Problem) :
    EndsWithin n id (c.pass kind missing) := by
  unfold pass
  split
  · exact remaining_advance_le h
  · exact h

private theorem endsWithin_readDuration (h : c.remaining ≤ n) (missing : Problem) :
    EndsWithin n Prod.snd (c.readDuration missing) := by
  unfold readDuration
  dsimp only
  split
  · split
    · exact remaining_advance_le h
    · exact remaining_advance_le h
  · exact h

private theorem endsWithin_readAccidental (h : c.remaining ≤ n) :
    EndsWithin n Prod.snd c.readAccidental := by
  unfold readAccidental
  dsimp only
  split
  · split
    · exact remaining_advance_le h
    · trivial
  · exact h

private theorem endsWithin_readOctave (h : c.remaining ≤ n) (afterAccidental : Bool) :
    EndsWithin n Prod.snd (c.readOctave afterAccidental) := by
  unfold readOctave
  dsimp only
  split
  · split
    · exact remaining_advance_le h
    · split
      · trivial
      · split
        · exact remaining_advance_le h
        · exact remaining_advance_le h
  · exact h

private theorem endsWithin_readNote (h : c.advance.remaining ≤ n) :
    EndsWithin n Prod.snd c.readNote := by
  unfold readNote
  dsimp only
  split
  · exact h
  · refine (endsWithin_readAccidental h).bind fun ⟨_, c₁⟩ h₁ => ?_
    refine (endsWithin_readOctave h₁ _).bind fun ⟨_, c₂⟩ h₂ => ?_
    exact (endsWithin_readDuration h₂ _).bind fun ⟨_, c₃⟩ h₃ => h₃

private theorem endsWithin_readRest (h : c.advance.remaining ≤ n) :
    EndsWithin n Prod.snd c.readRest :=
  (endsWithin_readDuration h _).bind fun ⟨_, _⟩ h₁ => h₁

private theorem endsWithin_readClef (h : c.advance.remaining ≤ n) :
    EndsWithin n Prod.snd c.readClef := by
  refine (endsWithin_pass h _ _).bind fun c₁ h₁ => ?_
  dsimp only
  split
  · split
    · exact remaining_advance_le h₁
    · exact remaining_advance_le h₁
  · exact h₁

private theorem endsWithin_readTime (h : c.advance.remaining ≤ n) :
    EndsWithin n Prod.snd c.readTime := by
  refine (endsWithin_pass h _ _).bind fun c₁ h₁ => ?_
  refine (endsWithin_pass h₁ _ _).bind fun c₂ h₂ => ?_
  refine (endsWithin_pass h₂ _ _).bind fun c₃ h₃ => ?_
  refine (endsWithin_pass h₃ _ _).bind fun c₄ h₄ => ?_
  dsimp only
  split
  · exact h₄
  · exact h₄

/-- Every step takes the token under the cursor, unless it is the last one. -/
theorem within_of_step_eq {s : Step} (hs : c.step = s) : s.Within (c.remaining - 1) := by
  subst hs
  rw [← remaining_advance]
  have h : c.advance.remaining ≤ c.advance.remaining := Nat.le_refl _
  unfold step
  split
  · unfold stepIdentifier
    dsimp only
    split
    · exact (endsWithin_readClef h).step _
    · split
      · exact (endsWithin_readTime h).step _
      · exact h
  · exact (endsWithin_readNote h).step _
  · exact (endsWithin_readRest h).step _
  · exact h
  · exact h

end Cursor

end ScoreText
