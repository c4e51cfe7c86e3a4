import ScoreText.Token.Lexer

/-!
The lexer as an object that keeps its state: the characters that it has not scanned yet, the place
of the first of them, and the tokens and lexical errors found so far. Each branch of the scan moves
on and adds tokens by itself, and the options are looked at where a token is added. The lexer can
be run again and again.
-/

namespace ScoreText

/-- A text under a lexer, with all that has been found. -/
structure Lexer where
  text : String
  options : LexerOptions := {}
  /-- The characters that have not been scanned yet. -/
  ahead : List Char := text.toList
  /-- The place of the first of them. -/
  here : Position := .start
  tokens : List Token := []
  diagnostics : List Diagnostic := []
  deriving DecidableEq, Repr

def singleKind? : Char → Option Kind
  | ':' => some .colon
  | '|' => some .pipe
  | '/' => some .slash
  | _ => none

namespace Lexer

def held (l : Lexer) : Lexed := ⟨l.tokens, l.diagnostics⟩

/-- The character `n` places ahead, if the text goes on that far. -/
def char? (l : Lexer) (n : Nat := 0) : Option Char := l.ahead[n]?

/-- Moves over a character and stays on the line. -/
def advance (l : Lexer) : Lexer :=
  { l with
    ahead := l.ahead.tail
    here := ⟨l.here.line, l.here.column + 1, l.here.offset + 1⟩ }

/-- Moves over a character to the start of the next line. -/
def advanceLine (l : Lexer) : Lexer :=
  { l with ahead := l.ahead.tail, here := ⟨l.here.line + 1, 1, l.here.offset + 1⟩ }

/-- Adds a token that starts at the given place, if places are wanted. -/
def addToken (l : Lexer) (kind : Kind) (text : List Char) (start : Position) : Lexer :=
  let place := if l.options.includePosition then start else .nowhere
  { l with tokens := l.tokens ++ [⟨kind, String.ofList text, place⟩] }

/-- Adds a token of white space, if those are wanted. -/
def addTrivia (l : Lexer) (kind : Kind) (text : List Char) (start : Position) : Lexer :=
  if l.options.ignoreWhitespace then l else l.addToken kind text start

/-- Records a character that belongs to no token. -/
def report (l : Lexer) (c : Char) (start : Position) : Lexer :=
  { l with
    diagnostics := l.diagnostics ++ [{ problem := .strayCharacter c, position := start }] }

def advanceWhile (p : Char → Bool) (l : Lexer) : Lexer :=
  if l.char?.any p then l.advance.advanceWhile p else l
termination_by l.ahead.length
decreasing_by
  next h =>
    cases ha : l.ahead with
    | nil => simp [char?, ha] at h
    | cons c rest => simp [advance, ha]

/-- The characters from the place of the lexer up to a later one. -/
def upTo (l next : Lexer) : List Char :=
  l.ahead.take (next.here.offset - l.here.offset).toNat

def scanWord (l : Lexer) (first : Char) : Lexer :=
  let start := l.here
  let second := l.char? 1
  let third := l.char? 2
  if isDurationCode first && !(second.any Char.isDigit || second.any isAccidentalSign) then
    l.advance.addToken .duration [first] start
  else if second.any isAccidentalSign && !third.any Char.isAlpha then
    let atSign := l.advance.addToken .note [first.toUpper] start
    atSign.advance.addToken .accidental second.toList atSign.here
  else if second.any Char.isDigit then l.advance.addToken .note [first.toUpper] start
  else if !(second.any Char.isAlpha || second.any Char.isDigit || second.any isAccidentalSign) &&
      isNoteLetter first.toUpper then
    l.advance.addToken .note [first.toUpper] start
  else
    let next := l.advanceWhile Char.isAlpha
    next.addToken (classifyWord (l.upTo next)) (l.upTo next) start

def scanNumber (l : Lexer) : Lexer :=
  let next := l.advanceWhile Char.isDigit
  next.addToken .number (l.upTo next) l.here

/-- Scans from a character on, up to where the next one has to be looked at. -/
def scanFrom (l : Lexer) (c : Char) : Lexer :=
  let start := l.here
  if c = ' ' ∨ c = '\t' then l.advance.addTrivia .whitespace [c] start
  else if c = '\n' then l.advanceLine.addTrivia .newline [c] start
  else if c = '\r' then
    let next := l.advance
    if next.char? = some '\n' then next.advanceLine.addTrivia .newline ['\r', '\n'] start
    else next
  else
    match singleKind? c with
    | some kind => l.advance.addToken kind [c] start
    | none =>
      if c.isAlpha then l.scanWord c
      else if c.isDigit then l.scanNumber
      else if isAccidentalSign c then l.advance.addToken .accidental [c] start
      else (l.report c start).advance

section Ahead

variable (l : Lexer) (kind : Kind) (text : List Char) (start : Position)

@[simp] theorem ahead_advance : l.advance.ahead = l.ahead.tail := rfl

@[simp] theorem ahead_advanceLine : l.advanceLine.ahead = l.ahead.tail := rfl

@[simp] theorem ahead_addToken : (l.addToken kind text start).ahead = l.ahead := rfl

@[simp] theorem ahead_addTrivia : (l.addTrivia kind text start).ahead = l.ahead := by
  unfold addTrivia
  split <;> rfl

@[simp] theorem ahead_report (c : Char) : (l.report c start).ahead = l.ahead := rfl

@[simp] theorem ahead_advanceWhile (p : Char → Bool) :
    (l.advanceWhile p).ahead = l.ahead.dropWhile p := by
  fun_induction advanceWhile p l with
  | case1 l h ih =>
    rw [ih]
    cases ha : l.ahead with
    | nil => simp [char?, ha] at h
    | cons c rest =>
      have hc : p c = true := by simpa [char?, ha] using h
      simp [ha, hc]
  | case2 l h =>
    cases ha : l.ahead with
    | nil => rfl
    | cons c rest =>
      have hc : ¬ p c = true := by simpa [char?, ha] using h
      rw [List.dropWhile_cons_of_neg hc]

end Ahead

variable {l : Lexer} {c : Char} {rest : List Char}

private theorem length_dropWhile_cons {p : Char → Bool} (hc : p c = true) :
    ((c :: rest).dropWhile p).length ≤ rest.length := by
  rw [List.dropWhile_cons_of_pos hc]
  exact (List.dropWhile_suffix p).length_le

private theorem length_scanWord (h : l.ahead = c :: rest) (hc : c.isAlpha = true) :
    (l.scanWord c).ahead.length ≤ rest.length := by
  unfold scanWord
  dsimp only
  split
  · simp [h]
  · split
    · simp [h]
    · split
      · simp [h]
      · split
        · simp [h]
        · simpa [h] using length_dropWhile_cons hc

/-- Every branch moves on. -/
theorem length_scanFrom (h : l.ahead = c :: rest) :
    (l.scanFrom c).ahead.length ≤ rest.length := by
  unfold scanFrom
  dsimp only
  split
  · simp [h]
  · split
    · simp [h]
    · split
      · split <;> simp [h]
      · split
        · simp [h]
        · split
          · next hc => exact length_scanWord h hc
          · split
            · next hc => simpa [scanNumber, h] using length_dropWhile_cons hc
            · split <;> simp [h]

def scanAll (l : Lexer) : Lexer :=
  match _h : l.ahead with
  | [] => l
  | c :: _ => (l.scanFrom c).scanAll
termination_by l.ahead.length
decreasing_by
  rw [_h, List.length_cons]
  exact Nat.lt_succ_of_le (length_scanFrom _h)

def restart (l : Lexer) : Lexer := { text := l.text, options := l.options }

/-- Scans the whole text from its start, and adds the end. -/
def run (l : Lexer) : Lexer :=
  let last := l.restart.scanAll
  last.addToken .eof [] last.here

end Lexer

def tokenize (text : String) (options : LexerOptions := {}) : Lexed :=
  (Lexer.run { text := text, options := options }).held

end ScoreText
