import ScoreText.Score.Basic
import ScoreText.Token

/-!
Lexemes: a notation text cut into the pieces that tokens stand for. The pieces, put together
again, are the text (`flatMap_source_lexemes`).

A letter can name a note, a duration, a word, or (for `b`) stand for the flat sign. The rules of
`scanWord` are tried in order: a bare duration code, a note with an accidental, a note before its
octave, a lone note letter, and last the longest run of letters.
-/

namespace ScoreText

/-- A piece of a notation text. -/
inductive Lexeme
  /-- Source characters and the token text they give. -/
  | token (kind : Kind) (source text : List Char)
  /-- A character that belongs to no token. -/
  | stray (c : Char)
  /-- A carriage return with no line feed after it, which means nothing. -/
  | carriage
  deriving DecidableEq, Repr

namespace Lexeme

def source : Lexeme → List Char
  | .token _ source _ => source
  | .stray c => [c]
  | .carriage => ['\r']

/-- A token whose text is its source. -/
def plain (kind : Kind) (source : List Char) : Lexeme := .token kind source source

/-- A note letter; its token carries the capital letter. -/
def noteLetter (c : Char) : Lexeme := .token .note [c] [c.toUpper]

end Lexeme

def isNoteLetter (c : Char) : Bool := (NoteLetter.ofChar? c).isSome

def isDurationCode (c : Char) : Bool := (Duration.ofChar? c).isSome

def isAccidentalSign (c : Char) : Bool := (Accidental.ofChar? c).isSome

/-- The kind of a run of letters. -/
def classifyWord (word : List Char) : Kind :=
  let lowered := word.map Char.toLower
  match word with
  | [c] =>
    if isNoteLetter c.toUpper then .note
    else if isDurationCode c then .duration
    else if lowered = ['r'] then .rest
    else .identifier
  | _ =>
    if (ClefType.ofName? (String.ofList lowered)).isSome then .clef else .identifier

/-- The longest run of letters, as one lexeme. -/
def scanLetters (first : Char) (rest : List Char) : List Lexeme × List Char :=
  let word := first :: rest.takeWhile Char.isAlpha
  ([.plain (classifyWord word) word], rest.dropWhile Char.isAlpha)

def scanWord (first : Char) (rest : List Char) : List Lexeme × List Char :=
  match rest with
  | [] =>
    if isDurationCode first then ([.plain .duration [first]], [])
    else if isNoteLetter first.toUpper then ([.noteLetter first], [])
    else scanLetters first []
  | second :: after =>
    if isDurationCode first && !(second.isDigit || isAccidentalSign second) then
      ([.plain .duration [first]], rest)
    else if isAccidentalSign second && !after.head?.any Char.isAlpha then
      ([.noteLetter first, .plain .accidental [second]], after)
    else if second.isDigit then ([.noteLetter first], rest)
    else if !(second.isAlpha || isAccidentalSign second) && isNoteLetter first.toUpper then
      ([.noteLetter first], rest)
    else scanLetters first rest

/-- The kind of a sign that is a token by itself. -/
def signKind? : Char → Option Kind
  | ':' => some .colon
  | '|' => some .pipe
  | '/' => some .slash
  | '#' => some .accidental
  | ' ' | '\t' => some .whitespace
  | '\n' => some .newline
  | _ => none

/-- The lexemes that start with a given character, and the characters left after them. -/
def scan (c : Char) (rest : List Char) : List Lexeme × List Char :=
  match signKind? c with
  | some kind => ([.plain kind [c]], rest)
  | none =>
    if c = '\r' then
      match rest with
      | '\n' :: after => ([.plain .newline ['\r', '\n']], after)
      | _ => ([.carriage], rest)
    else if c.isAlpha then scanWord c rest
    else if c.isDigit then
      ([.plain .number (c :: rest.takeWhile Char.isDigit)], rest.dropWhile Char.isDigit)
    else ([.stray c], rest)

private theorem flatMap_source_scanLetters (c : Char) (rest : List Char) :
    (scanLetters c rest).1.flatMap Lexeme.source ++ (scanLetters c rest).2 = c :: rest := by
  simp [scanLetters, Lexeme.plain, Lexeme.source]

private theorem flatMap_source_scanWord (c : Char) (rest : List Char) :
    (scanWord c rest).1.flatMap Lexeme.source ++ (scanWord c rest).2 = c :: rest := by
  unfold scanWord
  split
  · split
    · simp [Lexeme.plain, Lexeme.source]
    · split
      · simp [Lexeme.noteLetter, Lexeme.source]
      · exact flatMap_source_scanLetters c []
  · split
    · simp [Lexeme.plain, Lexeme.source]
    · split
      · simp [Lexeme.plain, Lexeme.noteLetter, Lexeme.source]
      · split
        · simp [Lexeme.noteLetter, Lexeme.source]
        · split
          · simp [Lexeme.noteLetter, Lexeme.source]
          · exact flatMap_source_scanLetters c _

/-- Scanning neither loses nor invents a character. -/
theorem flatMap_source_scan (c : Char) (rest : List Char) :
    (scan c rest).1.flatMap Lexeme.source ++ (scan c rest).2 = c :: rest := by
  unfold scan
  split
  · simp [Lexeme.plain, Lexeme.source]
  · split
    · next h =>
      subst h
      split <;> simp [Lexeme.plain, Lexeme.source]
    · split
      · exact flatMap_source_scanWord c rest
      · split <;> simp [Lexeme.plain, Lexeme.source]

private theorem length_scanLetters (c : Char) (rest : List Char) :
    (scanLetters c rest).2.length ≤ rest.length :=
  (List.dropWhile_suffix _).length_le

private theorem length_scanWord (c : Char) (rest : List Char) :
    (scanWord c rest).2.length ≤ rest.length := by
  unfold scanWord
  split
  · split
    · simp
    · split
      · simp
      · exact length_scanLetters c []
  · split
    · simp
    · split
      · simp
      · split
        · simp
        · split
          · simp
          · exact length_scanLetters c _

/-- Scanning moves on by at least the character it starts with. -/
theorem length_scan (c : Char) (rest : List Char) : (scan c rest).2.length ≤ rest.length := by
  unfold scan
  split
  · simp
  · split
    · split <;> simp
    · split
      · exact length_scanWord c rest
      · split
        · exact (List.dropWhile_suffix _).length_le
        · simp

def lexemes : List Char → List Lexeme
  | [] => []
  | c :: rest => (scan c rest).1 ++ lexemes (scan c rest).2
termination_by cs => cs.length
decreasing_by simpa using Nat.lt_succ_of_le (length_scan c rest)

/-- The lexemes of a text, put together, are the text. -/
theorem flatMap_source_lexemes (cs : List Char) : (lexemes cs).flatMap Lexeme.source = cs := by
  fun_induction lexemes cs with
  | case1 => rfl
  | case2 c rest ih => rw [List.flatMap_append, ih, flatMap_source_scan]

end ScoreText
