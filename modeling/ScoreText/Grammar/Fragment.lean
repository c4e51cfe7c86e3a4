import ScoreText.Lexeme
import ScoreText.Text.Blank
import ScoreText.Text.Digit
import ScoreText.Text.Recognizer

/-!
Fragments: single notes, rests, declarations and measures, checked as whole texts. Blanks at the
ends do not count, an octave may have any number of digits of any script, and declarations may be
written in any case.
-/

namespace ScoreText

open Text Text.Recognizer

/-- The lower-case form of a letter where case does not matter: beside capitals, the long s
counts as s, and the dotted capital and dotless small i count as i. -/
def foldCase (c : Char) : Char :=
  if c.toNat = 0x17F then 's'
  else if c.toNat = 0x130 ∨ c.toNat = 0x131 then 'i'
  else c.toLower

/-- A note: letter, accidental, octave, blanks and duration code, each compared after folding. -/
def noteShape (isLetter : Char → Bool) (fold : Char → Char) : Recognizer :=
  (one isLetter).andThen <| (optional fun c => isAccidentalSign (fold c)).andThen <|
    (many1 isDecimal).andThen <| (many1 isBlank).andThen <| one fun c => isDurationCode (fold c)

def noteFragment : Recognizer := noteShape isNoteLetter id

def restFragment : Recognizer :=
  (one (· == 'r')).andThen <| (many1 isBlank).andThen <| one isDurationCode

def clefName : Recognizer := firstOf (ClefType.all.map fun t => word foldCase t.name.toList)

/-- Two runs of digits with a slash between them. -/
def ratio : Recognizer := (many1 isDecimal).andThen <| (one (· == '/')).andThen (many1 isDecimal)

def clefFragment : Recognizer :=
  (word foldCase "clef:".toList).andThen <| (many isBlank).andThen clefName

def timeFragment : Recognizer :=
  (word foldCase "time:".toList).andThen <| (many isBlank).andThen ratio

/-- A note, a rest or a bar line. -/
def measureFragment : Recognizer := firstOf [noteFragment, restFragment, one (· == '|')]

def isNoteText (s : String) : Bool := noteFragment.matchesAll (trim s.toList)

def isRestText (s : String) : Bool := restFragment.matchesAll (trim s.toList)

def isClefText (s : String) : Bool := clefFragment.matchesAll (trim s.toList)

def isTimeText (s : String) : Bool := timeFragment.matchesAll (trim s.toList)

private theorem length_noteFragment {cs rest : List Char} (h : noteFragment cs = some rest) :
    rest.length < cs.length := by
  obtain ⟨r₁, h₁, h⟩ := Option.bind_eq_some_iff.1 h
  obtain ⟨r₂, h₂, h⟩ := Option.bind_eq_some_iff.1 h
  obtain ⟨r₃, h₃, h⟩ := Option.bind_eq_some_iff.1 h
  obtain ⟨r₄, h₄, h⟩ := Option.bind_eq_some_iff.1 h
  have := length_one h₁
  have := length_optional h₂
  have := length_many1 h₃
  have := length_many1 h₄
  have := length_one h
  omega

private theorem length_restFragment {cs rest : List Char} (h : restFragment cs = some rest) :
    rest.length < cs.length := by
  obtain ⟨r₁, h₁, h⟩ := Option.bind_eq_some_iff.1 h
  obtain ⟨r₂, h₂, h⟩ := Option.bind_eq_some_iff.1 h
  have := length_one h₁
  have := length_many1 h₂
  have := length_one h
  omega

/-- A fragment takes at least one character. -/
theorem length_measureFragment {cs rest : List Char} (h : measureFragment cs = some rest) :
    rest.length < cs.length := by
  obtain ⟨r, hr, h⟩ := List.exists_of_findSome?_eq_some h
  simp only [List.mem_cons, List.not_mem_nil, or_false] at hr
  rcases hr with rfl | rfl | rfl
  · exact length_noteFragment h
  · exact length_restFragment h
  · exact length_one h

/-- Whether a text without leading blanks is a run of notes, rests and bar lines. -/
def isMeasureRun (cs : List Char) : Bool :=
  if cs.isEmpty then true
  else
    match h : measureFragment cs with
    | none => false
    | some rest =>
      have _shorter := length_measureFragment h
      isMeasureRun (trimStart rest)
termination_by cs.length
decreasing_by
  have htrim : (trimStart rest).length ≤ rest.length := (List.dropWhile_suffix _).length_le
  omega

/-- Whether a text is a run of notes, rests and bar lines, with any blanks between them. -/
def isMeasureText (s : String) : Bool := isMeasureRun (trim s.toList)

end ScoreText
