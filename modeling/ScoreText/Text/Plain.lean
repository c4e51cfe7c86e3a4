/-!
Plain text: terminal control sequences are left out of what is printed to a file. Such a sequence
is an escape, an opening bracket, parameters, intermediate characters and one final character.
-/

namespace ScoreText.Text

def isSequenceParameter (c : Char) : Bool := decide ('0' ≤ c ∧ c ≤ '?')

/-- Whether a character can stand between the parameters and the end of a control sequence. -/
def isSequenceIntermediate (c : Char) : Bool := decide (' ' ≤ c ∧ c ≤ '/')

def isSequenceFinal (c : Char) : Bool := decide ('@' ≤ c ∧ c ≤ '~')

/-- What follows the control sequence whose escape and bracket have been read; none if there is
no such sequence. -/
def afterSequence? (cs : List Char) : Option (List Char) :=
  match (cs.dropWhile isSequenceParameter).dropWhile isSequenceIntermediate with
  | c :: rest => if isSequenceFinal c then some rest else none
  | [] => none

theorem length_afterSequence {cs rest : List Char} (h : afterSequence? cs = some rest) :
    rest.length < cs.length := by
  unfold afterSequence? at h
  have hle : ((cs.dropWhile isSequenceParameter).dropWhile isSequenceIntermediate).length ≤
      cs.length :=
    ((List.dropWhile_suffix _).trans (List.dropWhile_suffix _)).length_le
  split at h
  · next hd =>
    rw [hd] at hle
    split at h
    · cases h
      simp only [List.length_cons] at hle
      omega
    · cases h
  · cases h

def plain : List Char → List Char
  | [] => []
  | [c] => [c]
  | c :: d :: rest =>
    if c.toNat = 0x1B ∧ d = '[' then
      match h : afterSequence? rest with
      | some after =>
        have _shorter := length_afterSequence h
        plain after
      | none => c :: plain (d :: rest)
    else c :: plain (d :: rest)
termination_by cs => cs.length
decreasing_by
  all_goals simp only [List.length_cons]
  all_goals omega

end ScoreText.Text
