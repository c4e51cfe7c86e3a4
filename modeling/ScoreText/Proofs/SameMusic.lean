import ScoreText.Proofs.Ascii
import ScoreText.Proofs.CheckRender
import ScoreText.Sheet.Outline

/-!
The outline that is engraved and the document that is drawn are the same music. The two spell
pitches, rests and lengths in their own ways. Each spelling is read back here by a reader of its own
(`heard_toOutline`, `heard_toStave`), so neither loses anything, and what is read is what the score
says. So the measures of an outline and of a document have the same numbers and sound the same,
element by element (`sameMusic_of_score`).
-/

namespace ScoreText

/-- What is heard of a note or a rest: a pitch, if it is a note, and a length. -/
abbrev Sound := Option Pitch × Duration

def Element.sound : Element → Sound
  | .note pitch duration _ => (some pitch, duration)
  | .rest duration _ => (none, duration)

/-! ## Reading pitches -/

/-- The sign at the start of some characters, if there is one, and what comes after it. A sharp is
written as a hash sign. -/
def takeSign (flat : Char) : List Char → Option Accidental × List Char
  | [] => (none, [])
  | c :: rest =>
    if c = '#' then (some .sharp, rest)
    else if c = flat then (some .flat, rest)
    else (none, c :: rest)

def readOctaveNumber (cs : List Char) : Option Nat :=
  if cs ≠ [] ∧ cs.all Char.isDigit then some (Text.decimal cs) else none

/-- The pitch with a name such as `B-3`: a capital letter, a sign and an octave. -/
def readEngravedName (name : String) : Option Pitch :=
  match name.toList with
  | [] => none
  | c :: rest => do
    let letter ← NoteLetter.ofChar? c
    let (sign, digits) := takeSign '-' rest
    let octave ← readOctaveNumber digits
    return ⟨letter, octave, sign⟩

/-- The pitch with a key such as `bb/3`: a small letter, a sign, a slash and an octave. -/
def readKey (key : String) : Option Pitch :=
  match key.toList with
  | [] => none
  | c :: rest => do
    let letter ← NoteLetter.all.find? (·.char.toLower = c)
    match takeSign 'b' rest with
    | (sign, '/' :: digits) =>
      let octave ← readOctaveNumber digits
      return ⟨letter, octave, sign⟩
    | _ => none

private theorem isDigit_of_mem_toDigits {n : Nat} {c : Char} (h : c ∈ Nat.toDigits 10 n) :
    c.isDigit = true := Nat.isDigit_of_mem_toDigits (by decide) (by decide) h

theorem readOctaveNumber_toDigits (n : Nat) : readOctaveNumber (Nat.toDigits 10 n) = some n := by
  have hdigits : (Nat.toDigits 10 n).all Char.isDigit = true :=
    List.all_eq_true.2 fun _ hc => isDigit_of_mem_toDigits hc
  rw [readOctaveNumber, if_pos ⟨Nat.toDigits_ne_nil, hdigits⟩, Text.decimal_toDigits]

/-- A number does not begin with a sign. -/
theorem takeSign_toDigits {flat : Char} (h : flat.isDigit = false) (n : Nat) :
    takeSign flat (Nat.toDigits 10 n) = (none, Nat.toDigits 10 n) := by
  obtain ⟨c, rest, hc⟩ := List.exists_cons_of_ne_nil (Nat.toDigits_ne_nil (n := n) (b := 10))
  have hdigit : c.isDigit = true := isDigit_of_mem_toDigits (hc ▸ List.mem_cons_self)
  have hsharp : c ≠ '#' := by
    rintro rfl
    cases hdigit
  have hflat : c ≠ flat := by
    rintro rfl
    rw [h] at hdigit
    cases hdigit
  rw [hc, takeSign, if_neg hsharp, if_neg hflat]

/-- Of the b's in a pitch only the flat sign is one: note letters are capitals. -/
private theorem toList_engravedName (p : Pitch) :
    p.engravedName.toList =
      p.letter.char :: ((p.accidental.map fun a => if a = .flat then '-' else '#').toList ++
        Nat.toDigits 10 p.octave) := by
  have hdigits : (Nat.toDigits 10 p.octave).map (fun c => if c = 'b' then '-' else c) =
      Nat.toDigits 10 p.octave := by
    refine (List.map_congr_left fun c hc => if_neg ?_).trans (List.map_id _)
    rintro rfl
    cases isDigit_of_mem_toDigits hc
  have hletter : p.letter.char ≠ 'b' := by cases p.letter <;> decide
  obtain ⟨letter, octave, accidental⟩ := p
  rcases accidental with _ | _ | _ <;>
    simp [Pitch.engravedName, Pitch.display, hdigits, hletter, Accidental.char]

theorem readEngravedName_engravedName (p : Pitch) : readEngravedName p.engravedName = some p := by
  have hletter : NoteLetter.ofChar? p.letter.char = some p.letter := by cases p.letter <;> rfl
  rw [readEngravedName, toList_engravedName]
  obtain ⟨letter, octave, accidental⟩ := p
  rcases accidental with _ | _ | _
  · simp [hletter, takeSign_toDigits, readOctaveNumber_toDigits]
  · simp [hletter, takeSign, readOctaveNumber_toDigits]
  · simp [hletter, takeSign, readOctaveNumber_toDigits]

theorem readKey_key (p : Pitch) : readKey p.key = some p := by
  have hletter : NoteLetter.all.find? (·.char.toLower = p.letter.char.toLower) =
      some p.letter := by cases p.letter <;> rfl
  obtain ⟨letter, octave, accidental⟩ := p
  rcases accidental with _ | _ | _ <;>
    simp [readKey, Pitch.key, hletter, takeSign, readOctaveNumber_toDigits, Accidental.char]

/-! ## Reading notes and rests -/

def readQuarters : String → Option Duration
  | "4.0" => some .whole
  | "2.0" => some .half
  | "1.0" => some .quarter
  | "0.5" => some .eighth
  | "0.25" => some .sixteenth
  | _ => none

def readDrawn : String → Option Duration
  | "w" => some .whole
  | "h" => some .half
  | "q" => some .quarter
  | "8" => some .eighth
  | "16" => some .sixteenth
  | _ => none

/-- Whether a code of the drawing script is that of a rest, and its duration. The codes of rests end
with the letter r. -/
def readCode (code : String) : Option (Bool × Duration) :=
  match code.toList.reverse with
  | 'r' :: front => (readDrawn (String.ofList front.reverse)).map (true, ·)
  | _ => (readDrawn code).map (false, ·)

def heardOutline (x : Option String × Duration) : Option Sound := do
  let duration ← readQuarters x.2.quarters
  match x.1 with
  | none => return (none, duration)
  | some name => return (some (← readEngravedName name), duration)

/-- What is heard of a drawn note or rest. It has one key, with the sign that the list of
accidentals has. The key of a rest is only a place on the staff. -/
def StaveNote.heard (n : StaveNote) : Option Sound :=
  match n.keys, n.accidentals with
  | [key], [sign] => do
    let pitch ← readKey key
    let (isRest, duration) ← readCode n.duration
    if sign = pitch.accidental.map fun a => String.singleton a.char then
      return (if isRest then none else some pitch, duration)
    else none
  | _, _ => none

theorem heard_toOutline (e : Element) : heardOutline e.toOutline = some e.sound := by
  have hquarters (d : Duration) : readQuarters d.quarters = some d := by cases d <;> rfl
  cases e with
  | note pitch duration p =>
    simp [heardOutline, Element.toOutline, hquarters, readEngravedName_engravedName, Element.sound]
  | rest duration p => simp [heardOutline, Element.toOutline, hquarters, Element.sound]

/-- A rest stands on a key without a sign. -/
private theorem middleKey_eq_key (clef : ClefType) :
    ∃ pitch : Pitch, clef.middleKey = pitch.key ∧ pitch.accidental = none := by
  cases clef with
  | treble => exact ⟨⟨.b, 4, none⟩, by decide, rfl⟩
  | bass => exact ⟨⟨.d, 3, none⟩, by decide, rfl⟩
  | alto => exact ⟨⟨.c, 4, none⟩, by decide, rfl⟩
  | tenor => exact ⟨⟨.a, 3, none⟩, by decide, rfl⟩

theorem heard_toStave (clef : ClefType) (e : Element) : (e.toStave clef).heard = some e.sound := by
  have hnote (d : Duration) : readCode d.drawn = some (false, d) := by cases d <;> decide
  have hrest (d : Duration) : readCode (d.drawn ++ "r") = some (true, d) := by cases d <;> decide
  cases e with
  | note pitch duration p =>
    simp [StaveNote.heard, Element.toStave, readKey_key, hnote, Element.sound]
  | rest duration p =>
    obtain ⟨pitch, hkey, hplain⟩ := middleKey_eq_key clef
    simp [StaveNote.heard, Element.toStave, hkey, readKey_key, hplain, hrest, Element.sound]

/-! ## Scores -/

/-- A score, its outline and its document are the same music. -/
structure SameMusic (s : Score) (o : Outline) (d : Document) : Prop where
  /-- Both have the measures of the score, numbered from one. -/
  numbers : o.measures.map OutlineMeasure.number = List.range' 1 s.measures.length ∧
    d.measures.map StaveMeasure.number = (List.range' 1 s.measures.length).map Int.ofNat
  /-- In every measure the same is heard, element by element. -/
  heard : o.measures.map (·.elements.map heardOutline) =
      s.measures.map (·.elements.map fun e => some e.sound) ∧
    d.measures.map (·.notes.map StaveNote.heard) =
      s.measures.map (·.elements.map fun e => some e.sound)
  /-- The first measure of the outline has the clef of the document, if one was declared. -/
  clef : ∀ m ∈ o.measures, m.clefs.map ClefType.name =
    if m.number = 1 ∧ s.clef.isSome then [d.clef] else []
  /-- And so it has the time signature. -/
  time : ∀ m ∈ o.measures, m.times =
    if m.number = 1 ∧ s.time.isSome then [d.timeSignature] else []
  /-- Without declarations the document shows a treble clef and four quarters. -/
  defaults : (s.clef = none → d.clef = "treble") ∧
    (s.time = none → d.timeSignature = "4/4" ∧ d.beats = 4 ∧ d.beatValue = 4)

theorem sameMusic_toDocument {s : Score} (h : s.measures.map Measure.number =
    List.range' 1 s.measures.length) (title : String) :
    SameMusic s s.toOutline (s.toDocument title) where
  numbers := by
    rw [← h]
    simp [Score.toOutline, Measure.toOutline, Score.toDocument, Function.comp_def]
  heard := by
    simp [Score.toOutline, Measure.toOutline, Score.toDocument, Function.comp_def, heard_toOutline,
      heard_toStave]
  clef := by
    intro m hm
    obtain ⟨m, -, rfl⟩ := List.mem_map.1 hm
    by_cases hone : m.number = 1
    · cases hclef : s.clef <;>
        simp [Measure.toOutline, Score.toDocument, Score.clefType, hone, hclef]
    · simp [Measure.toOutline, hone]
  time := by
    intro m hm
    obtain ⟨m, -, rfl⟩ := List.mem_map.1 hm
    by_cases hone : m.number = 1
    · cases htime : s.time <;>
        simp [Measure.toOutline, Score.toDocument, Score.meter, TimeSignature.display, hone, htime]
    · simp [Measure.toOutline, hone]
  defaults := by
    constructor
    · intro hclef
      simp [Score.toDocument, Score.clefType, hclef, ClefType.name]
    · intro htime
      have hmeter : s.meter = (4, 4) := by
        rw [Score.meter, htime]
        rfl
      simp only [Score.toDocument, hmeter]
      decide

/-- **Both back ends describe the same music.** For every score that an exporter makes of a notation
there is a document, and an outline if the notator can make a meter of its time signature. They are
the same music. -/
theorem sameMusic_of_score {e : Exporter} {input : Input} {score : Score}
    (h : e.score input = .ok score) (title : String) :
    (∀ notator, score.meterFault? notator = none →
      score.outline notator = .ok score.toOutline) ∧
      score.document title = .ok (score.toDocument title) ∧
      SameMusic score score.toOutline (score.toDocument title) := by
  obtain ⟨text, items, -, -, hsentence, hscore⟩ := Exporter.sentence_of_score h
  refine ⟨fun notator hmeter => ?_, ?_, sameMusic_toDocument ?_ title⟩
  · rw [Score.outline, hmeter]
  · have hnumerals : score.numerals = (Score.ofItems items).numerals := by rw [hscore]; rfl
    rw [Score.document, Text.checkNumerals, hnumerals,
      if_pos (List.all_eq_true.2 (Score.writable_numerals hsentence.writable))]
    rfl
  · rw [hscore]
    exact (denotes_ofItems items).numbers

/-- B flat, B and a rest: in the outline `B-4`, `B4` and a rest, in the document `bb/4`, `b/4` and a
rest on the key `c/4`. -/
theorem sameMusic_of_score_at_flats :
    let text := "clef: alto Bb4 e B4 q | r s"
    let score : Score :=
      { measures := [
          ⟨1, [.note ⟨.b, 4, some .flat⟩ .eighth ⟨1, 12, 11⟩,
            .note ⟨.b, 4, none⟩ .quarter ⟨1, 18, 17⟩]⟩,
          ⟨2, [.rest .sixteenth ⟨1, 25, 24⟩]⟩],
        clef := some ⟨.alto, ⟨1, 1, 0⟩⟩ }
    Exporter.score {} (.text text) = .ok score ∧
      score.outline (.constant "<score-partwise/>") = .ok score.toOutline ∧
      score.toOutline.measures.map OutlineMeasure.elements =
        [[(some "B-4", .eighth), (some "B4", .quarter)], [(none, .sixteenth)]] ∧
      score.document "Song" = .ok (score.toDocument "Song") ∧
      (score.toDocument "Song").measures.map StaveMeasure.notes =
        [[⟨["bb/4"], "8", [some "b"]⟩, ⟨["b/4"], "q", [none]⟩], [⟨["c/4"], "16r", [none]⟩]] ∧
      SameMusic score score.toOutline (score.toDocument "Song") := by
  intro text score
  have hscore : Exporter.score {} (.text text) = .ok score := ok_of_toOption (by decide +kernel)
  obtain ⟨houtline, hdocument, hsame⟩ := sameMusic_of_score hscore "Song"
  exact ⟨hscore, houtline _ (by decide), by decide +kernel, hdocument, by decide +kernel, hsame⟩

end ScoreText
