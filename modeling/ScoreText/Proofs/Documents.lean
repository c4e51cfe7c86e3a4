import ScoreText.Proofs.RoundTrip
import ScoreText.Proofs.SameMusic

/-!
What a document keeps of a score. Keys, durations and signs of a drawn note can be read back
(`heard_toStave`), so two scores are drawn alike just if they are alike up to the places of their
parts, an absent clef being a treble clef and an absent time signature being four quarters
(`document_eq_iff`). That a rest is drawn on the key of a real note, which depends on the clef, does
no harm: the clef is in the document too.
-/

namespace ScoreText

/-! ## Notes and rests -/

theorem Element.sound_eq_iff {e f : Element} : e.sound = f.sound ↔ e.unplaced = f.unplaced := by
  cases e <;> cases f <;> simp [sound, unplaced]

theorem Element.toStave_unplaced (clef : ClefType) (e : Element) :
    e.unplaced.toStave clef = e.toStave clef := by
  cases e <;> rfl

/-- Under one clef, notes and rests are drawn alike just if they differ in their places at most. -/
theorem Element.toStave_eq_iff {clef : ClefType} {e f : Element} :
    e.toStave clef = f.toStave clef ↔ e.unplaced = f.unplaced := by
  constructor
  · intro h
    have hheard : some e.sound = some f.sound := by
      rw [← heard_toStave clef e, ← heard_toStave clef f, h]
    exact sound_eq_iff.1 (Option.some.inj hheard)
  · intro h
    rw [← e.toStave_unplaced, ← f.toStave_unplaced, h]

theorem Element.octave?_unplaced (e : Element) : e.unplaced.octave? = e.octave? := by
  cases e <;> rfl

/-! ## Measures -/

private theorem map_eq_map_iff_of {α β γ : Type} {f : α → β} {g : α → γ}
    (h : ∀ a b, f a = f b ↔ g a = g b) (xs ys : List α) :
    xs.map f = ys.map f ↔ xs.map g = ys.map g := by
  induction xs generalizing ys with
  | nil => cases ys <;> simp
  | cons x xs ih =>
    cases ys with
    | nil => simp
    | cons y ys => simp [h, ih]

namespace Score

theorem measures_toDocument_eq_iff {s t : Score} (title : String) (h : s.clefType = t.clefType) :
    (s.toDocument title).measures = (t.toDocument title).measures ↔
      s.unplaced.measures = t.unplaced.measures := by
  simp only [toDocument, unplaced, h]
  refine map_eq_map_iff_of (fun m n => ?_) s.measures t.measures
  rw [StaveMeasure.mk.injEq, Measure.mk.injEq, Int.natCast_inj,
    map_eq_map_iff_of fun _ _ => Element.toStave_eq_iff]

/-! ## Scores -/

/-- Scores that are alike up to the places of their parts. It makes no difference whether a treble
clef and a time signature of four quarters are declared or not. -/
structure AlikeButPlaces (s t : Score) : Prop where
  clef : (s.clef.map Clef.type).getD .treble = (t.clef.map Clef.type).getD .treble
  time : (s.time.map fun m => (m.numerator, m.denominator)).getD (4, 4) =
    (t.time.map fun m => (m.numerator, m.denominator)).getD (4, 4)
  measures : s.unplaced.measures = t.unplaced.measures

theorem toDocument_eq_iff {s t : Score} (title : String) :
    s.toDocument title = t.toDocument title ↔ s.AlikeButPlaces t := by
  constructor
  · intro h
    have hname : s.clefType.name = t.clefType.name := congrArg Document.clef h
    have hclef : s.clefType = t.clefType := by
      revert hname
      cases s.clefType <;> cases t.clefType <;> decide
    have hbeats : (s.meter.1 : Int) = t.meter.1 := congrArg Document.beats h
    have hvalue : (s.meter.2 : Int) = t.meter.2 := congrArg Document.beatValue h
    refine ⟨hclef, Prod.ext (Int.natCast_inj.1 hbeats) (Int.natCast_inj.1 hvalue), ?_⟩
    exact (measures_toDocument_eq_iff title hclef).1 (congrArg Document.measures h)
  · rintro ⟨hclef, htime, hmeasures⟩
    have hclef : s.clefType = t.clefType := hclef
    have htime : s.meter = t.meter := htime
    have hdrawn := (measures_toDocument_eq_iff title hclef).2 hmeasures
    simp only [toDocument, Document.mk.injEq, hclef, htime, true_and] at hdrawn ⊢
    exact hdrawn

theorem elements_unplaced (s : Score) : s.unplaced.elements = s.elements.map Element.unplaced := by
  simp [elements, unplaced, List.flatMap_map, List.map_flatMap]

/-- Scores that are alike have the same numbers to write. -/
theorem AlikeButPlaces.numerals_eq {s t : Score} (h : s.AlikeButPlaces t) :
    s.numerals = t.numerals := by
  have htime : s.meter = t.meter := h.time
  have hoctaves (s : Score) : (s.elements.filterMap fun e => e.octave?.map Int.ofNat) =
      s.unplaced.elements.filterMap fun e => e.octave?.map Int.ofNat := by
    rw [elements_unplaced, List.filterMap_map]
    simp only [Function.comp_def, Element.octave?_unplaced]
  have helements : s.unplaced.elements = t.unplaced.elements := by
    rw [elements, elements, h.measures]
  rw [numerals, numerals, hoctaves s, hoctaves t, helements, htime]

theorem document_eq_ok_iff {s : Score} {title : String} {d : Document} :
    s.document title = .ok d ↔
      (∀ n ∈ s.numerals, Text.isWritable n = true) ∧ s.toDocument title = d :=
  Text.map_checkNumerals_eq_ok_iff

end Score

/-- **A document forgets nothing but places and defaults.** Two scores are drawn as one document
just if they are alike up to the places of their parts. They are given that document just if their
numbers can be written; these are the same numbers then. -/
theorem document_eq_iff (s t : Score) (title : String) :
    (s.toDocument title = t.toDocument title ↔ s.AlikeButPlaces t) ∧
      ((∃ d, s.document title = .ok d ∧ t.document title = .ok d) ↔
        s.AlikeButPlaces t ∧ ∀ n ∈ s.numerals, Text.isWritable n = true) := by
  refine ⟨Score.toDocument_eq_iff title, ?_⟩
  constructor
  · rintro ⟨d, hs, ht⟩
    obtain ⟨hwritable, rfl⟩ := Score.document_eq_ok_iff.1 hs
    obtain ⟨-, hsame⟩ := Score.document_eq_ok_iff.1 ht
    exact ⟨(Score.toDocument_eq_iff title).1 hsame.symm, hwritable⟩
  · rintro ⟨halike, hwritable⟩
    refine ⟨s.toDocument title, Score.document_eq_ok_iff.2 ⟨hwritable, rfl⟩, ?_⟩
    rw [Score.document_eq_ok_iff, ← halike.numerals_eq]
    exact ⟨hwritable, ((Score.toDocument_eq_iff title).2 halike).symm⟩

end ScoreText
