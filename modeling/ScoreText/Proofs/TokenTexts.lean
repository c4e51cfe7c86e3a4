import ScoreText.Proofs.Scanner
import ScoreText.Proofs.Tiling

/-!
The texts of tokens and what stands around them in the source (`tokenize_texts`). Every token has a
text of its kind; words and numbers are as long as they can be. What may stand behind a token is
known from the scan that cut it off (`Scans.allows`). A flat sign is cut off together with the note
before it (`Scans.note_before_flat`).
-/

namespace ScoreText

def Token.before (t : Token) (text : String) : List Char :=
  text.toList.take t.extent.start.toNat

def Token.behind (t : Token) (text : String) : List Char := text.toList.drop t.extent.stop.toNat

/-- Which of the texts of a kind a token may have, with the given characters behind it. -/
def Kind.Allows (behind : List Char) : Kind → List Char → Prop
  | .note, cs => ∀ c ∈ cs, c.isLower = true →
    c ∈ ['a', 'b', 'c', 'd', 'e', 'f', 'g'] ∧
      ∃ d more, behind = '#' :: d :: more ∧ d.isAlpha = true
  | .number, _ => ∀ d ∈ behind.head?, d.isDigit = false
  | .clef, _ | .rest, _ => ∀ d ∈ behind.head?, d.isAlpha = false
  | .identifier, cs => (∀ d ∈ behind.head?, d.isAlpha = false) ∧
    ¬ Kind.clef.Admits cs ∧ ¬ Kind.rest.Admits cs ∧ ¬ Kind.duration.Admits cs ∧
      ∀ l : NoteLetter, cs ≠ [l.char] ∧ cs ≠ [l.char.toLower]
  | _, _ => True

/-! ## What one scan leaves behind a piece -/

private theorem mem_of_isNoteLetter_toUpper {c : Char} (h : isNoteLetter c.toUpper = true)
    (hc : c.isLower = true) : c ∈ ['a', 'b', 'c', 'd', 'e', 'f', 'g'] := by
  obtain ⟨l, hl⟩ := Option.isSome_iff_exists.1 h
  rw [← Text.toLower_toUpper hc, NoteLetter.ofChar?_eq_some_iff.1 hl]
  cases l <;> decide

/-- A run of letters is a note letter, or a word of another kind; of these, identifiers are what
remains. -/
private theorem classifyWord_cases (word : List Char) :
    (∃ c, word = [c] ∧ isNoteLetter c.toUpper = true ∧ classifyWord word = .note) ∨
      classifyWord word = .duration ∨ classifyWord word = .clef ∨ classifyWord word = .rest ∨
      classifyWord word = .identifier := by
  unfold classifyWord
  dsimp only
  split
  · next c =>
    split
    · next hc => exact .inl ⟨c, rfl, hc, rfl⟩
    · repeat' split
      all_goals simp
  · split <;> simp

private theorem not_admits_of_classifyWord {word : List Char}
    (h : classifyWord word = .identifier) :
    ¬ Kind.clef.Admits word ∧ ¬ Kind.rest.Admits word ∧ ¬ Kind.duration.Admits word ∧
      ∀ l : NoteLetter, word ≠ [l.char] ∧ word ≠ [l.char.toLower] := by
  refine ⟨?_, ?_, ?_, fun l => ⟨?_, ?_⟩⟩
  · rintro ⟨-, type, hname⟩
    have hlong : ∀ c, word ≠ [c] := by
      rintro c rfl
      cases type <;> simp [ClefType.name] at hname
    have hclef : (ClefType.ofName? (String.ofList (word.map Char.toLower))).isSome = true := by
      rw [hname, String.ofList_toList, ClefType.ofName?_eq_some_iff.2 rfl]
      rfl
    unfold classifyWord at h
    dsimp only at h
    split at h
    · next c => exact hlong c rfl
    · rw [if_pos hclef] at h
      cases h
  · rintro (rfl | rfl)
    · cases h
    · cases h
  · rintro ⟨d, rfl⟩
    cases d <;> cases h
  · rintro rfl
    cases l <;> cases h
  · rintro rfl
    cases l <;> cases h

private theorem allows_sign {c : Char} {kind : Kind} (h : signKind? c = some kind)
    (behind cs : List Char) : kind.Allows behind cs := by
  unfold signKind? at h
  split at h
  all_goals cases h
  all_goals trivial

private theorem allows_noteLetter (c : Char) (behind : List Char) :
    Kind.note.Allows behind [c.toUpper] := by
  intro d hd hlower
  rw [List.mem_singleton.1 hd, Text.isLower_toUpper] at hlower
  cases hlower

private theorem allows_word {c : Char} {run after : List Char}
    (hstop : ∀ d ∈ after.head?, d.isAlpha = false)
    (hshort : run = [] → isNoteLetter c.toUpper = true →
      ∃ d more, after = '#' :: d :: more ∧ d.isAlpha = true) :
    (classifyWord (c :: run)).Allows after (c :: run) := by
  rcases classifyWord_cases (c :: run) with ⟨d, hword, hnote, hk⟩ | hk | hk | hk | hk
  · obtain ⟨rfl, rfl⟩ := List.cons.inj hword
    rw [hk]
    intro e he hlower
    obtain rfl := List.mem_singleton.1 he
    exact ⟨mem_of_isNoteLetter_toUpper hnote hlower, hshort rfl hnote⟩
  · rw [hk]
    trivial
  · rw [hk]
    exact hstop
  · rw [hk]
    exact hstop
  · rw [hk]
    exact ⟨hstop, not_admits_of_classifyWord hk⟩

namespace Scans

variable {c : Char} {rest after : List Char} {pieces us vs : List Lexeme}

theorem allows (h : Scans c rest pieces after) {kind : Kind} {source text : List Char}
    (hpieces : pieces = us ++ .token kind source text :: vs) :
    kind.Allows (vs.flatMap Lexeme.source ++ after) text := by
  cases h with
  | altered _ a =>
    rcases split_pair hpieces with ⟨-, hx, -⟩ | ⟨-, hx, -⟩
    · cases hx
      exact allows_noteLetter _ _
    · cases hx
      trivial
  | carriage | stray => cases (split_singleton hpieces).2.1
  | sign hk =>
    cases (split_singleton hpieces).2.1
    exact allows_sign hk _ _
  | lineEnd | duration =>
    cases (split_singleton hpieces).2.1
    trivial
  | letter =>
    cases (split_singleton hpieces).2.1
    exact allows_noteLetter _ _
  | word _ hstop hshort =>
    obtain ⟨-, hx, rfl⟩ := split_singleton hpieces
    cases hx
    exact allows_word hstop hshort
  | number _ hstop =>
    obtain ⟨-, hx, rfl⟩ := split_singleton hpieces
    cases hx
    exact hstop

/-- A flat sign is cut off together with the note letter before it. -/
theorem note_before_flat (h : Scans c rest pieces after) {source : List Char}
    (hpieces : pieces = us ++ .token .accidental source ['b'] :: vs) :
    ∃ d, us = [.noteLetter d] := by
  cases h with
  | altered =>
    rcases split_pair hpieces with ⟨-, hx, -⟩ | ⟨hus, -, -⟩
    · cases hx
    · exact ⟨_, hus⟩
  | sign hk =>
    cases (split_singleton hpieces).2.1
    cases hk
  | lineEnd | carriage | duration | letter | number | stray =>
    cases (split_singleton hpieces).2.1
  | @word c run =>
    have hk : Kind.accidental = classifyWord (c :: run) :=
      (Lexeme.token.inj (split_singleton hpieces).2.1).1
    rcases classifyWord_cases (c :: run) with ⟨d, -, -, hw⟩ | hw | hw | hw | hw <;>
      simp [hw] at hk

/-- Only a number has digits, and no digit follows it. -/
theorem not_digit_behind (h : Scans c rest pieces after) {x : Lexeme}
    (hpieces : pieces = us ++ x :: vs) {d : Char} (hd : d ∈ x.source) (hdigit : d.isDigit = true) :
    ∀ e ∈ (vs.flatMap Lexeme.source ++ after).head?, e.isDigit = false := by
  have hnot : d.isAlpha = false := Text.isAlpha_of_isDigit hdigit
  cases h with
  | number _ hstop =>
    obtain ⟨-, -, rfl⟩ := split_singleton hpieces
    exact hstop
  | altered hc a =>
    rcases split_pair hpieces with ⟨-, rfl, -⟩ | ⟨-, rfl, -⟩
    · obtain rfl := List.mem_singleton.1 hd
      simp [hc] at hnot
    · obtain rfl := List.mem_singleton.1 hd
      cases a <;> cases hdigit
  | sign hk =>
    obtain ⟨-, rfl, -⟩ := split_singleton hpieces
    obtain rfl := List.mem_singleton.1 hd
    unfold signKind? at hk
    split at hk
    all_goals cases hk
    all_goals cases hdigit
  | lineEnd =>
    obtain ⟨-, rfl, -⟩ := split_singleton hpieces
    rcases List.mem_cons.1 hd with rfl | hd
    · cases hdigit
    · obtain rfl := List.mem_singleton.1 hd
      cases hdigit
  | carriage =>
    obtain ⟨-, rfl, -⟩ := split_singleton hpieces
    obtain rfl := List.mem_singleton.1 hd
    cases hdigit
  | duration t =>
    obtain ⟨-, rfl, -⟩ := split_singleton hpieces
    obtain rfl := List.mem_singleton.1 hd
    cases t <;> cases hdigit
  | letter hc =>
    obtain ⟨-, rfl, -⟩ := split_singleton hpieces
    obtain rfl := List.mem_singleton.1 hd
    simp [hc] at hnot
  | word hall =>
    obtain ⟨-, rfl, -⟩ := split_singleton hpieces
    simp [hall d hd] at hnot
  | stray hno =>
    obtain ⟨-, rfl, -⟩ := split_singleton hpieces
    obtain rfl := List.mem_singleton.1 hd
    simp [isNotationChar_of_isDigit hdigit] at hno

end Scans

/-! ## Pieces in a text -/

section Pieces

variable {cs : List Char} {xs ys : List Lexeme}

private theorem allows_of_lexemes {kind : Kind} {source text : List Char}
    (h : lexemes cs = xs ++ .token kind source text :: ys) :
    kind.Allows (ys.flatMap Lexeme.source) text := by
  obtain ⟨c, rest, us, vs, after, hscans, -, rfl⟩ := exists_scans_of_lexemes h
  rw [List.flatMap_append, flatMap_source_lexemes]
  exact hscans.allows rfl

private theorem note_before_flat_of_lexemes {source : List Char}
    (h : lexemes cs = xs ++ .token .accidental source ['b'] :: ys) :
    ∃ zs d, xs = zs ++ [.noteLetter d] := by
  obtain ⟨c, rest, us, vs, after, hscans, ⟨zs, rfl⟩, -⟩ := exists_scans_of_lexemes h
  obtain ⟨d, rfl⟩ := hscans.note_before_flat rfl
  exact ⟨zs, d, rfl⟩

/-- A digit before a number would belong to a piece that ends there, and no digit follows that. -/
private theorem not_digit_before_number {source text : List Char}
    (h : lexemes cs = xs ++ .token .number source text :: ys) :
    ∀ d ∈ (xs.flatMap Lexeme.source).getLast?, d.isDigit = false := by
  intro d hd
  rw [Bool.eq_false_iff]
  intro hdigit
  have hmem : Lexeme.token .number source text ∈ lexemes cs := by simp [h]
  obtain ⟨-, ⟨hne, hall⟩, -, -⟩ := sound_of_mem_lexemes hmem
  obtain rfl : text = source :=
    (spelled_of_mem_lexemes hmem).resolve_right fun hnote => by cases hnote.1
  rcases List.eq_nil_or_concat xs with rfl | ⟨zs, z, rfl⟩
  · cases hd
  · rw [List.concat_eq_append] at h hd
    rw [List.append_assoc, List.singleton_append] at h
    have hz : d ∈ z.source := by
      have hzne := source_ne_nil (sound_of_mem_lexemes (h ▸ by simp : z ∈ lexemes cs))
      rw [List.flatMap_append, List.flatMap_singleton, List.getLast?_append,
        List.getLast?_eq_some_getLast hzne] at hd
      obtain rfl := Option.some.inj hd
      exact List.getLast_mem hzne
    obtain ⟨c, rest, us, vs, after, hscans, -, hys⟩ := exists_scans_of_lexemes h
    have hbehind := hscans.not_digit_behind rfl hz hdigit
    have hsource : vs.flatMap Lexeme.source ++ after = text ++ ys.flatMap Lexeme.source := by
      have hflat := congrArg (List.flatMap Lexeme.source) hys
      rw [List.flatMap_append, flatMap_source_lexemes] at hflat
      exact hflat.symm
    obtain ⟨e, run, rfl⟩ := List.exists_cons_of_ne_nil hne
    rw [hsource] at hbehind
    simp [hall e (by simp)] at hbehind

end Pieces

/-! ## Tokens in a text -/

private theorem around_of_mem_tokens {text : String} {t : Token}
    (h : t ∈ (placedLexemes text).filterMap tokenOf?) :
    ∃ xs source ys, lexemes text.toList = xs ++ .token t.kind source t.text.toList :: ys ∧
      t.position.offset = (xs.flatMap Lexeme.source).length ∧
      t.before text = xs.flatMap Lexeme.source ∧ t.behind text = ys.flatMap Lexeme.source := by
  obtain ⟨⟨p, x⟩, hx, he⟩ := List.mem_filterMap.1 h
  cases x with
  | stray c => cases he
  | carriage => cases he
  | token kind source cs =>
    cases he
    have hspelled := spelled_of_mem_lexemes (mem_lexemes_of_mem_placedLexemes hx)
    obtain ⟨xs, ys, hsplit, htext, hp⟩ := split_of_mem_placedLexemes hx
    refine ⟨xs, source, ys, ?_, hp, ?_, ?_⟩
    · rw [String.toList_ofList]
      exact hsplit
    · show text.toList.take p.offset.toNat = _
      rw [hp, htext, Int.toNat_natCast, List.take_left]
    · show text.toList.drop (p.offset + (String.ofList cs).length).toNat = _
      have hlength : (String.ofList cs).length = source.length := by
        rw [String.length_ofList, length_of_spelled hspelled]
      rw [hp, htext, hlength, ← Int.natCast_add, Int.toNat_natCast, ← List.append_assoc,
        Lexeme.source, ← List.length_append, List.drop_left]

/-- The token of the note letter that a flat sign was cut off with. -/
private theorem exists_note_before_flat {text : String} {xs ys : List Lexeme} {source : List Char}
    (h : lexemes text.toList = xs ++ .token .accidental source ['b'] :: ys) :
    ∃ n ∈ (placedLexemes text).filterMap tokenOf?, n.kind = .note ∧
      n.extent.stop = (xs.flatMap Lexeme.source).length := by
  obtain ⟨zs, d, rfl⟩ := note_before_flat_of_lexemes h
  let p := Position.start.after (zs.flatMap Lexeme.source)
  have hmem : (p, Lexeme.noteLetter d) ∈ placedLexemes text := by
    rw [placedLexemes, h, List.append_assoc, placeFrom_append]
    exact List.mem_append_right _ List.mem_cons_self
  refine ⟨_, List.mem_filterMap.2 ⟨_, hmem, rfl⟩, rfl, ?_⟩
  have hp : p.offset = (zs.flatMap Lexeme.source).length := by
    simp [p, offset_after, Position.start]
  show p.offset + (String.ofList [d.toUpper]).length = _
  simp [hp, Lexeme.noteLetter, Lexeme.source]

/-- **Every token has a text of its kind, and words and numbers are as long as they can be.** No
token is of the unknown kind, a flat sign starts where a note ends, and no digit stands before a
number. -/
theorem tokenize_texts (text : String) :
    ∀ t ∈ (tokenize text).tokens,
      t.kind ≠ .unknown ∧ t.kind.Admits t.text.toList ∧
      t.kind.Allows (t.behind text) t.text.toList ∧
      (t.kind = .accidental → t.text = "b" → ∃ n ∈ (tokenize text).tokens,
        n.kind = .note ∧ n.extent.stop = t.extent.start) ∧
      (t.kind = .number → ∀ d ∈ (t.before text).getLast?, d.isDigit = false) := by
  intro t ht
  rw [tokenize_eq_lex, lex_tokens, allTokens] at ht ⊢
  rcases List.mem_append.1 ht with ht | hend
  · obtain ⟨xs, source, ys, hsplit, hoffset, hbefore, hbehind⟩ := around_of_mem_tokens ht
    have hmem : Lexeme.token t.kind source t.text.toList ∈ lexemes text.toList := by simp [hsplit]
    have hsound := sound_of_mem_lexemes hmem
    refine ⟨?_, hsound.2.1, ?_, fun hk hflat => ?_, fun hk => ?_⟩
    · intro hk
      have hadmits := hsound.2.1
      rw [hk] at hadmits
      exact hadmits
    · rw [hbehind]
      exact allows_of_lexemes hsplit
    · rw [hk, hflat] at hsplit
      obtain ⟨n, hn, hnote, hstop⟩ := exists_note_before_flat hsplit
      exact ⟨n, List.mem_append_left _ hn, hnote, hstop.trans hoffset.symm⟩
    · rw [hk] at hsplit
      rw [hbefore]
      exact not_digit_before_number hsplit
  · rw [List.mem_singleton.1 hend]
    exact ⟨by simp [Token.endAt], rfl, trivial, by simp [Token.endAt], by simp [Token.endAt]⟩

/-- The small `c` is a note only because a sharp sign and a letter follow. -/
theorem tokenize_texts_flat_and_small_note :
    let text := "Bb12 c#d"
    let flat : Token := ⟨.accidental, "b", ⟨1, 2, 1⟩⟩
    let small : Token := ⟨.note, "c", ⟨1, 6, 5⟩⟩
    flat ∈ (tokenize text).tokens ∧ small ∈ (tokenize text).tokens ∧
      (∃ n ∈ (tokenize text).tokens, n.kind = .note ∧ n.extent.stop = 1) ∧
      Kind.note.Allows (small.behind text) "c".toList := by
  intro text flat small
  have hflat : flat ∈ (tokenize text).tokens := by decide +kernel
  have hsmall : small ∈ (tokenize text).tokens := by decide +kernel
  refine ⟨hflat, hsmall, ?_, ?_⟩
  · exact (tokenize_texts text flat hflat).2.2.2.1 rfl rfl
  · exact (tokenize_texts text small hsmall).2.2.1

end ScoreText
