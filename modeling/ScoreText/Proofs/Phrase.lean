import ScoreText.Proofs.Tokens

/-!
The grammar of the notation over tokens. A phrase is a run of tokens that makes one item: a clef or
a time signature, a note, a rest or a bar line. A sentence is any number of phrases one after the
other. `itemAt?` looks for a phrase at the start of a token list, and finds one exactly when there
is one (`itemAt?_eq_some_iff`).
-/

namespace ScoreText

theorem onlyChar?_eq_some_iff {s : String} {c : Char} : onlyChar? s = some c ↔ s.toList = [c] := by
  unfold onlyChar?
  split
  · next d hd => simp [hd]
  · next hne =>
    constructor
    · intro h
      cases h
    · intro h
      exact absurd h (hne c)

/-! ## What single tokens stand for -/

namespace Token

/-- Whether the token is a word that is the given one in lower case. -/
def isKeyword (t : Token) (word : String) : Bool :=
  decide (t.kind = .identifier) && String.ofList (Text.lower t.text.toList) == word

def letter? (t : Token) : Option NoteLetter :=
  if t.kind = .note then
    (onlyChar? (String.ofList (Text.upper t.text.toList))).bind NoteLetter.ofChar?
  else none

def accidental? (t : Token) : Option Accidental :=
  if t.kind = .accidental then (onlyChar? t.text).bind Accidental.ofChar? else none

def octave? (t : Token) : Option Nat :=
  if t.kind = .number then
    (onlyChar? t.text).bind fun c => if c.isDigit then some (Text.decimal [c]) else none
  else none

def duration? (t : Token) : Option Duration :=
  if t.kind = .duration then (onlyChar? t.text).bind Duration.ofChar? else none

def clefType? (t : Token) : Option ClefType :=
  if t.kind = .clef then ClefType.ofName? (String.ofList (Text.lower t.text.toList)) else none

/-- The value of a number token, when it is positive and has few enough digits. -/
def count? (t : Token) : Option Nat :=
  if t.kind = .number ∧ t.text.toList.all Char.isDigit = true ∧
      t.text.toList.length ≤ Text.maxDigits ∧ 0 < Text.decimal t.text.toList then
    some (Text.decimal t.text.toList)
  else none

theorem isKeyword_iff {t : Token} {word : String} :
    t.isKeyword word = true ↔
      t.kind = .identifier ∧ String.ofList (Text.lower t.text.toList) = word := by
  simp [isKeyword]

theorem letter?_eq_some_iff {t : Token} {l : NoteLetter} :
    t.letter? = some l ↔ t.kind = .note ∧ Text.upper t.text.toList = [l.char] := by
  simp [letter?, Option.bind_eq_some_iff, onlyChar?_eq_some_iff,
    NoteLetter.ofChar?_eq_some_iff]

theorem accidental?_eq_some_iff {t : Token} {a : Accidental} :
    t.accidental? = some a ↔ t.kind = .accidental ∧ t.text.toList = [a.char] := by
  simp [accidental?, Option.bind_eq_some_iff, onlyChar?_eq_some_iff,
    Accidental.ofChar?_eq_some_iff]

theorem octave?_eq_some_iff {t : Token} {n : Nat} :
    t.octave? = some n ↔
      t.kind = .number ∧ ∃ c : Char, t.text.toList = [c] ∧ c.isDigit = true ∧
        n = Text.decimal [c] := by
  simp only [octave?, Option.ite_none_right_eq_some, Option.bind_eq_some_iff,
    onlyChar?_eq_some_iff, Option.some.injEq]
  constructor
  · rintro ⟨hk, c, ht, hd, hn⟩
    exact ⟨hk, c, ht, hd, hn.symm⟩
  · rintro ⟨hk, c, ht, hd, hn⟩
    exact ⟨hk, c, ht, hd, hn.symm⟩

theorem duration?_eq_some_iff {t : Token} {d : Duration} :
    t.duration? = some d ↔ t.kind = .duration ∧ t.text.toList = [d.char] := by
  simp [duration?, Option.bind_eq_some_iff, onlyChar?_eq_some_iff,
    Duration.ofChar?_eq_some_iff]

theorem clefType?_eq_some_iff {t : Token} {type : ClefType} :
    t.clefType? = some type ↔
      t.kind = .clef ∧ String.ofList (Text.lower t.text.toList) = type.name := by
  simp [clefType?, ClefType.ofName?_eq_some_iff]

theorem count?_eq_some_iff {t : Token} {n : Nat} :
    t.count? = some n ↔
      (t.kind = .number ∧ (∀ c ∈ t.text.toList, c.isDigit = true) ∧
        t.text.toList.length ≤ Text.maxDigits ∧ 0 < Text.decimal t.text.toList) ∧
      n = Text.decimal t.text.toList := by
  simp only [count?, List.all_eq_true, Option.ite_none_right_eq_some, Option.some.injEq]
  constructor
  · rintro ⟨h, hn⟩
    exact ⟨h, hn.symm⟩
  · rintro ⟨h, hn⟩
    exact ⟨h, hn.symm⟩

end Token

/-! ## Phrases and sentences -/

/-- `Phrase run item`: the tokens of `run` make up the item. An item stands where its first token
stands. -/
inductive Phrase : List Token → Item → Prop
  | clef {keyword colon name : Token} {type : ClefType} :
      keyword.isKeyword "clef" = true → colon.kind = .colon → name.clefType? = some type →
      Phrase [keyword, colon, name] (.clef ⟨type, keyword.position⟩)
  | time {keyword colon above slash below : Token} {n d : Nat} :
      keyword.isKeyword "time" = true → colon.kind = .colon → above.count? = some n →
      slash.kind = .slash → below.count? = some d →
      Phrase [keyword, colon, above, slash, below] (.time ⟨n, d, keyword.position⟩)
  | plainNote {name octave code : Token} {letter : NoteLetter} {o : Nat} {d : Duration} :
      name.letter? = some letter → octave.octave? = some o → code.duration? = some d →
      Phrase [name, octave, code] (.element (.note ⟨letter, o, none⟩ d name.position))
  | alteredNote {name sign octave code : Token} {letter : NoteLetter} {a : Accidental} {o : Nat}
      {d : Duration} :
      name.letter? = some letter → sign.accidental? = some a → octave.octave? = some o →
      code.duration? = some d →
      Phrase [name, sign, octave, code] (.element (.note ⟨letter, o, some a⟩ d name.position))
  | rest {sign code : Token} {d : Duration} :
      sign.kind = .rest → code.duration? = some d →
      Phrase [sign, code] (.element (.rest d sign.position))
  | bar {line : Token} : line.kind = .pipe → Phrase [line] .bar

/-- `Sentence tokens items`: the tokens are phrases, one after the other, of the items. -/
inductive Sentence : List Token → List Item → Prop
  | nil : Sentence [] []
  | cons {run tokens : List Token} {item : Item} {items : List Item} :
      Phrase run item → Sentence tokens items → Sentence (run ++ tokens) (item :: items)

/-- Kinds of tokens that stand inside an item, behind its first token. -/
def Kind.isInner : Kind → Bool
  | .accidental | .number | .duration | .colon | .clef | .slash => true
  | _ => false

/-- Whether a token begins a declaration, a note or a rest, be it well-formed or not. -/
def Token.opensItem (t : Token) : Bool :=
  decide (t.kind = .note) || decide (t.kind = .rest) || t.isKeyword "clef" || t.isKeyword "time"

/-- A phrase opens an item or is a bar line, and goes on with tokens from inside items. -/
theorem Phrase.eq_cons {run : List Token} {i : Item} (h : Phrase run i) :
    ∃ t ts, run = t :: ts ∧ (t.opensItem = true ∨ t.kind = .pipe) ∧
      ∀ u ∈ ts, u.kind.isInner = true := by
  cases h with
  | clef hk hc ht =>
    have hname := (Token.clefType?_eq_some_iff.1 ht).1
    exact ⟨_, _, rfl, .inl (by simp [Token.opensItem, hk]), by simp [hc, hname, Kind.isInner]⟩
  | time hk hc hn hs hd =>
    have habove := (Token.count?_eq_some_iff.1 hn).1.1
    have hbelow := (Token.count?_eq_some_iff.1 hd).1.1
    exact ⟨_, _, rfl, .inl (by simp [Token.opensItem, hk]),
      by simp [hc, habove, hs, hbelow, Kind.isInner]⟩
  | plainNote hl ho hd =>
    have hname := (Token.letter?_eq_some_iff.1 hl).1
    have hoctave := (Token.octave?_eq_some_iff.1 ho).1
    have hcode := (Token.duration?_eq_some_iff.1 hd).1
    exact ⟨_, _, rfl, .inl (by simp [Token.opensItem, hname]),
      by simp [hoctave, hcode, Kind.isInner]⟩
  | alteredNote hl ha ho hd =>
    have hname := (Token.letter?_eq_some_iff.1 hl).1
    have hsign := (Token.accidental?_eq_some_iff.1 ha).1
    have hoctave := (Token.octave?_eq_some_iff.1 ho).1
    have hcode := (Token.duration?_eq_some_iff.1 hd).1
    exact ⟨_, _, rfl, .inl (by simp [Token.opensItem, hname]),
      by simp [hsign, hoctave, hcode, Kind.isInner]⟩
  | rest hr hd =>
    have hcode := (Token.duration?_eq_some_iff.1 hd).1
    exact ⟨_, _, rfl, .inl (by simp [Token.opensItem, hr]), by simp [hcode, Kind.isInner]⟩
  | bar hb => exact ⟨_, [], rfl, .inr hb, by simp⟩

theorem Sentence.append {xs ys : List Token} {is js : List Item} (hx : Sentence xs is)
    (hy : Sentence ys js) : Sentence (xs ++ ys) (is ++ js) := by
  induction hx with
  | nil => exact hy
  | cons hp _ ih =>
    rw [List.append_assoc]
    exact .cons hp ih

theorem Sentence.single {run : List Token} {item : Item} (h : Phrase run item) :
    Sentence run [item] := by
  simpa using Sentence.cons h .nil

/-! ## The phrase at the start of a token list -/

def noteFrom? (letter : NoteLetter) (accidental : Option Accidental) (p : Position) :
    List Token → Option Item
  | octave :: code :: _ => do
    let o ← octave.octave?
    let d ← code.duration?
    return .element (.note ⟨letter, o, accidental⟩ d p)
  | _ => none

/-- The item whose phrase stands at the start of a token list. -/
def itemAt? : List Token → Option Item
  | [] => none
  | t :: rest =>
    match t.kind with
    | .pipe => some .bar
    | .rest =>
      match rest with
      | code :: _ => code.duration?.map fun d => .element (.rest d t.position)
      | [] => none
    | .note => do
      let letter ← t.letter?
      match rest with
      | sign :: after =>
        match sign.accidental? with
        | some a => noteFrom? letter (some a) t.position after
        | none => noteFrom? letter none t.position rest
      | [] => none
    | .identifier =>
      match rest with
      | colon :: name :: after =>
        if colon.kind = .colon then
          if t.isKeyword "clef" then name.clefType?.map fun type => .clef ⟨type, t.position⟩
          else if t.isKeyword "time" then
            match after with
            | slash :: below :: _ =>
              if slash.kind = .slash then do
                let n ← name.count?
                let d ← below.count?
                return .time ⟨n, d, t.position⟩
              else none
            | _ => none
          else none
        else none
      | _ => none
    | _ => none

theorem itemAt?_of_phrase {run : List Token} {i : Item} (h : Phrase run i) (rest : List Token) :
    itemAt? (run ++ rest) = some i := by
  cases h with
  | clef hk hc ht =>
    have hkind := (Token.isKeyword_iff.1 hk).1
    simp [itemAt?, hkind, hk, hc, ht]
  | @time keyword _ _ _ _ _ _ hk hc hn hs hd =>
    have hkind := (Token.isKeyword_iff.1 hk).1
    have hnot : keyword.isKeyword "clef" = false := by
      have := (Token.isKeyword_iff.1 hk).2
      simp [Token.isKeyword, this]
    simp [itemAt?, hkind, hnot, hk, hc, hn, hs, hd]
  | @plainNote _ octave _ _ _ _ hl ho hd =>
    have hkind := (Token.letter?_eq_some_iff.1 hl).1
    have hsign : octave.accidental? = none := by
      simp [Token.accidental?, (Token.octave?_eq_some_iff.1 ho).1]
    simp [itemAt?, noteFrom?, hkind, hl, hsign, ho, hd]
  | alteredNote hl ha ho hd =>
    have hkind := (Token.letter?_eq_some_iff.1 hl).1
    simp [itemAt?, noteFrom?, hkind, hl, ha, ho, hd]
  | rest hr hd => simp [itemAt?, hr, hd]
  | bar hb => simp [itemAt?, hb]

private theorem noteFrom?_eq_some {letter : NoteLetter} {a : Option Accidental} {p : Position}
    {ts : List Token} {i : Item} (h : noteFrom? letter a p ts = some i) :
    ∃ octave code rest o d, ts = octave :: code :: rest ∧ octave.octave? = some o ∧
      code.duration? = some d ∧ i = .element (.note ⟨letter, o, a⟩ d p) := by
  unfold noteFrom? at h
  split at h
  · next octave code rest =>
    simp only [Option.bind_eq_bind, Option.bind_eq_some_iff, Option.pure_def,
      Option.some.injEq] at h
    obtain ⟨o, ho, d, hd, rfl⟩ := h
    exact ⟨octave, code, rest, o, d, rfl, ho, hd, rfl⟩
  · cases h

theorem phrase_of_itemAt? {ts : List Token} {i : Item} (h : itemAt? ts = some i) :
    ∃ run rest, ts = run ++ rest ∧ Phrase run i := by
  cases ts with
  | nil => cases h
  | cons t rest =>
    simp only [itemAt?] at h
    split at h
    · next hk =>
      cases h
      exact ⟨[t], rest, rfl, .bar hk⟩
    · next hk =>
      split at h
      · next code after =>
        obtain ⟨d, hd, rfl⟩ := Option.map_eq_some_iff.1 h
        exact ⟨[t, code], after, rfl, .rest hk hd⟩
      · cases h
    · simp only [Option.bind_eq_bind, Option.bind_eq_some_iff] at h
      obtain ⟨letter, hl, h⟩ := h
      split at h
      · next sign after =>
        split at h
        · next a ha =>
          obtain ⟨octave, code, after', o, d, rfl, ho, hd, rfl⟩ := noteFrom?_eq_some h
          exact ⟨[t, sign, octave, code], after', rfl, .alteredNote hl ha ho hd⟩
        · obtain ⟨octave, code, after', o, d, he, ho, hd, rfl⟩ := noteFrom?_eq_some h
          rw [he]
          exact ⟨[t, octave, code], after', rfl, .plainNote hl ho hd⟩
      · cases h
    · split at h
      · next colon name after =>
        split at h
        · next hc =>
          split at h
          · next hkey =>
            obtain ⟨type, ht, rfl⟩ := Option.map_eq_some_iff.1 h
            exact ⟨[t, colon, name], after, rfl, .clef hkey hc ht⟩
          · split at h
            · next hkey =>
              split at h
              · next slash below after' =>
                split at h
                · next hs =>
                  simp only [Option.bind_eq_bind, Option.bind_eq_some_iff, Option.pure_def,
                    Option.some.injEq] at h
                  obtain ⟨n, hn, d, hd, rfl⟩ := h
                  exact ⟨[t, colon, name, slash, below], after', rfl, .time hkey hc hn hs hd⟩
                · cases h
              · cases h
            · cases h
        · cases h
      · cases h
    · cases h

/-- A phrase is found exactly when one stands at the start. -/
theorem itemAt?_eq_some_iff {ts : List Token} {i : Item} :
    itemAt? ts = some i ↔ ∃ run rest, ts = run ++ rest ∧ Phrase run i := by
  constructor
  · exact phrase_of_itemAt?
  · rintro ⟨run, rest, rfl, h⟩
    exact itemAt?_of_phrase h rest

end ScoreText
