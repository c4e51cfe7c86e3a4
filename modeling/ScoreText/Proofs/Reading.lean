import ScoreText.Proofs.Phrase

/-!
What one step of reading does. From a cursor with an end token ahead, a step moves over the token
under the cursor and then only over tokens that stand inside items; it never moves over the end
token. It yields an item exactly when a phrase of it stands at the cursor (`step_cases`,
`step_of_phrase`), and it breaks off only at a token whose text no lexer produces.
-/

namespace ScoreText

namespace Cursor

def ahead (c : Cursor) : List Token := c.current :: c.after

/-- An end token stands at the cursor or behind it. -/
def HasEnd (c : Cursor) : Prop := ∃ t ∈ c.ahead, t.kind = .eof

/-- `Along s run c`: reading has moved on from `s` over the tokens of `run` to `c`, and behind the
first of them only over tokens from inside an item. -/
structure Along (s : Cursor) (run : List Token) (c : Cursor) : Prop where
  before : c.before = run.reverse ++ s.before
  ahead : s.ahead = run ++ c.ahead
  nonempty : run ≠ []
  inner : ∀ t ∈ run.tail, t.kind.isInner = true
  hasEnd : c.HasEnd

private theorem advance_of_hasEnd {c : Cursor} (h : c.HasEnd) (hk : c.current.kind ≠ .eof) :
    c.advance.before = c.current :: c.before ∧ c.ahead = c.current :: c.advance.ahead ∧
      c.advance.HasEnd := by
  obtain ⟨before, current, after⟩ := c
  cases after with
  | nil =>
    obtain ⟨t, ht, he⟩ := h
    simp only [Cursor.ahead, List.mem_singleton] at ht
    rw [ht] at he
    exact absurd he hk
  | cons u rest =>
    refine ⟨rfl, rfl, ?_⟩
    obtain ⟨t, ht, he⟩ := h
    rcases List.mem_cons.1 ht with rfl | ht
    · exact absurd he hk
    · exact ⟨t, ht, he⟩

namespace Along

variable {s c : Cursor} {run : List Token}

theorem first (h : c.HasEnd) (hk : c.current.kind ≠ .eof) :
    Along c [c.current] c.advance := by
  obtain ⟨hb, ha, he⟩ := advance_of_hasEnd h hk
  exact ⟨by simpa using hb, by simpa using ha, by simp, by simp, he⟩

theorem advance (h : Along s run c) (hk : c.current.kind.isInner = true) :
    Along s (run ++ [c.current]) c.advance := by
  have hne : c.current.kind ≠ .eof := by
    intro he
    rw [he] at hk
    cases hk
  obtain ⟨hb, ha, he⟩ := advance_of_hasEnd h.hasEnd hne
  refine ⟨?_, ?_, by simp, ?_, he⟩
  · rw [hb, h.before]
    simp
  · rw [h.ahead, ha]
    simp
  · intro t ht
    rw [List.tail_append_of_ne_nil h.nonempty, List.mem_append] at ht
    rcases ht with ht | ht
    · exact h.inner t ht
    · rw [List.mem_singleton.1 ht]
      exact hk

theorem suffix (h : Along s run c) : c.ahead <:+ s.ahead := ⟨run, h.ahead.symm⟩

theorem length_lt (h : Along s run c) : c.ahead.length < s.ahead.length := by
  have hpos := List.length_pos_iff.2 h.nonempty
  rw [h.ahead, List.length_append]
  omega

theorem current_mem (h : Along s run c) : c.current ∈ s.ahead := by
  rw [h.ahead]
  simp [Cursor.ahead]

/-- The first token of the run is the one under the cursor. -/
theorem eq_cons (h : Along s run c) : run = s.current :: run.tail := by
  have hr := h.ahead
  cases hrun : run with
  | nil => exact absurd hrun h.nonempty
  | cons t ts =>
    rw [hrun] at hr
    rw [(List.cons.inj hr).1]
    rfl

end Along

/-! ## Attempts at an item

An attempt is followed from reader to reader. Each rule below says what is known where the next
reader starts; the cases in which the attempt ends at this reader are settled in the rule. -/

/-- How an attempt that started at `s` ends: with a value that stands in the relation `P` to the
tokens read, or with a problem. It breaks off only if some token is not lexical. -/
def Ends {α : Type} (s : Cursor) (P : List Token → α → Prop) :
    Except Halt (α × Cursor) → Prop
  | .ok (a, next) => ∃ run, Along s run next ∧ ((∀ t ∈ run, t.Lexical) → P run a)
  | .error (.problem _ next) => ∃ run, Along s run next
  | .error (.fault _ next) => (∃ run, Along s run next) ∧ ∃ t ∈ s.ahead, ¬ t.Lexical

section Rules

variable {α : Type} {s c : Cursor} {run : List Token} {P : List Token → α → Prop}

theorem ends_pass {kind : Kind} {missing : Problem} {f : Cursor → Except Halt (α × Cursor)}
    (h : Along s run c) (hk : kind.isInner = true)
    (next : c.current.kind = kind → Along s (run ++ [c.current]) c.advance →
      Ends s P (f c.advance)) :
    Ends s P (c.pass kind missing >>= f) := by
  unfold pass
  split
  · next he => exact next he (h.advance (by rw [he]; exact hk))
  · exact ⟨run, h⟩

theorem ends_readDuration {missing : Problem} {f : Duration × Cursor → Except Halt (α × Cursor)}
    (h : Along s run c)
    (next : ∀ d, c.current.duration? = some d → Along s (run ++ [c.current]) c.advance →
      Ends s P (f (d, c.advance))) :
    Ends s P (c.readDuration missing >>= f) := by
  unfold readDuration
  dsimp only
  split
  · next hk =>
    have hadv := h.advance (by rw [hk]; rfl)
    split
    · next d hd =>
      refine next d ?_ hadv
      rw [Token.duration?, if_pos hk]
      exact hd
    · exact ⟨_, hadv⟩
  · exact ⟨run, h⟩

theorem ends_readAccidental {f : Option Accidental × Cursor → Except Halt (α × Cursor)}
    (h : Along s run c) (absent : c.current.kind ≠ .accidental → Ends s P (f (none, c)))
    (present : ∀ a, c.current.accidental? = some a → Along s (run ++ [c.current]) c.advance →
      Ends s P (f (some a, c.advance))) :
    Ends s P (c.readAccidental >>= f) := by
  unfold readAccidental
  dsimp only
  split
  · next hk =>
    have hadv := h.advance (by rw [hk]; rfl)
    split
    · next a ha =>
      refine present a ?_ hadv
      rw [Token.accidental?, if_pos hk]
      exact ha
    · next ha =>
      refine ⟨⟨_, hadv⟩, c.current, h.current_mem, fun hlex => ?_⟩
      rw [Token.Lexical, hk] at hlex
      obtain ⟨a, ht⟩ := hlex
      rw [onlyChar?_eq_some_iff.2 ht, Option.bind_some, Accidental.ofChar?_eq_some_iff.2 rfl] at ha
      cases ha
  · next hk => exact absent hk

theorem integer?_of_lexical {t : Token} (hk : t.kind = .number) (h : t.Lexical) :
    Text.integer? t.text =
      if t.text.toList.length ≤ Text.maxDigits then some (Text.decimal t.text.toList : Int)
      else none := by
  rw [Token.Lexical, hk] at h
  have := Text.integer?_of_digits h.1 h.2
  rwa [String.ofList_toList] at this

theorem octave?_of_lexical {t : Token} {n : Int} (hk : t.kind = .number)
    (hl : ¬ 1 < t.text.length) (hn : Text.integer? t.text = some n) (h : t.Lexical) :
    t.octave? = some n.toNat := by
  have hint := integer?_of_lexical hk h
  rw [Token.Lexical, hk] at h
  obtain ⟨hne, hdigits⟩ := h
  rw [← String.length_toList] at hl
  -- A text that is neither empty nor longer than one character is a single digit.
  obtain ⟨d, hd⟩ : ∃ d, t.text.toList = [d] := by
    cases hcs : t.text.toList with
    | nil => exact absurd hcs hne
    | cons d ds =>
      rw [hcs, List.length_cons] at hl
      have : ds = [] := List.eq_nil_of_length_eq_zero (by omega)
      exact ⟨d, by rw [this]⟩
  have hshort : [d].length ≤ Text.maxDigits := by simp [Text.maxDigits]
  rw [hd, if_pos hshort, hn] at hint
  cases hint
  exact Token.octave?_eq_some_iff.2 ⟨hk, d, hd, hdigits d (by rw [hd]; simp), rfl⟩

theorem ends_readOctave {afterAccidental : Bool} {f : Nat × Cursor → Except Halt (α × Cursor)}
    (h : Along s run c)
    (next : ∀ n, (c.current.Lexical → c.current.octave? = some n) →
      Along s (run ++ [c.current]) c.advance → Ends s P (f (n, c.advance))) :
    Ends s P (c.readOctave afterAccidental >>= f) := by
  unfold readOctave
  dsimp only
  split
  · next hk =>
    have hadv := h.advance (by rw [hk]; rfl)
    split
    · exact ⟨_, hadv⟩
    · next hl =>
      split
      · next hn =>
        refine ⟨⟨_, hadv⟩, c.current, h.current_mem, fun hlex => ?_⟩
        have hshort : c.current.text.toList.length ≤ Text.maxDigits := by
          rw [String.length_toList]
          exact Nat.le_trans (Nat.le_of_not_lt hl) (by decide)
        rw [integer?_of_lexical hk hlex, if_pos hshort] at hn
        cases hn
      · next n hn =>
        split
        · exact ⟨_, hadv⟩
        · exact next n.toNat (octave?_of_lexical hk hl hn) hadv
  · exact ⟨run, h⟩

end Rules

theorem ends_readNote {c : Cursor} (h : c.HasEnd) (hk : c.current.kind = .note) :
    Ends c (fun run e => Phrase run (.element e)) c.readNote := by
  have hfirst := Along.first h (by rw [hk]; simp)
  unfold readNote
  dsimp only
  split
  · exact ⟨_, hfirst⟩
  · next letter hl =>
    have hletter : c.current.letter? = some letter := by
      rw [Token.letter?, if_pos hk]
      exact hl
    refine ends_readAccidental hfirst (fun _ => ?_) (fun a ha hsign => ?_)
    · refine ends_readOctave hfirst fun o ho hoctave => ?_
      refine ends_readDuration hoctave fun d hd hcode => ?_
      exact ⟨_, hcode, fun hlex => .plainNote hletter (ho (hlex _ (by simp))) hd⟩
    · refine ends_readOctave hsign fun o ho hoctave => ?_
      refine ends_readDuration hoctave fun d hd hcode => ?_
      exact ⟨_, hcode, fun hlex => .alteredNote hletter ha (ho (hlex _ (by simp))) hd⟩

theorem ends_readRest {c : Cursor} (h : c.HasEnd) (hk : c.current.kind = .rest) :
    Ends c (fun run e => Phrase run (.element e)) c.readRest := by
  have hfirst := Along.first h (by rw [hk]; simp)
  unfold readRest
  refine ends_readDuration hfirst fun d hd hcode => ?_
  exact ⟨_, hcode, fun _ => .rest hk hd⟩

theorem ends_readClef {c : Cursor} (h : c.HasEnd) (hk : c.current.isKeyword "clef" = true) :
    Ends c (fun run clef => Phrase run (.clef clef)) c.readClef := by
  have hfirst := Along.first h (by rw [(Token.isKeyword_iff.1 hk).1]; simp)
  unfold readClef
  refine ends_pass hfirst rfl fun hcolon hname => ?_
  dsimp only
  split
  · next hkind =>
    have hadv := hname.advance (by rw [hkind]; rfl)
    split
    · next type ht =>
      refine ⟨_, hadv, fun _ => .clef hk hcolon ?_⟩
      rw [Token.clefType?, if_pos hkind]
      exact ht
    · exact ⟨_, hadv⟩
  · exact ⟨_, hname⟩

private theorem count?_of_timeSignature? {n d : Token} {p : Position} {time : TimeSignature}
    (h : timeSignature? n.text d.text p = some time) (hn : n.kind = .number)
    (hd : d.kind = .number) (hln : n.Lexical) (hld : d.Lexical) :
    n.count? = some time.numerator ∧ d.count? = some time.denominator ∧ time.position = p := by
  simp only [timeSignature?, Option.bind_eq_bind, Option.bind_eq_some_iff,
    Option.ite_none_right_eq_some, Option.pure_def, Option.some.injEq] at h
  obtain ⟨a, ha, b, hb, ⟨hpa, hpb⟩, rfl⟩ := h
  rw [integer?_of_lexical hn hln] at ha
  rw [integer?_of_lexical hd hld] at hb
  split at ha
  · next hshort =>
    split at hb
    · next hshort' =>
      cases ha
      cases hb
      rw [Token.Lexical, hn] at hln
      rw [Token.Lexical, hd] at hld
      exact ⟨Token.count?_eq_some_iff.2 ⟨⟨hn, hln.2, hshort, by omega⟩, rfl⟩,
        Token.count?_eq_some_iff.2 ⟨⟨hd, hld.2, hshort', by omega⟩, rfl⟩, rfl⟩
    · cases hb
  · cases ha

theorem ends_readTime {c : Cursor} (h : c.HasEnd) (hk : c.current.isKeyword "time" = true) :
    Ends c (fun run time => Phrase run (.time time)) c.readTime := by
  have hfirst := Along.first h (by rw [(Token.isKeyword_iff.1 hk).1]; simp)
  unfold readTime
  dsimp only
  refine ends_pass hfirst rfl fun hcolon habove => ?_
  refine ends_pass habove rfl fun hn hslash => ?_
  refine ends_pass hslash rfl fun hs hbelow => ?_
  refine ends_pass hbelow rfl fun hd hnext => ?_
  split
  · next time ht =>
    refine ⟨_, hnext, fun hlex => ?_⟩
    obtain ⟨hcn, hcd, hp⟩ :=
      count?_of_timeSignature? ht hn hd (hlex _ (by simp)) (hlex _ (by simp))
    have := Phrase.time hk hcolon hcn hs hcd
    rw [← hp] at this
    exact this
  · exact ⟨_, hnext⟩

/-! ## Steps -/

/-- What a step can do, and where it leads. -/
inductive Advance (c : Cursor) : Step → Prop
  | item {i : Item} {run : List Token} {next : Cursor} :
      Along c run next → ((∀ t ∈ run, t.Lexical) → Phrase run i) → Advance c (.item i next)
  | stray {d : Diagnostic} {next : Cursor} :
      Along c [c.current] next → c.current.opensItem = false → c.current.kind ≠ .pipe →
      Advance c (.stray d next)
  | failed {d : Diagnostic} {run : List Token} {next : Cursor} :
      Along c run next → c.current.opensItem = true → Advance c (.failed d next)
  | broken {f : TokenFault} {run : List Token} {next : Cursor} {t : Token} :
      Along c run next → t ∈ c.ahead → ¬ t.Lexical → Advance c (.broken f next)

private theorem advance_of_ends {α : Type} {c : Cursor} {toItem : α → Item}
    {x : Except Halt (α × Cursor)} (h : Ends c (fun run a => Phrase run (toItem a)) x)
    (ho : c.current.opensItem = true) : Advance c (Step.ofAttempt toItem x) := by
  unfold Step.ofAttempt
  split
  · obtain ⟨run, halong, hp⟩ := h
    exact .item halong hp
  · obtain ⟨run, halong⟩ := h
    exact .failed halong ho
  · obtain ⟨⟨run, halong⟩, t, ht, hlex⟩ := h
    exact .broken halong ht hlex

/-- Every step from a cursor before the end moves on as `Advance` says. -/
theorem step_cases {c : Cursor} (h : c.HasEnd) (hk : c.current.kind ≠ .eof) :
    Advance c c.step := by
  have hfirst := Along.first h hk
  unfold step
  split
  · next hkind =>
    unfold stepIdentifier
    dsimp only
    split
    · next hword =>
      have hkey : c.current.isKeyword "clef" = true := Token.isKeyword_iff.2 ⟨hkind, hword⟩
      exact advance_of_ends (ends_readClef h hkey) (by simp [Token.opensItem, hkey])
    · next hclef =>
      split
      · next hword =>
        have hkey : c.current.isKeyword "time" = true := Token.isKeyword_iff.2 ⟨hkind, hword⟩
        exact advance_of_ends (ends_readTime h hkey) (by simp [Token.opensItem, hkey])
      · next htime =>
        refine .stray hfirst ?_ (by rw [hkind]; simp)
        simp [Token.opensItem, Token.isKeyword, hkind, hclef, htime]
  · next hkind =>
    exact advance_of_ends (ends_readNote h hkind) (by simp [Token.opensItem, hkind])
  · next hkind =>
    exact advance_of_ends (ends_readRest h hkind) (by simp [Token.opensItem, hkind])
  · next hkind => exact .item hfirst fun _ => .bar hkind
  · next hident hnote hrest hpipe =>
    refine .stray hfirst ?_ hpipe
    have hi : c.current.kind ≠ .identifier := hident
    have hn : c.current.kind ≠ .note := hnote
    have hr : c.current.kind ≠ .rest := hrest
    simp [Token.opensItem, Token.isKeyword, hi, hn, hr]

/-! ## Steps over phrases -/

theorem current_of_ahead {c : Cursor} {t : Token} {ts : List Token} (h : c.ahead = t :: ts) :
    c.current = t :=
  (List.cons.inj h).1

theorem ahead_advance {c : Cursor} {t u : Token} {ts : List Token}
    (h : c.ahead = t :: u :: ts) : c.advance.ahead = u :: ts := by
  obtain ⟨before, current, after⟩ := c
  cases h
  rfl

theorem ahead_advance_of_ne {c : Cursor} {t : Token} {ts : List Token} (h : c.ahead = t :: ts)
    (hne : ts ≠ []) : c.advance.ahead = ts := by
  obtain ⟨u, us, rfl⟩ := List.exists_cons_of_ne_nil hne
  exact ahead_advance h

theorem readDuration_of {c : Cursor} {missing : Problem} {d : Duration}
    (h : c.current.duration? = some d) : c.readDuration missing = .ok (d, c.advance) := by
  have hk := (Token.duration?_eq_some_iff.1 h).1
  rw [Token.duration?, if_pos hk] at h
  have hcode : Duration.ofCode? c.current.text = some d := h
  simp [readDuration, hk, hcode]

theorem readOctave_of {c : Cursor} {afterAccidental : Bool} {n : Nat}
    (h : c.current.octave? = some n) : c.readOctave afterAccidental = .ok (n, c.advance) := by
  obtain ⟨hk, d, ht, hd, rfl⟩ := Token.octave?_eq_some_iff.1 h
  have htext : c.current.text = String.ofList [d] := by rw [← ht, String.ofList_toList]
  have hint : Text.integer? c.current.text = some (Text.decimal [d] : Int) := by
    have hshort : [d].length ≤ Text.maxDigits := by simp [Text.maxDigits]
    rw [htext, Text.integer?_of_digits (by simp) (by simpa using hd), if_pos hshort]
  have hlen : ¬ 1 < c.current.text.length := by simp [htext]
  have hmax : ¬ (maxOctave : Int) < (Text.decimal [d] : Int) := by
    have := (Text.isDigit_iff_toNat d).1 hd
    rw [Text.decimal_singleton, maxOctave]
    omega
  simp [readOctave, hk, hlen, hint, hmax]

theorem readAccidental_of {c : Cursor} {a : Accidental}
    (h : c.current.accidental? = some a) : c.readAccidental = .ok (some a, c.advance) := by
  have hk := (Token.accidental?_eq_some_iff.1 h).1
  rw [Token.accidental?, if_pos hk] at h
  simp [readAccidental, hk, h]

theorem pass_of {c : Cursor} {kind : Kind} {missing : Problem}
    (h : c.current.kind = kind) : c.pass kind missing = .ok c.advance := by
  simp [pass, h]

private theorem timeSignature?_of {n d : Token} {a b : Nat} (hn : n.count? = some a)
    (hd : d.count? = some b) (p : Position) :
    timeSignature? n.text d.text p = some ⟨a, b, p⟩ := by
  have hint : ∀ {t : Token} {k : Nat}, t.count? = some k →
      Text.integer? t.text = some (k : Int) ∧ 0 < k := by
    intro t k h
    obtain ⟨⟨_, hdigits, hshort, hpos⟩, rfl⟩ := Token.count?_eq_some_iff.1 h
    have hne : t.text.toList ≠ [] := by
      intro hnil
      rw [hnil] at hpos
      exact absurd hpos (by decide)
    refine ⟨?_, hpos⟩
    have := Text.integer?_of_digits hne hdigits
    rwa [String.ofList_toList, if_pos hshort] at this
  obtain ⟨hin, hpn⟩ := hint hn
  obtain ⟨hid, hpd⟩ := hint hd
  simp [timeSignature?, hin, hid, hpn, hpd]

private theorem step_of_clef {c : Cursor} {type : ClefType}
    (hk : c.current.isKeyword "clef" = true) (hcolon : c.advance.current.kind = .colon)
    (ht : c.advance.advance.current.clefType? = some type) :
    c.step = .item (.clef ⟨type, c.current.position⟩) c.advance.advance.advance := by
  obtain ⟨hkind, hword⟩ := Token.isKeyword_iff.1 hk
  obtain ⟨htk, htn⟩ := Token.clefType?_eq_some_iff.1 ht
  have hname := ClefType.ofName?_eq_some_iff.2 htn
  have hread : c.readClef = .ok (⟨type, c.current.position⟩, c.advance.advance.advance) := by
    rw [readClef, pass_of hcolon]
    simp [bind, Except.bind, pure, Except.pure, htk, hname]
  simp [step, hkind, stepIdentifier, hword, hread, Step.ofAttempt]

private theorem step_of_time {c : Cursor} {n d : Nat}
    (hk : c.current.isKeyword "time" = true) (hcolon : c.advance.current.kind = .colon)
    (hn : c.advance.advance.current.count? = some n)
    (hs : c.advance.advance.advance.current.kind = .slash)
    (hd : c.advance.advance.advance.advance.current.count? = some d) :
    c.step = .item (.time ⟨n, d, c.current.position⟩)
      c.advance.advance.advance.advance.advance := by
  obtain ⟨hkind, hword⟩ := Token.isKeyword_iff.1 hk
  have hnk := (Token.count?_eq_some_iff.1 hn).1.1
  have hdk := (Token.count?_eq_some_iff.1 hd).1.1
  have hread : c.readTime =
      .ok (⟨n, d, c.current.position⟩, c.advance.advance.advance.advance.advance) := by
    simp [readTime, pass_of, bind, Except.bind, pure, Except.pure, hcolon, hnk, hs, hdk,
      timeSignature?_of hn hd]
  simp [step, hkind, stepIdentifier, hword, hread, Step.ofAttempt]

private theorem step_of_plainNote {c : Cursor} {letter : NoteLetter} {o : Nat} {d : Duration}
    (hl : c.current.letter? = some letter) (ho : c.advance.current.octave? = some o)
    (hd : c.advance.advance.current.duration? = some d) :
    c.step = .item (.element (.note ⟨letter, o, none⟩ d c.current.position))
      c.advance.advance.advance := by
  have hkind := (Token.letter?_eq_some_iff.1 hl).1
  have hok := (Token.octave?_eq_some_iff.1 ho).1
  rw [Token.letter?, if_pos hkind] at hl
  have hsign : c.advance.readAccidental = .ok (none, c.advance) := by simp [readAccidental, hok]
  have hread : c.readNote =
      .ok (.note ⟨letter, o, none⟩ d c.current.position, c.advance.advance.advance) := by
    simp [readNote, hl, hsign, readOctave_of ho, readDuration_of hd, bind, Except.bind, pure,
      Except.pure]
  simp [step, hkind, hread, Step.ofAttempt]

private theorem step_of_alteredNote {c : Cursor} {letter : NoteLetter} {a : Accidental} {o : Nat}
    {d : Duration} (hl : c.current.letter? = some letter)
    (ha : c.advance.current.accidental? = some a)
    (ho : c.advance.advance.current.octave? = some o)
    (hd : c.advance.advance.advance.current.duration? = some d) :
    c.step = .item (.element (.note ⟨letter, o, some a⟩ d c.current.position))
      c.advance.advance.advance.advance := by
  have hkind := (Token.letter?_eq_some_iff.1 hl).1
  rw [Token.letter?, if_pos hkind] at hl
  have hread : c.readNote =
      .ok (.note ⟨letter, o, some a⟩ d c.current.position,
        c.advance.advance.advance.advance) := by
    simp [readNote, hl, readAccidental_of ha, readOctave_of ho, readDuration_of hd, bind,
      Except.bind, pure, Except.pure]
  simp [step, hkind, hread, Step.ofAttempt]

private theorem step_of_rest {c : Cursor} {d : Duration} (hr : c.current.kind = .rest)
    (hd : c.advance.current.duration? = some d) :
    c.step = .item (.element (.rest d c.current.position)) c.advance.advance := by
  simp [step, hr, readRest, readDuration_of hd, bind, Except.bind, pure, Except.pure,
    Step.ofAttempt]

/-- Where a phrase stands at the cursor, with something behind it, a step reads its item. -/
theorem step_of_phrase {c : Cursor} {run rest : List Token} {i : Item} (h : Phrase run i)
    (hc : c.ahead = run ++ rest) (hrest : rest ≠ []) :
    ∃ next, c.step = .item i next ∧ next.ahead = rest := by
  obtain ⟨u, us, rfl⟩ := List.exists_cons_of_ne_nil hrest
  cases h with
  | clef hk hcolon ht =>
    have h₁ := ahead_advance hc
    have h₂ := ahead_advance h₁
    have h₃ := ahead_advance h₂
    rw [← current_of_ahead hc] at hk ⊢
    rw [← current_of_ahead h₁] at hcolon
    rw [← current_of_ahead h₂] at ht
    exact ⟨_, step_of_clef hk hcolon ht, h₃⟩
  | time hk hcolon hn hs hd =>
    have h₁ := ahead_advance hc
    have h₂ := ahead_advance h₁
    have h₃ := ahead_advance h₂
    have h₄ := ahead_advance h₃
    have h₅ := ahead_advance h₄
    rw [← current_of_ahead hc] at hk ⊢
    rw [← current_of_ahead h₁] at hcolon
    rw [← current_of_ahead h₂] at hn
    rw [← current_of_ahead h₃] at hs
    rw [← current_of_ahead h₄] at hd
    exact ⟨_, step_of_time hk hcolon hn hs hd, h₅⟩
  | plainNote hl ho hd =>
    have h₁ := ahead_advance hc
    have h₂ := ahead_advance h₁
    have h₃ := ahead_advance h₂
    rw [← current_of_ahead hc] at hl ⊢
    rw [← current_of_ahead h₁] at ho
    rw [← current_of_ahead h₂] at hd
    exact ⟨_, step_of_plainNote hl ho hd, h₃⟩
  | alteredNote hl ha ho hd =>
    have h₁ := ahead_advance hc
    have h₂ := ahead_advance h₁
    have h₃ := ahead_advance h₂
    have h₄ := ahead_advance h₃
    rw [← current_of_ahead hc] at hl ⊢
    rw [← current_of_ahead h₁] at ha
    rw [← current_of_ahead h₂] at ho
    rw [← current_of_ahead h₃] at hd
    exact ⟨_, step_of_alteredNote hl ha ho hd, h₄⟩
  | rest hr hd =>
    have h₁ := ahead_advance hc
    have h₂ := ahead_advance h₁
    rw [← current_of_ahead hc] at hr ⊢
    rw [← current_of_ahead h₁] at hd
    exact ⟨_, step_of_rest hr hd, h₂⟩
  | bar hb =>
    rw [← current_of_ahead hc] at hb
    exact ⟨c.advance, by simp [step, hb], ahead_advance hc⟩

end Cursor

end ScoreText
