import ScoreText.Proofs.Cursor
import ScoreText.Proofs.Phrase

/-!
Where the parts of a reading come from, whatever the tokens are. An attempt at an item stays on the
tokens of its cursor. The numbers it returns are in range and are written in number tokens, a
problem it meets is shown by one of the tokens, at the place of that token, and it breaks off only
at a token whose text cannot be converted. A postcondition with a
rule for each reader says so (`Yields`), and then it holds for steps (`yields_step`).
-/

namespace ScoreText

/-- A text of one character is no negative number: there is no room for a sign. -/
theorem Text.integer?_nonneg {s : String} {n : Int} (h : s.length ≤ 1)
    (hn : Text.integer? s = some n) : 0 ≤ n := by
  have hnatural (cs : List Char)
      (hcs : ((Text.natural? cs >>= fun k => pure (k : Int)).map fun k => k) = some n) : 0 ≤ n := by
    simp only [Option.bind_eq_bind, Option.pure_def, Option.map_eq_some_iff,
      Option.bind_eq_some_iff, Option.some.injEq] at hcs
    obtain ⟨_, ⟨k, -, rfl⟩, rfl⟩ := hcs
    omega
  unfold Text.integer? at hn
  generalize hcs : ((s.toList.dropWhile Text.isNumberBlank).reverse.dropWhile
    Text.isNumberBlank).reverse = cs at hn
  have hlen : cs.length ≤ 1 := by
    have hleft := (List.dropWhile_suffix (l := s.toList) Text.isNumberBlank).length_le
    have hright := (List.dropWhile_suffix
      (l := (s.toList.dropWhile Text.isNumberBlank).reverse) Text.isNumberBlank).length_le
    rw [List.length_reverse] at hright
    rw [← hcs, List.length_reverse]
    rw [← String.length_toList] at h
    omega
  unfold Text.signed? at hn
  split at hn
  · next rest =>
    obtain rfl : rest = [] := by
      rw [List.length_cons] at hlen
      exact List.eq_nil_of_length_eq_zero (by omega)
    cases hn
  · exact hnatural _ hn
  · exact hnatural _ hn

def Diagnostic.ShownBy (tokens : List Token) (d : Diagnostic) : Prop :=
  ∃ t ∈ tokens, d.token = some t ∧ d.position = t.position

def WrittenIn (tokens : List Token) (n : Nat) : Prop :=
  ∃ t ∈ tokens, t.kind = .number ∧ Text.integer? t.text = some (n : Int)

/-- One of the tokens has a text that cannot be converted: an accidental that is none of the signs,
or a number that cannot be read. -/
def TokenFault.RaisedBy (tokens : List Token) : TokenFault → Prop
  | .accidental text => ∃ t ∈ tokens, t.kind = .accidental ∧ t.text = text ∧
    ∀ a : Accidental, text.toList ≠ [a.char]
  | .number text => ∃ t ∈ tokens, t.kind = .number ∧ t.text = text ∧ Text.integer? text = none
  | .endless => False

def Item.InRange (tokens : List Token) : Item → Prop
  | .element (.note pitch _ _) => pitch.octave ≤ maxOctave ∧ WrittenIn tokens pitch.octave
  | .time t => (1 ≤ t.numerator ∧ WrittenIn tokens t.numerator) ∧
    1 ≤ t.denominator ∧ WrittenIn tokens t.denominator
  | .element (.rest _ _) | .clef _ | .bar => True

namespace Cursor

theorem tokens_resumeFrom (before : List Token) (t : Token) (after : List Token) :
    (resumeFrom before t after).tokens = before.reverse ++ t :: after := by
  induction after generalizing before t with
  | nil => rfl
  | cons u rest ih =>
    unfold resumeFrom
    split
    · rfl
    · split
      · simp [tokens]
      · rw [ih, List.reverse_cons, List.append_assoc, List.singleton_append]

theorem tokens_recover (c : Cursor) : c.recover.tokens = c.tokens :=
  tokens_resumeFrom _ _ _

/-- An attempt at an item ends on the same tokens: with a value that has the property `P`, with a
problem that one of the tokens shows, or with a text that cannot be converted. -/
def Yields {α : Type} (tokens : List Token) (P : α → Prop) : Except Halt (α × Cursor) → Prop
  | .ok (a, next) => P a ∧ next.tokens = tokens
  | .error (.problem d next) => d.ShownBy tokens ∧ next.tokens = tokens
  | .error (.fault f next) => f.RaisedBy tokens ∧ next.tokens = tokens

section Rules

variable {α : Type} {tokens : List Token} {c : Cursor} {P : α → Prop}

theorem shownBy_atToken (h : c.tokens = tokens) (problem : Problem) :
    (Diagnostic.atToken problem c.current).ShownBy tokens :=
  ⟨c.current, h ▸ c.current_mem_tokens, rfl, rfl⟩

theorem yields_pass {kind : Kind} {missing : Problem} {f : Cursor → Except Halt (α × Cursor)}
    (h : c.tokens = tokens)
    (next : c.current.kind = kind → c.advance.tokens = tokens → Yields tokens P (f c.advance)) :
    Yields tokens P (c.pass kind missing >>= f) := by
  have hadv := c.tokens_advance.trans h
  unfold pass
  split
  · next hk => exact next hk hadv
  · exact ⟨shownBy_atToken h _, h⟩

theorem yields_readDuration {missing : Problem} {f : Duration × Cursor → Except Halt (α × Cursor)}
    (h : c.tokens = tokens)
    (next : ∀ d, c.advance.tokens = tokens → Yields tokens P (f (d, c.advance))) :
    Yields tokens P (c.readDuration missing >>= f) := by
  have hadv := c.tokens_advance.trans h
  unfold readDuration
  dsimp only
  split
  · split
    · next d _ => exact next d hadv
    · exact ⟨shownBy_atToken h _, hadv⟩
  · exact ⟨shownBy_atToken h _, h⟩

theorem yields_readAccidental {f : Option Accidental × Cursor → Except Halt (α × Cursor)}
    (h : c.tokens = tokens)
    (next : ∀ a d, d.tokens = tokens → Yields tokens P (f (a, d))) :
    Yields tokens P (c.readAccidental >>= f) := by
  have hadv := c.tokens_advance.trans h
  unfold readAccidental
  dsimp only
  split
  · next hk =>
    split
    · next a _ => exact next (some a) c.advance hadv
    · next hnone =>
      refine ⟨⟨c.current, h ▸ c.current_mem_tokens, hk, rfl, fun a ha => ?_⟩, hadv⟩
      have hsign := Accidental.ofChar?_eq_some_iff.2 (rfl : a.char = a.char)
      rw [onlyChar?_eq_some_iff.2 ha, Option.bind_some, hsign] at hnone
      cases hnone
  · exact next none c h

theorem yields_readOctave {afterAccidental : Bool} {f : Nat × Cursor → Except Halt (α × Cursor)}
    (h : c.tokens = tokens)
    (next : ∀ n, n ≤ maxOctave → WrittenIn tokens n → c.advance.tokens = tokens →
      Yields tokens P (f (n, c.advance))) :
    Yields tokens P (c.readOctave afterAccidental >>= f) := by
  have hadv := c.tokens_advance.trans h
  unfold readOctave
  dsimp only
  split
  · next hk =>
    split
    · exact ⟨shownBy_atToken h _, hadv⟩
    · next hshort =>
      split
      · next hnone => exact ⟨⟨c.current, h ▸ c.current_mem_tokens, hk, rfl, hnone⟩, hadv⟩
      · next n hn =>
        split
        · exact ⟨shownBy_atToken h _, hadv⟩
        · next hmax =>
          have hpos := Text.integer?_nonneg (by omega) hn
          have hwritten : Text.integer? c.current.text = some (n.toNat : Int) := by
            rw [hn, Int.toNat_of_nonneg hpos]
          exact next n.toNat (by omega) ⟨c.current, h ▸ c.current_mem_tokens, hk, hwritten⟩ hadv
  · exact ⟨shownBy_atToken h _, h⟩

end Rules

section Items

variable {tokens : List Token} {c : Cursor}

theorem yields_readNote (h : c.tokens = tokens) :
    Yields tokens (fun e => (Item.element e).InRange tokens) c.readNote := by
  have hfirst := c.tokens_advance.trans h
  unfold readNote
  dsimp only
  split
  · exact ⟨shownBy_atToken h _, hfirst⟩
  · refine yields_readAccidental hfirst fun a d hsign => ?_
    refine yields_readOctave hsign fun n hn hwritten hoctave => ?_
    refine yields_readDuration hoctave fun duration hcode => ?_
    exact ⟨⟨hn, hwritten⟩, hcode⟩

theorem yields_readRest (h : c.tokens = tokens) :
    Yields tokens (fun e => (Item.element e).InRange tokens) c.readRest := by
  unfold readRest
  refine yields_readDuration (c.tokens_advance.trans h) fun duration hcode => ?_
  exact ⟨trivial, hcode⟩

theorem yields_readClef (h : c.tokens = tokens) :
    Yields tokens (fun clef => (Item.clef clef).InRange tokens) c.readClef := by
  unfold readClef
  refine yields_pass (c.tokens_advance.trans h) fun _ hname => ?_
  have hadv := c.advance.advance.tokens_advance.trans hname
  dsimp only
  split
  · split
    · exact ⟨trivial, hadv⟩
    · exact ⟨shownBy_atToken hname _, hadv⟩
  · exact ⟨shownBy_atToken hname _, hname⟩

private theorem writtenIn_of_timeSignature? {n d : Token} {p : Position} {time : TimeSignature}
    (h : timeSignature? n.text d.text p = some time) (hn : n ∈ tokens) (hd : d ∈ tokens)
    (hnk : n.kind = .number) (hdk : d.kind = .number) : (Item.time time).InRange tokens := by
  simp only [timeSignature?, Option.bind_eq_bind, Option.bind_eq_some_iff,
    Option.ite_none_right_eq_some, Option.pure_def, Option.some.injEq] at h
  obtain ⟨a, ha, b, hb, ⟨hpa, hpb⟩, rfl⟩ := h
  rw [← Int.toNat_of_nonneg (Int.le_of_lt hpa)] at ha
  rw [← Int.toNat_of_nonneg (Int.le_of_lt hpb)] at hb
  refine ⟨⟨?_, n, hn, hnk, ha⟩, ?_, d, hd, hdk, hb⟩
  · dsimp only
    omega
  · dsimp only
    omega

theorem yields_readTime (h : c.tokens = tokens) :
    Yields tokens (fun time => (Item.time time).InRange tokens) c.readTime := by
  unfold readTime
  dsimp only
  refine yields_pass (c.tokens_advance.trans h) fun _ habove => ?_
  refine yields_pass habove fun hn hslash => ?_
  refine yields_pass hslash fun _ hbelow => ?_
  refine yields_pass hbelow fun hd hnext => ?_
  split
  · next time ht =>
    refine ⟨writtenIn_of_timeSignature? ht ?_ ?_ hn hd, hnext⟩
    · exact habove ▸ current_mem_tokens _
    · exact hbelow ▸ current_mem_tokens _
  · exact ⟨shownBy_atToken h _, hnext⟩

end Items

/-- A step ends on the same tokens, with an item in range, with a problem that one of the tokens
shows, or with a text that cannot be converted. -/
def YieldsStep (tokens : List Token) : Step → Prop
  | .item i next => i.InRange tokens ∧ next.tokens = tokens
  | .stray d next | .failed d next => d.ShownBy tokens ∧ next.tokens = tokens
  | .broken f next => f.RaisedBy tokens ∧ next.tokens = tokens

private theorem yieldsStep_ofAttempt {α : Type} {tokens : List Token} {toItem : α → Item}
    {x : Except Halt (α × Cursor)} (h : Yields tokens (fun a => (toItem a).InRange tokens) x) :
    YieldsStep tokens (.ofAttempt toItem x) := by
  unfold Step.ofAttempt
  split
  · exact h
  · exact h
  · exact h

/-- Every step yields what its tokens say. -/
theorem yields_step (c : Cursor) : YieldsStep c.tokens c.step := by
  have hskip (problem : Problem) : YieldsStep c.tokens (c.skip problem) :=
    ⟨shownBy_atToken rfl problem, c.tokens_advance⟩
  unfold step
  split
  · unfold stepIdentifier
    dsimp only
    split
    · exact yieldsStep_ofAttempt (yields_readClef rfl)
    · split
      · exact yieldsStep_ofAttempt (yields_readTime rfl)
      · exact hskip _
  · exact yieldsStep_ofAttempt (yields_readNote rfl)
  · exact yieldsStep_ofAttempt (yields_readRest rfl)
  · exact ⟨trivial, c.tokens_advance⟩
  · exact hskip _

end Cursor

/-! ## The tokens of a list -/

theorem mem_tokens_ofTokens {tokens : List Token} {t : Token}
    (h : t ∈ (Cursor.ofTokens tokens).tokens) :
    t ∈ tokens ∧ t.kind.isTrivia = false ∨
      (∀ u ∈ tokens, u.kind.isTrivia = true) ∧ t = .endAt .nowhere := by
  unfold Cursor.ofTokens at h
  split at h
  · next hnil =>
    right
    rw [List.filter_eq_nil_iff] at hnil
    exact ⟨by simpa using hnil, by simpa [Cursor.tokens] using h⟩
  · next u rest heq =>
    left
    have hmem : t ∈ tokens.filter (!·.kind.isTrivia) := by
      rw [heq]
      exact h
    simpa using hmem

private theorem mem_of_kind_ne_eof {tokens : List Token} {t : Token}
    (h : t ∈ (Cursor.ofTokens tokens).tokens) (hk : t.kind ≠ .eof) : t ∈ tokens := by
  rcases mem_tokens_ofTokens h with ⟨hmem, -⟩ | ⟨-, rfl⟩
  · exact hmem
  · exact absurd rfl hk

theorem writtenIn_ofTokens {tokens : List Token} {n : Nat}
    (h : WrittenIn (Cursor.ofTokens tokens).tokens n) : WrittenIn tokens n := by
  obtain ⟨t, ht, hk, hn⟩ := h
  exact ⟨t, mem_of_kind_ne_eof ht (by rw [hk]; simp), hk, hn⟩

theorem raisedBy_ofTokens {tokens : List Token} {fault : TokenFault}
    (h : fault.RaisedBy (Cursor.ofTokens tokens).tokens) : fault.RaisedBy tokens := by
  cases fault with
  | accidental text =>
    obtain ⟨t, ht, hk, hrest⟩ := h
    exact ⟨t, mem_of_kind_ne_eof ht (by rw [hk]; simp), hk, hrest⟩
  | number text =>
    obtain ⟨t, ht, hk, hrest⟩ := h
    exact ⟨t, mem_of_kind_ne_eof ht (by rw [hk]; simp), hk, hrest⟩
  | endless => exact h

end ScoreText
