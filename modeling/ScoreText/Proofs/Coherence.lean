import ScoreText.Proofs.Acceptance
import ScoreText.Proofs.Chunks
import ScoreText.Proofs.Problems
import ScoreText.Proofs.Recovery

/-!
What every result of parsing is like. Parsing never breaks off, whatever is offered as notation
(`parse_coherent`). A result is a success exactly when it has no diagnostics, and there are never
more of them than the limit allows. Some forms of messages are kept for token lists from elsewhere
(`UnreachableMessage`); no text leads to them. A number with too many digits is always noticed: as
long as the limit is not reached, the reading tries every token that opens an item
(`Cursor.tried_of_opensItem`), and says so where such a number stands in the place of an octave or
in a time signature.
-/

namespace ScoreText

/-! ## Messages -/

/-- The forms of messages that tokens from a lexer do not lead to. -/
inductive UnreachableMessage : String → Prop
  | duration (text : String) : UnreachableMessage ("Invalid duration: " ++ text)
  | clefType (name : String) : UnreachableMessage ("Invalid clef type: " ++ name)
  | parsing (reason : String) : UnreachableMessage ("Parsing failed: " ++ reason)
  | token {kind : Kind} : kind ∈ [Kind.whitespace, .newline, .unknown, .eof] →
      UnreachableMessage ("Unexpected token: " ++ kind.name)

def Problem.isUnreachable : Problem → Bool
  | .invalidDuration _ | .invalidClefType _ | .reported _ _ => true
  | .unexpectedToken kind => kind ∈ [Kind.whitespace, .newline, .unknown, .eof]
  | _ => false

/-- How a message begins. Twelve characters tell the forms of messages apart. -/
private def opening (message : String) : List Char := message.toList.take 12

private def unreachableOpenings : List (List Char) :=
  ["Invalid duration: ", "Invalid clef type: ", "Parsing failed: ", "Unexpected token: "].map
    opening

private theorem opening_append {head : String} (h : 12 ≤ head.toList.length) (text : String) :
    opening (head ++ text) = opening head := by
  rw [opening, String.toList_append, List.take_append_of_le_length h, opening]

private theorem opening_mem {message : String} (h : UnreachableMessage message) :
    opening message ∈ unreachableOpenings := by
  cases h with
  | duration text =>
    rw [opening_append (by decide)]
    decide
  | clefType name =>
    rw [opening_append (by decide)]
    decide
  | parsing reason =>
    rw [opening_append (by decide)]
    decide
  | token hk =>
    rw [opening_append (by decide)]
    decide

private theorem reachable_of_opening {message : String}
    (h : opening message ∉ unreachableOpenings) : ¬ UnreachableMessage message :=
  fun hu => h (opening_mem hu)

private theorem reachable_append {head : String} (hlong : 12 ≤ head.toList.length)
    (h : opening head ∉ unreachableOpenings) (text : String) :
    ¬ UnreachableMessage (head ++ text) :=
  reachable_of_opening (by rwa [opening_append hlong])

private theorem append_ne {a b : String} (ha : 12 ≤ a.toList.length) (hb : 12 ≤ b.toList.length)
    (hne : opening a ≠ opening b) (s t : String) : a ++ s ≠ b ++ t := by
  intro h
  apply hne
  rw [← opening_append ha s, h, opening_append hb]

theorem Kind.name_injective {k l : Kind} (h : k.name = l.name) : k = l := by
  revert h
  cases k <;> cases l <;> decide

private theorem mem_of_unreachable {kind : Kind}
    (h : UnreachableMessage ("Unexpected token: " ++ kind.name)) :
    kind ∈ [Kind.whitespace, .newline, .unknown, .eof] := by
  generalize hm : "Unexpected token: " ++ kind.name = message at h
  cases h with
  | duration text => exact absurd hm (append_ne (by decide) (by decide) (by decide) _ _)
  | clefType name => exact absurd hm (append_ne (by decide) (by decide) (by decide) _ _)
  | parsing reason => exact absurd hm (append_ne (by decide) (by decide) (by decide) _ _)
  | token hl =>
    rw [Kind.name_injective ((String.append_right_inj _).1 hm)]
    exact hl

/-- Only these problems have such messages. -/
theorem isUnreachable_of_message {p : Problem} (h : UnreachableMessage p.message) :
    p.isUnreachable = true := by
  cases p with
  | invalidDuration text => rfl
  | invalidClefType name => rfl
  | reported message expected => rfl
  | unexpectedToken kind => exact decide_eq_true (mem_of_unreachable h)
  | strayCharacter c =>
    have h : UnreachableMessage ("Unexpected character: '" ++ String.singleton c ++ "'") := h
    rw [String.append_assoc] at h
    exact absurd h (reachable_append (by decide) (by decide) _)
  | invalidTimeSignature n d =>
    have h : UnreachableMessage ("Invalid time signature: " ++ n ++ "/" ++ d) := h
    rw [String.append_assoc, String.append_assoc] at h
    exact absurd h (reachable_append (by decide) (by decide) _)
  | unknownIdentifier text => exact absurd h (reachable_append (by decide) (by decide) _)
  | invalidNoteName name => exact absurd h (reachable_append (by decide) (by decide) _)
  | invalidOctave text => exact absurd h (reachable_append (by decide) (by decide) _)
  | rejectedInput fault => exact absurd h (reachable_append (by decide) (by decide) _)
  | missingOctave afterAccidental =>
    cases afterAccidental <;> exact absurd h (reachable_of_opening (by decide))
  | missingNoteDuration => exact absurd h (reachable_of_opening (by decide))
  | missingRestDuration => exact absurd h (reachable_of_opening (by decide))
  | missingClefColon => exact absurd h (reachable_of_opening (by decide))
  | missingClefType => exact absurd h (reachable_of_opening (by decide))
  | missingTimeColon => exact absurd h (reachable_of_opening (by decide))
  | missingNumerator => exact absurd h (reachable_of_opening (by decide))
  | missingSlash => exact absurd h (reachable_of_opening (by decide))
  | missingDenominator => exact absurd h (reachable_of_opening (by decide))

/-- Nothing that a reading complains about is out of reach. -/
theorem Complaint.not_isUnreachable {tokens : List Token} {d : Diagnostic}
    (h : Complaint tokens d) : d.problem.isUnreachable = false := by
  cases h with
  | @misplaced t rest hk =>
    show decide (t.kind ∈ [Kind.whitespace, .newline, .unknown, .eof]) = false
    cases hkind : t.kind <;> simp [hkind, Kind.isInner] at hk ⊢
  | _ => rfl

/-! ## Tokens that open an item -/

namespace Cursor

private theorem suffix_resumeFrom_of_starts (before : List Token) (t : Token)
    (after : List Token) {u : Token} {us : List Token} (hu : u.kind.startsElement = true)
    (hs : u :: us <:+ t :: after) : u :: us <:+ (resumeFrom before t after).ahead := by
  induction after generalizing before t with
  | nil => exact hs
  | cons v rest ih =>
    unfold resumeFrom
    split
    · exact hs
    · next hgo =>
      have hrest : u :: us <:+ v :: rest := by
        rcases List.suffix_cons_iff.1 hs with he | hs
        · cases he
          exact absurd (.inr hu) hgo
        · exact hs
      split
      · exact hrest
      · exact ih _ _ hrest

/-- Skipping ahead passes over no token that starts an item. -/
theorem suffix_recover_of_starts {c : Cursor} {u : Token} {us : List Token}
    (hu : u.kind.startsElement = true) (hs : u :: us <:+ c.ahead) :
    u :: us <:+ c.recover.ahead :=
  suffix_resumeFrom_of_starts _ _ _ hu hs

/-- A token that opens an item is the first that a step reads, or still ahead. -/
theorem Along.suffix_of_opensItem {s c : Cursor} {run : List Token} (ha : Along s run c)
    {t : Token} {rest : List Token} (ho : t.opensItem = true) (hs : t :: rest <:+ s.ahead) :
    t :: rest = s.ahead ∨ t :: rest <:+ c.ahead := by
  have hinner : ∀ inner : List Token, (∀ u ∈ inner, u.kind.isInner = true) →
      t :: rest <:+ inner ++ c.ahead → t :: rest <:+ c.ahead := by
    intro inner hi h
    induction inner with
    | nil => exact h
    | cons u inner ih =>
      rcases List.suffix_cons_iff.1 h with he | h
      · obtain rfl : t = u := (List.cons.inj he).1
        have hstart := startsElement_of_opensItem ho
        rw [(startsElement_of_isInner (hi t List.mem_cons_self)).1] at hstart
        cases hstart
      · exact ih (fun v hv => hi v (List.mem_cons_of_mem _ hv)) h
  have hahead : s.ahead = s.current :: (run.tail ++ c.ahead) := by
    rw [← List.cons_append, ← ha.eq_cons, ← ha.ahead]
  rw [hahead] at hs ⊢
  rcases List.suffix_cons_iff.1 hs with he | hs
  · exact .inl he
  · exact .inr (hinner _ ha.inner hs)

/-- As long as the limit is not reached, a step is made from every token that opens an item, and
the problem it meets is shown. -/
theorem tried_of_opensItem {c : Cursor} {limit : Nat} (h : c.HasEnd)
    (hlex : ∀ t ∈ c.ahead, t.Lexical) (honce : EndsOnce c.ahead)
    (hfew : ((c.events limit).filterMap Event.diagnostic?).length < limit) {t : Token}
    {rest : List Token} (ho : t.opensItem = true) (hsuffix : t :: rest <:+ c.ahead) :
    ∃ s : Cursor, s.ahead = t :: rest ∧ ∀ d next, s.step = .failed d next →
      d ∈ (c.events limit).filterMap Event.diagnostic? := by
  induction limit, c, h using events_induction with
  | stop c h => exact absurd hfew (Nat.not_lt_zero _)
  | atEnd limit c h hk =>
    rw [ahead_of_eof honce hk] at hsuffix
    have ht : t ∈ [c.current] := hsuffix.subset List.mem_cons_self
    rw [List.mem_singleton.1 ht] at ho
    simp [Token.opensItem, Token.isKeyword, hk] at ho
  | item limit c h run i next ha hp hs he ih =>
    rw [he] at hfew ⊢
    rcases ha.suffix_of_opensItem ho hsuffix with hhere | hnext
    · refine ⟨c, hhere.symm, fun d s hfailed => ?_⟩
      rw [hs] at hfailed
      cases hfailed
    · exact ih (ha.lexical hlex).2 (endsOnce_of_along ha honce) hfew hnext
  | stray limit c h e next ha hstray hpipe hs he ih =>
    rw [he] at hfew ⊢
    rcases ha.suffix_of_opensItem ho hsuffix with hhere | hnext
    · have ht := current_of_ahead hhere.symm
      rw [ht, ho] at hstray
      cases hstray
    · obtain ⟨s, hs, hshown⟩ := ih (ha.lexical hlex).2 (endsOnce_of_along ha honce)
        (Nat.lt_of_succ_lt_succ hfew) hnext
      exact ⟨s, hs, fun d next hd => List.mem_cons_of_mem _ (hshown d next hd)⟩
  | failed limit c h run e next ha hopen hs he ih =>
    rw [he] at hfew ⊢
    rcases ha.suffix_of_opensItem ho hsuffix with hhere | hnext
    · refine ⟨c, hhere.symm, fun d s hfailed => ?_⟩
      rw [hs] at hfailed
      cases hfailed
      exact List.mem_cons_self
    · have hrecover := suffix_recover next
      obtain ⟨s, hs, hshown⟩ :=
        ih (fun u hu => (ha.lexical hlex).2 u (hrecover.subset hu))
          (List.Pairwise.sublist hrecover.sublist (endsOnce_of_along ha honce))
          (Nat.lt_of_succ_lt_succ hfew)
          (suffix_recover_of_starts (startsElement_of_opensItem ho) hnext)
      exact ⟨s, hs, fun d next hd => List.mem_cons_of_mem _ (hshown d next hd)⟩
  | broken limit c h f u hu hnot hs he => exact absurd (hlex u hu) hnot

/-! ## Numbers with too many digits -/

theorem step_of_invalidTime {c : Cursor} {keyword colon above slash below : Token}
    {rest : List Token} (hc : c.ahead = keyword :: colon :: above :: slash :: below :: rest)
    (hk : keyword.isKeyword "time" = true) (hcolon : colon.kind = .colon)
    (habove : above.kind = .number) (hslash : slash.kind = .slash)
    (hbelow : below.kind = .number)
    (hnone : timeSignature? above.text below.text keyword.position = none) :
    ∃ next, c.step =
        .failed (.atToken (.invalidTimeSignature above.text below.text) keyword) next ∧
      (rest ≠ [] → next.ahead = rest) := by
  have h₁ := ahead_advance hc
  have h₂ := ahead_advance h₁
  have h₃ := ahead_advance h₂
  have h₄ := ahead_advance h₃
  rw [← current_of_ahead hc] at hk hnone ⊢
  rw [← current_of_ahead h₁] at hcolon
  rw [← current_of_ahead h₂] at habove hnone ⊢
  rw [← current_of_ahead h₃] at hslash
  rw [← current_of_ahead h₄] at hbelow hnone ⊢
  obtain ⟨hkind, hword⟩ := Token.isKeyword_iff.1 hk
  refine ⟨c.advance.advance.advance.advance.advance, ?_, ahead_advance_of_ne h₄⟩
  simp [step, hkind, stepIdentifier, hword, readTime, pass_of, hcolon, habove, hslash, hbelow,
    hnone, bind, Except.bind, throw, throwThe, MonadExceptOf.throw, Step.ofAttempt]

theorem step_of_longOctave {c : Cursor} {head : List Token} {altered : Bool} {number : Token}
    {rest : List Token} (hc : c.ahead = head ++ number :: rest) (hhead : NoteHead head altered)
    (hk : number.kind = .number) (hlong : 1 < number.text.length) :
    ∃ next, c.step = .failed (.atToken (.invalidOctave number.text) number) next ∧
      (rest ≠ [] → next.ahead = rest) := by
  cases hhead with
  | plain hl =>
    have h₁ := ahead_advance hc
    rw [← current_of_ahead hc] at hl
    rw [← current_of_ahead h₁] at hk hlong ⊢
    have hkind := (Token.letter?_eq_some_iff.1 hl).1
    rw [Token.letter?, if_pos hkind] at hl
    have hsign : c.advance.readAccidental = .ok (none, c.advance) := by simp [readAccidental, hk]
    refine ⟨c.advance.advance, ?_, ahead_advance_of_ne h₁⟩
    simp [step, hkind, readNote, hl, hsign, readOctave, hk, hlong, bind, Except.bind,
      Step.ofAttempt]
  | altered hl hsign =>
    have h₁ := ahead_advance hc
    have h₂ := ahead_advance h₁
    rw [← current_of_ahead hc] at hl
    rw [← current_of_ahead h₁] at hsign
    rw [← current_of_ahead h₂] at hk hlong ⊢
    have hkind := (Token.letter?_eq_some_iff.1 hl).1
    rw [Token.letter?, if_pos hkind] at hl
    refine ⟨c.advance.advance.advance, ?_, ahead_advance_of_ne h₂⟩
    simp [step, hkind, readNote, hl, readAccidental_of hsign, readOctave, hk, hlong, bind,
      Except.bind, Step.ofAttempt]

end Cursor

/-- A number with more digits than can be converted. -/
def Token.IsOverlong (t : Token) : Prop := t.kind = .number ∧ Text.maxDigits < t.text.length

theorem Phrase.not_isOverlong {run : List Token} {i : Item} (h : Phrase run i) :
    ∀ t ∈ run, ¬ t.IsOverlong := by
  have hcount {t : Token} {n : Nat} (ht : t.count? = some n) : ¬ t.IsOverlong := by
    rintro ⟨-, hlong⟩
    have hshort := (Token.count?_eq_some_iff.1 ht).1.2.2.1
    rw [String.length_toList] at hshort
    omega
  have hoctave {t : Token} {n : Nat} (ht : t.octave? = some n) : ¬ t.IsOverlong := by
    rintro ⟨-, hlong⟩
    obtain ⟨-, c, htext, -⟩ := Token.octave?_eq_some_iff.1 ht
    rw [← String.length_toList, htext, List.length_singleton] at hlong
    exact absurd hlong (by decide)
  have hother {t : Token} {k : Kind} (ht : t.kind = k) (hk : k ≠ .number) : ¬ t.IsOverlong :=
    fun ho => hk (ht.symm.trans ho.1)
  cases h with
  | clef hk hc ht =>
    have hword := (Token.isKeyword_iff.1 hk).1
    have hname := (Token.clefType?_eq_some_iff.1 ht).1
    simp [hother hword, hother hc, hother hname]
  | time hk hc hn hs hd =>
    have hword := (Token.isKeyword_iff.1 hk).1
    simp [hother hword, hother hc, hcount hn, hother hs, hcount hd]
  | plainNote hl ho hd =>
    have hname := (Token.letter?_eq_some_iff.1 hl).1
    have hcode := (Token.duration?_eq_some_iff.1 hd).1
    simp [hother hname, hoctave ho, hother hcode]
  | alteredNote hl ha ho hd =>
    have hname := (Token.letter?_eq_some_iff.1 hl).1
    have hsign := (Token.accidental?_eq_some_iff.1 ha).1
    have hcode := (Token.duration?_eq_some_iff.1 hd).1
    simp [hother hname, hother hsign, hoctave ho, hother hcode]
  | rest hr hd =>
    have hcode := (Token.duration?_eq_some_iff.1 hd).1
    simp [hother hr, hother hcode]
  | bar hb => simp [hother hb]

theorem Sentence.not_isOverlong {tokens : List Token} {items : List Item}
    (h : Sentence tokens items) : ∀ t ∈ tokens, ¬ t.IsOverlong := by
  induction h with
  | nil => simp
  | cons hp _ ih =>
    intro t ht
    rcases List.mem_append.1 ht with ht | ht
    · exact hp.not_isOverlong t ht
    · exact ih t ht

theorem timeSignature?_of_isOverlong {n d : Token} (hn : n.Lexical) (hd : d.Lexical)
    (hlong : n.IsOverlong ∨ d.IsOverlong) (p : Position) :
    Cursor.timeSignature? n.text d.text p = none := by
  unfold Cursor.timeSignature?
  rcases hlong with ⟨hk, hlong⟩ | ⟨hk, hlong⟩
  · rw [Token.integer_of_overlong hk hlong hn]
    rfl
  · rw [Token.integer_of_overlong hk hlong hd]
    cases Text.integer? n.text with
    | none => rfl
    | some n => rfl

/-- Where an overlong number stands in a time signature or in the place of an octave, `shown` has
the diagnostic that says so. -/
structure ReportsOverlong (tokens : List Token) (shown : List Diagnostic) : Prop where
  time : ∀ keyword colon above slash below rest,
    keyword :: colon :: above :: slash :: below :: rest <:+ tokens →
    keyword.isKeyword "time" = true → colon.kind = .colon → above.kind = .number →
    slash.kind = .slash → below.kind = .number → above.IsOverlong ∨ below.IsOverlong →
    .atToken (.invalidTimeSignature above.text below.text) keyword ∈ shown
  octave : ∀ head altered number rest, head ++ number :: rest <:+ tokens →
    NoteHead head altered → number.IsOverlong →
    .atToken (.invalidOctave number.text) number ∈ shown

theorem ReportsOverlong.mono {tokens : List Token} {shown more : List Diagnostic}
    (h : ReportsOverlong tokens shown) (hsub : shown ⊆ more) : ReportsOverlong tokens more where
  time keyword colon above slash below rest hs hk hcolon habove hslash hbelow hlong :=
    hsub (h.time keyword colon above slash below rest hs hk hcolon habove hslash hbelow hlong)
  octave head altered number rest hs hhead hlong :=
    hsub (h.octave head altered number rest hs hhead hlong)

theorem reportsOverlong_events (text : String) (limit : Nat)
    (hfew : (((textCursor text).events limit).filterMap Event.diagnostic?).length < limit) :
    ReportsOverlong (significantTokens text)
      (((textCursor text).events limit).filterMap Event.diagnostic?) := by
  have hlex := lexical_textCursor text
  have honce := endsOnce_significantTokens text
  rw [← ahead_textCursor] at honce ⊢
  have htried {t : Token} {rest : List Token} (ho : t.opensItem = true)
      (hs : t :: rest <:+ (textCursor text).ahead) :=
    Cursor.tried_of_opensItem (hasEnd_textCursor text) hlex honce hfew ho hs
  constructor
  · intro keyword colon above slash below rest hs hk hcolon habove hslash hbelow hlong
    obtain ⟨c, hc, hshown⟩ := htried (by simp [Token.opensItem, hk]) hs
    have hnone := timeSignature?_of_isOverlong (hlex above (hs.subset (by simp)))
      (hlex below (hs.subset (by simp))) hlong keyword.position
    obtain ⟨next, hstep, -⟩ := Cursor.step_of_invalidTime hc hk hcolon habove hslash hbelow hnone
    exact hshown _ _ hstep
  · intro head altered number rest hs hhead hlong
    have hopen : ∃ t ts, head ++ number :: rest = t :: ts ∧ t.opensItem = true := by
      cases hhead with
      | plain hl =>
        exact ⟨_, _, rfl, by simp [Token.opensItem, (Token.letter?_eq_some_iff.1 hl).1]⟩
      | altered hl _ =>
        exact ⟨_, _, rfl, by simp [Token.opensItem, (Token.letter?_eq_some_iff.1 hl).1]⟩
    obtain ⟨t, ts, he, ho⟩ := hopen
    obtain ⟨c, hc, hshown⟩ := htried ho (he ▸ hs)
    have hlen : 1 < number.text.length := Nat.lt_trans (by decide) hlong.2
    obtain ⟨next, hstep, -⟩ := Cursor.step_of_longOctave (hc.trans he.symm) hhead hlong.1 hlen
    exact hshown _ _ hstep

/-! ## Results -/

/-- The conversion that the reader of a token makes of its text succeeds. A number is converted as
an octave only if it has one character, and a note name only if it is among the letters. -/
def Token.Converts (t : Token) : Prop :=
  match t.kind with
  | .duration => ∃ d, Duration.ofCode? t.text = some d
  | .accidental => ∃ a, (onlyChar? t.text).bind Accidental.ofChar? = some a
  | .clef => ∃ type, ClefType.ofName? (String.ofList (Text.lower t.text.toList)) = some type
  | .number => ¬ 1 < t.text.length → ∃ n, Text.integer? t.text = some n ∧ n ≤ maxOctave
  | .note => ∃ c : Char, Text.upper t.text.toList = [c] ∧
      (c ∈ NoteLetter.all.map NoteLetter.char → ∃ l, NoteLetter.ofChar? c = some l)
  | _ => True

theorem Token.converts_of_lexical {t : Token} (h : t.Lexical) : t.Converts := by
  unfold Converts
  split
  · next hk => exact duration_of_lexical hk h
  · next hk => exact accidental_of_lexical hk h
  · next hk => exact clefType_of_lexical hk h
  · next hk =>
    intro hone
    obtain ⟨n, hn, hle, -⟩ := octave_of_lexical hk hone h
    exact ⟨n, hn, hle⟩
  · next hk =>
    obtain ⟨c, hc⟩ := noteName_of_lexical hk h
    refine ⟨c, hc, fun hmem => ?_⟩
    obtain ⟨l, -, rfl⟩ := List.mem_map.1 hmem
    exact ⟨l, NoteLetter.ofChar?_eq_some_iff.2 rfl⟩
  · trivial

/-- What holds of the result of parsing, whatever the input is. -/
structure ParseResult.Coherent (options : ParserOptions) (input : Input) (r : ParseResult) :
    Prop where
  success_iff : r.success = true ↔ r.diagnostics = []
  few : (r.diagnostics.length : Int) ≤ max 1 options.maxErrors
  score_iff : r.score = none ↔ (∃ kind, input = .other kind) ∨
    ∃ text, input = .text text ∧ options.strict = true ∧ (lex text).diagnostics ≠ []
  messages : ∀ d ∈ r.diagnostics, ¬ UnreachableMessage d.message

theorem length_take_limit (options : ParserOptions) (ds : List Diagnostic) :
    ((ds.take options.limit).length : Int) ≤ max 1 options.maxErrors := by
  have hle := List.length_take_le options.limit ds
  unfold ParserOptions.limit at *
  omega

theorem take_limit_eq_nil_iff (options : ParserOptions) (ds : List Diagnostic) :
    ds.take options.limit = [] ↔ ds = [] := by
  obtain ⟨n, hn⟩ := limit_pos options
  rw [hn, List.take_eq_nil_iff]
  simp

theorem not_unreachableMessage_lex {text : String} {d : Diagnostic}
    (h : d ∈ (lex text).diagnostics) : ¬ UnreachableMessage d.message := by
  obtain ⟨⟨p, x⟩, -, hd⟩ := List.mem_filterMap.1 h
  intro hu
  have hproblem := isUnreachable_of_message hu
  cases x <;> cases hd
  cases hproblem

theorem not_unreachableMessage_events {text : String} {limit : Nat} {d : Diagnostic}
    (h : d ∈ ((textCursor text).events limit).filterMap Event.diagnostic?) :
    ¬ UnreachableMessage d.message := by
  intro hu
  have hproblem := isUnreachable_of_message hu
  obtain ⟨tokens, -, hcomplaint⟩ :=
    Cursor.complaint_of_mem_events (hasEnd_textCursor text) (fun t ht => by
      rw [ahead_textCursor] at ht
      exact ⟨lexical_of_mem_significantTokens ht, isTrivia_of_mem_significantTokens ht⟩) h
  rw [hcomplaint.not_isUnreachable] at hproblem
  cases hproblem

/-- A text that strict options keep from being read has a coherent result. -/
theorem coherent_of_stopped {options : ParserOptions} {text : String}
    (hstrict : options.strict = true) (hlex : (lex text).diagnostics ≠ []) :
    ParseResult.Coherent options (.text text)
      ⟨false, (lex text).diagnostics.take options.limit, none⟩ where
  success_iff := by
    rw [take_limit_eq_nil_iff]
    simp [hlex]
  few := length_take_limit _ _
  score_iff := by simp [hstrict, hlex]
  messages d hd := not_unreachableMessage_lex (List.mem_of_mem_take hd)

/-- So has a text that is read. -/
theorem coherent_of_read {options : ParserOptions} {text : String} (score : Score)
    (hread : ¬ (options.strict = true ∧ (lex text).diagnostics ≠ [])) :
    let shown := ((textCursor text).events options.limit).filterMap Event.diagnostic?
    ParseResult.Coherent options (.text text)
      ⟨shown.isEmpty && (lex text).diagnostics.isEmpty,
        ((lex text).diagnostics ++ shown).take options.limit, some score⟩ where
  success_iff := by
    simp only [Bool.and_eq_true, List.isEmpty_iff, take_limit_eq_nil_iff, List.append_eq_nil_iff]
    exact And.comm
  few := length_take_limit _ _
  score_iff := by simpa using hread
  messages d hd := by
    rcases List.mem_append.1 (List.mem_of_mem_take hd) with hd | hd
    · exact not_unreachableMessage_lex hd
    · exact not_unreachableMessage_events hd

/-- What is not a text has a coherent result as well. -/
theorem coherent_other (options : ParserOptions) (kind : ValueKind) :
    ParseResult.Coherent options (.other kind)
      ⟨false, [{ problem := .rejectedInput ⟨"string", kind⟩, position := .start }], none⟩ where
  success_iff := by simp
  few := by
    show (1 : Int) ≤ max 1 options.maxErrors
    omega
  score_iff := by simp
  messages d hd hu := by
    have hproblem := isUnreachable_of_message hu
    rw [List.mem_singleton.1 hd] at hproblem
    cases hproblem

/-- A text with an overlong number among its tokens is not read without a problem. -/
theorem diagnostics_ne_nil_of_isOverlong {text : String} {t : Token}
    (ht : t ∈ significantTokens text) (hlong : t.IsOverlong) (options : ParserOptions) :
    ((textCursor text).events options.limit).filterMap Event.diagnostic? ≠ [] := by
  intro hnone
  obtain ⟨items, hsentence⟩ := sentence_of_diagnostics hnone
  rw [significantTokens_eq, List.mem_append, List.mem_singleton] at ht
  rcases ht with ht | rfl
  · exact hsentence.not_isOverlong t ht hlong
  · cases hlong.1

/-- **Parsing always gives a coherent result.** This holds for every input and all options. For a
text, every conversion of a token succeeds; an overlong number never goes with a success, and as
long as there is a score and the limit is not reached, it is reported where it stands. -/
theorem parse_coherent (options : ParserOptions) (input : Input) :
    ∃ r, parse options input = .ok r ∧ r.Coherent options input ∧
      ∀ text, input = .text text →
        (∀ t ∈ significantTokens text, t.Converts) ∧
        ((∃ t ∈ significantTokens text, t.IsOverlong) → r.success = false) ∧
        (r.score ≠ none → r.diagnostics.length < options.limit →
          ReportsOverlong (significantTokens text) r.diagnostics) := by
  cases input with
  | other kind =>
    refine ⟨_, rfl, coherent_other options kind, fun text he => ?_⟩
    cases he
  | text text =>
    have hconverts : ∀ t ∈ significantTokens text, t.Converts :=
      fun t ht => Token.converts_of_lexical (lexical_of_mem_significantTokens ht)
    have hparse : parse options (.text text) = _ := parseText_eq options text
    by_cases hstop : options.strict = true ∧ (lex text).diagnostics ≠ []
    · rw [if_pos (by simpa using hstop)] at hparse
      refine ⟨_, hparse, coherent_of_stopped hstop.1 hstop.2, ?_⟩
      rintro _ ⟨⟩
      exact ⟨hconverts, fun _ => rfl, fun hscore => absurd rfl hscore⟩
    · rw [if_neg (by simpa using hstop)] at hparse
      refine ⟨_, hparse, coherent_of_read _ hstop, ?_⟩
      rintro _ ⟨⟩
      refine ⟨hconverts, ?_, fun _ hfew => ?_⟩
      · rintro ⟨t, ht, hlong⟩
        have hne := diagnostics_ne_nil_of_isOverlong ht hlong options
        simp [ParseResult.ofEvents, hne]
      · -- Fewer diagnostics than the limit: nothing was cut off.
        simp only [ParseResult.ofEvents, List.length_take, List.length_append] at hfew ⊢
        have hreports := reportsOverlong_events text options.limit (by omega)
        rw [List.take_of_length_le (by rw [List.length_append]; omega)]
        exact hreports.mono (List.subset_append_right _ _)

/-- The digits of a number that is one digit too long. -/
def overlongDigits : List Char := '1' :: List.replicate Text.maxDigits '1'

theorem isDigit_overlongDigits : ∀ c ∈ overlongDigits, c.isDigit = true := by
  intro c hc
  rcases List.mem_cons.1 hc with rfl | hc
  · decide
  · rw [List.eq_of_mem_replicate hc]
    decide

/-- Behind the letter of a note, such a number is a token, and parsing the note gives a result. -/
theorem parse_coherent_at_overlong_octave :
    let text := String.ofList ('C' :: overlongDigits)
    (∃ t ∈ significantTokens text, t.IsOverlong) ∧
      ∃ r, parse {} (.text text) = .ok r ∧ r.success = false ∧ r.diagnostics ≠ [] := by
  intro text
  have hlexemes : lexemes text.toList =
      [.noteLetter 'C', .plain .number overlongDigits] := by
    have hnumber : lexemes (overlongDigits ++ []) = [.plain .number overlongDigits] := by
      rw [lexemes_digits (by simp [overlongDigits]) isDigit_overlongDigits (by simp), lexemes]
    rw [List.append_nil] at hnumber
    rw [String.toList_ofList]
    exact (lexemes_plainLetter .c (by decide) _).trans (congrArg _ hnumber)
  have hlong : ∃ t ∈ significantTokens text, t.IsOverlong := by
    rw [significantTokens_eq, bodyTokens_eq_meaningful, placedLexemes, hlexemes]
    refine ⟨_, List.mem_append_left _ (.tail _ (.head _)), rfl, ?_⟩
    show Text.maxDigits < (String.ofList overlongDigits).length
    rw [String.length_ofList, overlongDigits, List.length_cons, List.length_replicate]
    exact Nat.lt_succ_self _
  obtain ⟨r, hr, hcoherent, htext⟩ := parse_coherent {} (.text text)
  have hfails : r.success = false := (htext text rfl).2.1 hlong
  refine ⟨hlong, r, hr, hfails, fun hnone => ?_⟩
  rw [hcoherent.success_iff.2 hnone] at hfails
  cases hfails

end ScoreText
