import ScoreText.Proofs.Coherence
import ScoreText.Proofs.Composition
import ScoreText.Proofs.Fragments

/-!
How rows of fragments are read. Fragments may touch, but what follows a duration code is never a
digit or a sign, so the lexer cuts every fragment as it was written (`tokensFrom_fragment`). The
parser reads a fragment as its note, rest or bar line. A note whose octave has several digits is
reported, and the reading goes on with the next note or rest, maybe without the bar line before it
(`Cursor.readsAs_of_tells`). So the problems and the elements of such a text are those of its
fragments (`parseText_of_row`).
-/

namespace ScoreText

open Text

/-! ## Tokens of fragments -/

theorem tokensFrom_gap {gap : List Char} (h : IsGap gap) (p : Position) (rest : List Char) :
    tokensFrom p (gap ++ rest) = tokensFrom (p.after gap) rest := by
  induction gap generalizing p with
  | nil => rfl
  | cons c gap ih =>
    obtain ⟨hc, hgap⟩ := List.forall_mem_cons.1 h
    rw [List.cons_append, tokensFrom_separator hc, ih hgap]
    rfl

theorem tokensFrom_isGap {gap : List Char} (h : IsGap gap) (p : Position) :
    tokensFrom p gap = [] := by
  have htokens := tokensFrom_gap h p []
  rwa [List.append_nil, tokensFrom_nil] at htokens

/-- `Tells run f`: the tokens say what the fragment says, wherever they stand. -/
inductive Tells : List Token → Fragment → Prop
  | plainNote {name number code : Token} {letter : NoteLetter} {octave : DigitRun} {gap : Blanks}
      {duration : Duration} :
      name.letter? = some letter → number.kind = .number →
      number.text = String.ofList octave.chars → code.duration? = some duration →
      Tells [name, number, code] (.note letter none octave gap duration)
  | alteredNote {name sign number code : Token} {letter : NoteLetter} {accidental : Accidental}
      {octave : DigitRun} {gap : Blanks} {duration : Duration} :
      name.letter? = some letter → sign.accidental? = some accidental → number.kind = .number →
      number.text = String.ofList octave.chars → code.duration? = some duration →
      Tells [name, sign, number, code] (.note letter (some accidental) octave gap duration)
  | rest {sign code : Token} {gap : Blanks} {duration : Duration} :
      sign.kind = .rest → code.duration? = some duration → Tells [sign, code] (.rest gap duration)
  | bar {line : Token} : line.kind = .pipe → Tells [line] .bar

theorem noSign_append_gap {gap : List Char} (h : IsGap gap) {rest : List Char}
    (hrest : NoSign rest) : NoSign (gap ++ rest) := by
  cases gap with
  | nil => exact hrest
  | cons c gap =>
    intro d hd
    obtain rfl : c = d := by simpa using hd
    exact (class_of_isSeparator (h c (by simp))).2

/-- Separators and a duration code. -/
private theorem tokensFrom_code (gap : Blanks) (duration : Duration) {rest : List Char}
    (h : NoSign rest) (p : Position) :
    ∃ code q, code.duration? = some duration ∧
      tokensFrom p (gap.chars ++ duration.char :: rest) = code :: tokensFrom q rest := by
  have hcode : lexemes (duration.char :: rest) =
      [.plain .duration [duration.char]] ++ lexemes rest := lexemes_duration duration h
  rw [tokensFrom_gap gap.isGap, tokensFrom_pieces hcode]
  exact ⟨_, _, duration?_of_char duration _, rfl⟩

theorem tokensFrom_number (r : DigitRun) {rest : List Char}
    (h : ∀ c ∈ rest.head?, c.isDigit = false) (p : Position) :
    ∃ number q, number.kind = .number ∧ number.text = String.ofList r.chars ∧
      tokensFrom p (r.chars ++ rest) = number :: tokensFrom q rest := by
  have hnumber : lexemes (r.chars ++ rest) = [.plain .number r.chars] ++ lexemes rest :=
    lexemes_digits r.nonempty r.isDigit h
  exact ⟨_, _, rfl, rfl, tokensFrom_pieces hnumber p⟩

/-- An octave, separators and a duration code. -/
private theorem tokensFrom_octave (octave : DigitRun) (gap : Blanks) (duration : Duration)
    {rest : List Char} (h : NoSign rest) (p : Position) :
    ∃ number code q, number.kind = .number ∧ number.text = String.ofList octave.chars ∧
      code.duration? = some duration ∧
      tokensFrom p (octave.chars ++ (gap.chars ++ duration.char :: rest)) =
        number :: code :: tokensFrom q rest := by
  obtain ⟨c, cs, hgap, hc⟩ := gap.exists_cons
  have hstop : ∀ d ∈ (gap.chars ++ duration.char :: rest).head?, d.isDigit = false := by
    simpa [hgap] using (class_of_isSeparator hc).2.1
  obtain ⟨number, q, hk, ht, htokens⟩ := tokensFrom_number octave hstop p
  obtain ⟨code, q', hcode, htokens'⟩ := tokensFrom_code gap duration h q
  rw [htokens, htokens']
  exact ⟨number, code, q', hk, ht, hcode, rfl⟩

/-- A fragment is cut into the tokens that it was written for. -/
theorem tokensFrom_fragment (f : Fragment) {rest : List Char} (h : NoSign rest) (p : Position) :
    ∃ run q, Tells run f ∧ tokensFrom p (f.source ++ rest) = run ++ tokensFrom q rest := by
  cases f with
  | bar =>
    have hbar : lexemes ('|' :: rest) = [.plain .pipe ['|']] ++ lexemes rest :=
      lexemes_sign .pipe rfl rest
    exact ⟨_, _, @Tells.bar ⟨.pipe, "|", p⟩ rfl, tokensFrom_pieces hbar p⟩
  | rest gap duration =>
    obtain ⟨c, cs, hgap, hc⟩ := gap.exists_cons
    have hsign : lexemes ((Fragment.rest gap duration).source ++ rest) =
        [.plain .rest ['r']] ++ lexemes (gap.chars ++ duration.char :: rest) := by
      simp only [Fragment.source, hgap, List.cons_append, List.append_assoc, List.nil_append]
      exact lexemes_restSign (class_of_isSeparator hc) _
    obtain ⟨code, q, hcode, htokens⟩ := tokensFrom_code gap duration h (p.after ['r'])
    refine ⟨_, q, @Tells.rest ⟨.rest, "r", p⟩ code gap duration rfl hcode, ?_⟩
    rw [tokensFrom_pieces hsign]
    exact congrArg (_ :: ·) htokens
  | note letter accidental octave gap duration =>
    obtain ⟨d, ds, hoctave, hd⟩ := octave.exists_cons
    cases accidental with
    | none =>
      have hhead : lexemes ((Fragment.note letter none octave gap duration).source ++ rest) =
          [.noteLetter letter.char] ++
            lexemes (octave.chars ++ (gap.chars ++ duration.char :: rest)) := by
        simp only [Fragment.source, hoctave, List.cons_append, List.append_assoc, List.nil_append,
          Option.map_none, Option.toList_none]
        exact lexemes_plainLetter letter hd _
      obtain ⟨number, code, q, hk, ht, hcode, htokens⟩ :=
        tokensFrom_octave octave gap duration h (p.after [letter.char])
      refine ⟨_, q, .plainNote (letter?_of_char letter p) hk ht hcode, ?_⟩
      rw [tokensFrom_pieces hhead]
      exact congrArg (_ :: ·) htokens
    | some a =>
      have hhead : lexemes ((Fragment.note letter (some a) octave gap duration).source ++ rest) =
          [.noteLetter letter.char, .plain .accidental [a.char]] ++
            lexemes (octave.chars ++ (gap.chars ++ duration.char :: rest)) := by
        simp only [Fragment.source, hoctave, List.cons_append, List.append_assoc, List.nil_append,
          Option.map_some, Option.toList_some]
        exact lexemes_alteredLetter letter a hd _
      obtain ⟨number, code, q, hk, ht, hcode, htokens⟩ :=
        tokensFrom_octave octave gap duration h (p.after [letter.char, a.char])
      have hsign (q : Position) :
          Token.accidental? ⟨.accidental, String.ofList [a.char], q⟩ = some a :=
        Token.accidental?_eq_some_iff.2 ⟨rfl, String.toList_ofList⟩
      refine ⟨_, q, .alteredNote (letter?_of_char letter p) (hsign (p.after [letter.char])) hk ht
        hcode, ?_⟩
      rw [tokensFrom_pieces hhead]
      exact congrArg (_ :: _ :: ·) htokens

/-! ## Rows of fragments -/

theorem isNotationChar_of_isGap {gap : List Char} (h : IsGap gap) :
    ∀ c ∈ gap, isNotationChar c = true := by
  intro c hc
  rcases isSeparator_iff.1 (h c hc) with rfl | rfl | rfl | rfl <;> rfl

theorem isNotationChar_source (f : Fragment) : ∀ c ∈ f.source, isNotationChar c = true := by
  have hduration (duration : Duration) : isNotationChar duration.char = true := by
    cases duration <;> rfl
  cases f with
  | bar => simp [Fragment.source, isNotationChar]
  | rest gap duration =>
    rw [Fragment.source, List.forall_mem_cons, List.forall_mem_append, List.forall_mem_singleton]
    exact ⟨rfl, isNotationChar_of_isGap gap.isGap, hduration duration⟩
  | note letter accidental octave gap duration =>
    rw [Fragment.source, List.forall_mem_cons, List.forall_mem_append, List.forall_mem_append,
      List.forall_mem_append, List.forall_mem_singleton]
    refine ⟨by cases letter <;> rfl, ?_, ?_, isNotationChar_of_isGap gap.isGap,
      hduration duration⟩
    · rcases accidental with _ | _ | _ <;> simp [Accidental.char, isNotationChar]
    · exact fun c hc => isNotationChar_of_isDigit (octave.isDigit c hc)

theorem noSign_source (f : Fragment) (rest : List Char) : NoSign (f.source ++ rest) := by
  intro c hc
  cases f with
  | bar =>
    obtain rfl : '|' = c := by simpa [Fragment.source] using hc
    decide
  | rest gap duration =>
    obtain rfl : 'r' = c := by simpa [Fragment.source] using hc
    decide
  | note letter accidental octave gap duration =>
    obtain rfl : letter.char = c := by simpa [Fragment.source] using hc
    cases letter <;> decide

namespace Row

variable {cs : List Char} {fs : List Fragment}

theorem isNotationChar (h : Row cs fs) : ∀ c ∈ cs, isNotationChar c = true := by
  induction h with
  | nil hgap => exact isNotationChar_of_isGap hgap
  | cons f hgap _ ih =>
    exact List.forall_mem_append.2 ⟨isNotationChar_of_isGap hgap,
      List.forall_mem_append.2 ⟨isNotationChar_source f, ih⟩⟩

theorem noSign (h : Row cs fs) : NoSign cs := by
  cases h with
  | nil hgap =>
    rw [← List.append_nil cs]
    exact noSign_append_gap hgap (by simp [NoSign])
  | cons f hgap _ => exact noSign_append_gap hgap (noSign_source f _)

theorem length_le (h : Row cs fs) : fs.length ≤ cs.length := by
  induction h with
  | nil => exact Nat.zero_le _
  | cons f _ _ ih =>
    have hpos : 0 < f.source.length := by cases f <;> simp [Fragment.source]
    simp only [List.length_cons, List.length_append]
    omega

end Row

/-- `TellsAll tokens fs`: the tokens say what the fragments say, one after the other. -/
inductive TellsAll : List Token → List Fragment → Prop
  | nil : TellsAll [] []
  | cons {run tokens : List Token} {f : Fragment} {fs : List Fragment} :
      Tells run f → TellsAll tokens fs → TellsAll (run ++ tokens) (f :: fs)

theorem tokensFrom_row {cs : List Char} {fs : List Fragment} (h : Row cs fs) (p : Position) :
    TellsAll (tokensFrom p cs) fs := by
  induction h generalizing p with
  | nil hgap =>
    rw [tokensFrom_isGap hgap]
    exact .nil
  | cons f hgap hrest ih =>
    rw [tokensFrom_gap hgap]
    obtain ⟨run, q, htells, htokens⟩ := tokensFrom_fragment f hrest.noSign (p.after _)
    rw [htokens]
    exact .cons htells (ih q)

/-! ## Reading fragments -/

namespace Tells

variable {run : List Token} {f : Fragment}

theorem first (h : Tells run f) :
    ∃ t ts, run = t :: ts ∧
      (t.kind.startsElement = true ∨ t.kind = .pipe ∧ ts = [] ∧ f = .bar) := by
  cases h with
  | plainNote hname =>
    exact ⟨_, _, rfl, .inl (by rw [(Token.letter?_eq_some_iff.1 hname).1]; rfl)⟩
  | alteredNote hname =>
    exact ⟨_, _, rfl, .inl (by rw [(Token.letter?_eq_some_iff.1 hname).1]; rfl)⟩
  | rest hsign => exact ⟨_, _, rfl, .inl (by rw [hsign]; rfl)⟩
  | bar hline => exact ⟨_, _, rfl, .inr ⟨hline, rfl, rfl⟩⟩

/-- A number of one digit is an octave. -/
private theorem octave?_of_single {number : Token} {octave : DigitRun} (hk : number.kind = .number)
    (ht : number.text = String.ofList octave.chars) (hone : octave.chars.length = 1) :
    number.octave? = some (Text.decimal octave.chars) := by
  obtain ⟨c, hc⟩ := List.length_eq_one_iff.1 hone
  refine Token.octave?_eq_some_iff.2 ⟨hk, c, by rw [ht, String.toList_ofList, hc], ?_, by rw [hc]⟩
  exact octave.isDigit c (by rw [hc]; simp)

/-- The tokens of a fragment are a phrase, unless its octave has several digits. -/
theorem phrase (h : Tells run f) (hshort : f.overlong? = none) :
    ∃ i p, Phrase run i ∧ i.element? = f.element? p := by
  cases h with
  | @plainNote name number code letter octave gap duration hname hk ht hcode =>
    have hone : octave.chars.length = 1 := by simpa [Fragment.overlong?] using hshort
    exact ⟨_, name.position, .plainNote hname (octave?_of_single hk ht hone) hcode,
      by simp [Item.element?, Fragment.element?, hone]⟩
  | @alteredNote name sign number code letter accidental octave gap duration hname hsign hk ht
      hcode =>
    have hone : octave.chars.length = 1 := by simpa [Fragment.overlong?] using hshort
    exact ⟨_, name.position, .alteredNote hname hsign (octave?_of_single hk ht hone) hcode,
      by simp [Item.element?, Fragment.element?, hone]⟩
  | @rest sign code gap duration hsign hcode =>
    exact ⟨_, sign.position, .rest hsign hcode, rfl⟩
  | bar hline => exact ⟨_, .nowhere, .bar hline, rfl⟩

/-- A note whose octave has several digits is given up before its duration. -/
theorem longOctave (h : Tells run f) {octave : String} (hlong : f.overlong? = some octave) :
    ∃ head altered number code, run = head ++ [number, code] ∧ NoteHead head altered ∧
      number.kind = .number ∧ number.text = octave ∧ 1 < number.text.length ∧
      code.kind = .duration := by
  have hnumber {number : Token} {octave' : DigitRun}
      (ht : number.text = String.ofList octave'.chars) (hone : ¬ octave'.chars.length = 1) :
      1 < number.text.length := by
    have hpos := List.length_pos_iff.2 octave'.nonempty
    rw [ht, String.length_ofList]
    omega
  cases h with
  | plainNote hname hk ht hcode =>
    simp only [Fragment.overlong?, Option.ite_none_left_eq_some, Option.some.injEq] at hlong
    exact ⟨_, _, _, _, rfl, .plain hname, hk, ht.trans hlong.2, hnumber ht hlong.1,
      (Token.duration?_eq_some_iff.1 hcode).1⟩
  | alteredNote hname hsign hk ht hcode =>
    simp only [Fragment.overlong?, Option.ite_none_left_eq_some, Option.some.injEq] at hlong
    exact ⟨_, _, _, _, rfl, .altered hname hsign, hk, ht.trans hlong.2, hnumber ht hlong.1,
      (Token.duration?_eq_some_iff.1 hcode).1⟩
  | rest => cases hlong
  | bar => cases hlong

end Tells

theorem unplaced_element? (f : Fragment) (p : Position) :
    (f.element? p).map Element.unplaced = f.element? .nowhere := by
  cases f with
  | bar => rfl
  | rest gap duration => rfl
  | note letter accidental octave gap duration =>
    simp only [Fragment.element?]
    split <;> rfl

theorem element?_of_overlong {f : Fragment} {octave : String} (h : f.overlong? = some octave)
    (p : Position) : f.element? p = none := by
  cases f with
  | bar => rfl
  | rest gap duration => cases h
  | note letter accidental octave gap duration =>
    simp only [Fragment.overlong?, Option.ite_none_left_eq_some] at h
    simp [Fragment.element?, h.1]

namespace Cursor

/-- Reading from the cursor on reports the octaves with several digits, in order, and finds the
other notes and rests, in order. -/
def ReadsAs (c : Cursor) (fs : List Fragment) : Prop :=
  ∀ limit, (fs.filterMap Fragment.overlong?).length < limit →
    ((c.events limit).filterMap Event.diagnostic?).map Diagnostic.problem =
      (fs.filterMap Fragment.overlong?).map .invalidOctave ∧
    (((c.events limit).filterMap Event.item?).filterMap Item.element?).map Element.unplaced =
      fs.filterMap (Fragment.element? .nowhere)

theorem ReadsAs.item {c next : Cursor} {i : Item} {f : Fragment} {fs : List Fragment} {p : Position}
    (h : next.ReadsAs fs) (hend : c.HasEnd) (hk : c.current.kind ≠ .eof)
    (hstep : c.step = .item i next) (hshort : f.overlong? = none)
    (hi : i.element? = f.element? p) : c.ReadsAs (f :: fs) := by
  intro limit hfew
  rw [List.filterMap_cons_none hshort] at hfew ⊢
  obtain ⟨n, rfl⟩ : ∃ n, limit = n + 1 := ⟨limit - 1, by omega⟩
  obtain ⟨hproblems, helements⟩ := h (n + 1) hfew
  rw [events_of_step_eq_item n hend hk hstep]
  refine ⟨hproblems, ?_⟩
  have hitem : (Event.item i).item? = some i := rfl
  rw [List.filterMap_cons_some hitem, List.filterMap_cons, List.filterMap_cons, ← helements,
    ← unplaced_element? f p, ← hi]
  cases i.element? <;> rfl

theorem ReadsAs.failed {c next : Cursor} {d : Diagnostic} {f : Fragment} {fs : List Fragment}
    {octave : String} (h : next.recover.ReadsAs fs) (hend : c.HasEnd)
    (hk : c.current.kind ≠ .eof) (hstep : c.step = .failed d next)
    (hd : d.problem = .invalidOctave octave) (hlong : f.overlong? = some octave) :
    c.ReadsAs (f :: fs) := by
  intro limit hfew
  rw [List.filterMap_cons_some hlong, List.length_cons] at hfew
  obtain ⟨n, rfl⟩ : ∃ n, limit = n + 1 := ⟨limit - 1, by omega⟩
  obtain ⟨hproblems, helements⟩ := h n (by omega)
  rw [events_succ n hend hk, hstep, List.filterMap_cons_some hlong,
    List.filterMap_cons_none (element?_of_overlong hlong _)]
  refine ⟨?_, helements⟩
  rw [List.map_cons, ← hproblems, ← hd]
  rfl

/-- Reading tokens that tell fragments. Where a malformed note has been given up, a bar line may
come next, which recovery takes: it holds neither a note nor a problem, so it is not missed. -/
theorem readsAs_of_tells {tokens : List Token} {fs : List Fragment} (h : TellsAll tokens fs)
    {c : Cursor} {e : Token} (hc : c.ahead = tokens ++ [e]) (he : e.kind = .eof) :
    c.ReadsAs fs ∧ c.recover.ReadsAs fs := by
  induction h generalizing c with
  | nil =>
    have hk : c.current.kind = .eof := by rwa [current_of_ahead hc]
    rw [recover_of_stop (.inl hk)]
    have hnone : c.ReadsAs [] := fun limit _ => by simp [events_of_eof limit hk]
    exact ⟨hnone, hnone⟩
  | @cons run tokens f fs htells _ ih =>
    rw [List.append_assoc] at hc
    have hend : c.HasEnd := ⟨e, by rw [hc]; simp, he⟩
    obtain ⟨t, ts, hrun, hfirst⟩ := htells.first
    have hcurrent : c.current = t := by
      rw [hrun] at hc
      exact current_of_ahead hc
    have hk : c.current.kind ≠ .eof := by
      rw [hcurrent]
      intro heof
      rw [heof] at hfirst
      rcases hfirst with hstart | ⟨hpipe, -⟩
      · cases hstart
      · cases hpipe
    have hhere : c.ReadsAs (f :: fs) := by
      cases hlong : f.overlong? with
      | none =>
        obtain ⟨i, p, hphrase, hi⟩ := htells.phrase hlong
        obtain ⟨next, hstep, hnext⟩ := step_of_phrase hphrase hc (by simp)
        exact (ih hnext).1.item hend hk hstep hlong hi
      | some octave =>
        obtain ⟨head, altered, number, code, rfl, hhead, hnumber, rfl, htext, hcode⟩ :=
          htells.longOctave hlong
        rw [List.append_assoc] at hc
        obtain ⟨next, hstep, hnext⟩ := step_of_longOctave hc hhead hnumber htext
        have hahead := hnext (by simp)
        have hcode' : next.current.kind = .duration := by rwa [current_of_ahead hahead]
        have hrecover : next.recover = next.advance.recover :=
          recover_of_skipped (by simp [hcode']) (by rw [hcode']; rfl) (by simp [hcode'])
        refine ReadsAs.failed ?_ hend hk hstep rfl hlong
        rw [hrecover]
        exact (ih (ahead_advance_of_ne hahead (by simp))).2
    refine ⟨hhere, ?_⟩
    rcases hfirst with hstart | ⟨hpipe, rfl, rfl⟩
    · rwa [recover_of_stop (.inr (by rwa [hcurrent]))]
    · rw [recover_of_pipe (by rwa [hcurrent])]
      rw [hrun] at hc
      exact (ih (ahead_advance_of_ne hc (by simp))).1

end Cursor

/-! ## Texts made of fragments -/

theorem row_of_trim {cs : List Char} {fs : List Fragment} (h : IsPlain cs)
    (hrow : Row (trim cs) fs) : Row cs fs := by
  obtain ⟨-, lead, trail, hlead, htrail, hcs⟩ := h.trim
  rw [hcs]
  exact (hrow.append_gap htrail).gap_append hlead

theorem row_of_source {cs : List Char} {f : Fragment} (h : IsPlain cs)
    (hsource : trim cs = f.source) : Row cs [f] := by
  have hrow : Row ([] ++ (f.source ++ [])) [f] :=
    .cons f (by simp [IsGap]) (.nil (by simp [IsGap]))
  rw [List.nil_append, List.append_nil, ← hsource] at hrow
  exact row_of_trim h hrow

def ParseResult.messages (r : ParseResult) : List String := r.diagnostics.map (·.problem.message)

section Texts

variable {text : String} {options : ParserOptions}

/-- A text without foreign characters is parsed to what the events of its reading amount to. -/
theorem parseText_of_events (hchars : ∀ c ∈ text.toList, isNotationChar c = true)
    (hfew : (((textCursor text).events options.limit).filterMap Event.diagnostic?).length ≤
      options.limit) :
    parseText options text = .ok (.ofEvents ((textCursor text).events options.limit)) := by
  have hlex := (lex_diagnostics_eq_nil_iff text).2 hchars
  rw [parseText_eq]
  simp [hlex, ParseResult.ofEvents, List.take_of_length_le hfew]

theorem parseText_of_row {fs : List Fragment} (hrow : Row text.toList fs)
    (hmax : (text.length : Int) < options.maxErrors) :
    ∃ r score, parseText options text = .ok r ∧ r.score = some score ∧
      r.success = r.messages.isEmpty ∧
      r.messages = (fs.filterMap Fragment.overlong?).map ("Invalid octave: " ++ ·) ∧
      score.elements.map Element.unplaced = fs.filterMap (Fragment.element? .nowhere) := by
  have hahead : (textCursor text).ahead =
      tokensFrom .start text.toList ++ [.endAt (Position.start.after text.toList)] := by
    rw [ahead_textCursor, significantTokens_eq, bodyTokens_eq_tokensFrom]
  have hlimit : (fs.filterMap Fragment.overlong?).length < options.limit := by
    have hsome := List.length_filterMap_le Fragment.overlong? fs
    have hlength := hrow.length_le
    rw [String.length_toList] at hlength
    unfold ParserOptions.limit
    omega
  obtain ⟨hproblems, helements⟩ :=
    (Cursor.readsAs_of_tells (tokensFrom_row hrow .start) hahead rfl).1 _ hlimit
  have hcount := congrArg List.length hproblems
  rw [List.length_map, List.length_map] at hcount
  refine ⟨_, _, parseText_of_events hrow.isNotationChar (by omega), rfl, ?_, ?_, ?_⟩
  · exact List.isEmpty_map.symm
  · have hmessages := congrArg (List.map Problem.message) hproblems
    rw [List.map_map, List.map_map] at hmessages
    exact hmessages
  · rw [elements_ofItems]
    exact helements

/-- A text of one note or rest is parsed to that. -/
theorem parseText_of_fragment (options : ParserOptions) {f : Fragment} (hrow : Row text.toList [f])
    (helement : f.element? .nowhere ≠ none) :
    ∃ e p, f.element? p = some e ∧
      parseText options text = .ok ⟨true, [], some { measures := [⟨1, [e]⟩] }⟩ := by
  have hshort : f.overlong? = none :=
    Option.eq_none_iff_forall_ne_some.2 fun octave h => helement (element?_of_overlong h _)
  have htells := tokensFrom_row hrow .start
  generalize htokens : tokensFrom .start text.toList = tokens at htells
  cases htells with
  | cons hfirst hnone =>
    cases hnone
    rw [List.append_nil] at htokens
    obtain ⟨i, p, hphrase, hi⟩ := hfirst.phrase hshort
    have hplaced := unplaced_element? f p
    have hsentence : Sentence (bodyTokens text) [i] := by
      rw [bodyTokens_eq_tokensFrom, htokens]
      exact .single hphrase
    have hparse := parseText_of_sentence hrow.isNotationChar hsentence options
    cases i with
    | element e => exact ⟨e, p, hi.symm, hparse⟩
    | _ =>
      rw [← hi] at hplaced
      exact absurd hplaced.symm helement

/-- A text of one note is parsed to that, unless its octave has several digits, which is then the
only problem. -/
theorem parseText_of_note {letter : NoteLetter} {accidental : Option Accidental} {octave : DigitRun}
    {gap : Blanks} {duration : Duration}
    (hrow : Row text.toList [.note letter accidental octave gap duration])
    (hmax : (text.length : Int) < options.maxErrors) :
    if octave.chars.length = 1 then
      ∃ p, parseText options text = .ok ⟨true, [], some { measures :=
        [⟨1, [.note ⟨letter, Text.decimal octave.chars, accidental⟩ duration p]⟩] }⟩
    else
      ∃ r, parseText options text = .ok r ∧ r.success = false ∧
        r.messages = ["Invalid octave: " ++ String.ofList octave.chars] := by
  split
  · next hone =>
    obtain ⟨e, p, he, hparse⟩ :=
      parseText_of_fragment options hrow (by simp [Fragment.element?, hone])
    simp only [Fragment.element?, hone, if_pos] at he
    cases he
    exact ⟨p, hparse⟩
  · next hlong =>
    obtain ⟨r, score, hr, -, hsuccess, hmessages, -⟩ := parseText_of_row hrow hmax
    have hoverlong : [Fragment.note letter accidental octave gap duration].filterMap
        Fragment.overlong? = [String.ofList octave.chars] := by
      simp [Fragment.overlong?, hlong]
    rw [hoverlong] at hmessages
    refine ⟨r, hr, ?_, hmessages⟩
    rw [hsuccess, hmessages]
    rfl

end Texts

end ScoreText
