import ScoreText.Proofs.Indices
import ScoreText.Proofs.Lookahead

/-!
The hints are exact (`expected_exact`). Where a diagnostic lists the kinds of token that would have
been right in place of the one that shows it, any other token in that place is met with the same
message, and a token of one of the listed kinds is not. What was read before the place decides what
is expected there (`Lacks`), and the reading comes to it in the same way whatever stands there
(`Cursor.mem_events_of_replaced`).
-/

namespace ScoreText

/-! ## What is expected -/

/-- `Lacks begun p`: the tokens begin an item that cannot end here, and `p` is the problem if it
does not go on as it must. -/
inductive Lacks : List Token → Problem → Prop
  | octave {head : List Token} {altered : Bool} :
      NoteHead head altered → Lacks head (.missingOctave altered)
  | noteDuration {head : List Token} {altered : Bool} {octave : Token} {o : Nat} :
      NoteHead head altered → octave.octave? = some o →
      Lacks (head ++ [octave]) .missingNoteDuration
  | restDuration {sign : Token} : sign.kind = .rest → Lacks [sign] .missingRestDuration
  | clefColon {keyword : Token} :
      keyword.isKeyword "clef" = true → Lacks [keyword] .missingClefColon
  | timeColon {keyword : Token} :
      keyword.isKeyword "time" = true → Lacks [keyword] .missingTimeColon

namespace Lacks

variable {begun : List Token} {p q : Problem}

theorem ne_nil (h : Lacks begun p) : begun ≠ [] := by
  cases h with
  | octave hhead => cases hhead <;> simp
  | noteDuration => simp
  | restDuration | clefColon | timeColon => simp

/-- The item that was begun is complained about just if no token of an expected kind follows. -/
theorem complaint (h : Lacks begun p) {t : Token} (ht : t.kind ∉ p.expected) (rest : List Token) :
    Complaint (begun ++ t :: rest) (.atToken p t) := by
  cases h with
  | @octave head altered hhead =>
    cases altered with
    | false =>
      have hnumber := List.not_mem_of_not_mem_cons ht
      exact .noOctave hhead (fun _ => List.ne_of_not_mem_cons ht) (List.ne_of_not_mem_cons hnumber)
    | true => exact .noOctave hhead (fun h => by cases h) (List.ne_of_not_mem_cons ht)
  | noteDuration hhead ho =>
    rw [List.append_assoc]
    exact .noteDuration hhead ho (List.ne_of_not_mem_cons ht)
  | restDuration hr => exact .restDuration hr (List.ne_of_not_mem_cons ht)
  | clefColon hkey => exact .clefColon hkey (List.ne_of_not_mem_cons ht)
  | timeColon hkey => exact .timeColon hkey (List.ne_of_not_mem_cons ht)

end Lacks

/-- A complaint with a hint is about an item that was begun and does not go on. -/
theorem Complaint.lacks {tokens : List Token} {d : Diagnostic} (h : Complaint tokens d)
    (hd : d.expected ≠ []) :
    ∃ begun t rest, tokens = begun ++ t :: rest ∧ d = .atToken d.problem t ∧
      Lacks begun d.problem ∧ t.kind ∉ d.expected := by
  cases h with
  | @noOctave head altered t rest hhead hsign hk =>
    refine ⟨head, t, rest, rfl, rfl, .octave hhead, ?_⟩
    cases altered with
    | false => exact List.not_mem_cons_of_ne_of_not_mem (hsign rfl) (mt List.mem_singleton.1 hk)
    | true => exact mt List.mem_singleton.1 hk
  | @noteDuration head altered octave t o rest hhead ho hk =>
    exact ⟨head ++ [octave], t, rest, by simp, rfl, .noteDuration hhead ho,
      mt List.mem_singleton.1 hk⟩
  | @restDuration sign t rest hr hk =>
    exact ⟨[sign], t, rest, rfl, rfl, .restDuration hr, mt List.mem_singleton.1 hk⟩
  | @clefColon keyword t rest hkey hk =>
    exact ⟨[keyword], t, rest, rfl, rfl, .clefColon hkey, mt List.mem_singleton.1 hk⟩
  | @timeColon keyword t rest hkey hk =>
    exact ⟨[keyword], t, rest, rfl, rfl, .timeColon hkey, mt List.mem_singleton.1 hk⟩
  | word | misplaced | letter | octave | clefType | numerator | slash | denominator
  | timeSignature => exact absurd rfl hd

/-! ## Messages -/

private def hinted : List Problem :=
  [.missingOctave true, .missingOctave false, .missingNoteDuration, .missingRestDuration,
    .missingClefColon, .missingTimeColon]

/-- The problems with the same message at all places. -/
private def fixed : List Problem :=
  hinted ++ [.missingClefType, .missingNumerator, .missingSlash, .missingDenominator]

private theorem Lacks.mem_hinted {begun : List Token} {p : Problem} (h : Lacks begun p) :
    p ∈ hinted := by
  cases h with
  | @octave _ altered => cases altered <;> decide
  | noteDuration | restDuration | clefColon | timeColon => decide

/-- Only the two problems with octaves share a message. -/
private theorem eq_or_octave_of_message : ∀ p ∈ hinted, ∀ q ∈ fixed, q.message = p.message →
    q = p ∨ ∃ a b, q = .missingOctave a ∧ p = .missingOctave b := by
  decide +kernel

private theorem head?_append_ne {a : String} (ha : a.toList.head?.any (· ≠ 'E') = true)
    (b : String) : (a ++ b).toList.head? ≠ some 'E' := by
  rw [String.toList_append]
  cases h : a.toList with
  | nil => simp [h] at ha
  | cons c cs => simpa [h] using ha

/-- Other messages do not begin with the word for an expectation. -/
private theorem Complaint.mem_fixed {tokens : List Token} {d : Diagnostic}
    (h : Complaint tokens d) : d.problem ∈ fixed ∨ d.message.toList.head? ≠ some 'E' := by
  cases h with
  | word => exact .inr (head?_append_ne (by decide) _)
  | misplaced => exact .inr (head?_append_ne (by decide) _)
  | letter => exact .inr (head?_append_ne (by decide) _)
  | octave => exact .inr (head?_append_ne (by decide) _)
  | timeSignature =>
    refine .inr ?_
    show ("Invalid time signature: " ++ _ ++ "/" ++ _).toList.head? ≠ some 'E'
    rw [String.append_assoc, String.append_assoc]
    exact head?_append_ne (by decide) _
  | @noOctave _ altered => cases altered <;> simp [Diagnostic.atToken, fixed, hinted]
  | noteDuration | restDuration | clefColon | clefType | timeColon | numerator | slash
  | denominator => simp [Diagnostic.atToken, fixed, hinted]

/-- The last token of the beginning of a note tells whether it has an accidental. -/
private theorem Lacks.getLast? {begun : List Token} {altered : Bool}
    (h : Lacks begun (.missingOctave altered)) :
    ∃ t, begun.getLast? = some t ∧ (altered = true ↔ t.kind = .accidental) := by
  cases h with
  | octave hhead =>
    cases hhead with
    | plain hl => exact ⟨_, rfl, by simp [(Token.letter?_eq_some_iff.1 hl).1]⟩
    | altered _ ha => exact ⟨_, rfl, by simp [(Token.accidental?_eq_some_iff.1 ha).1]⟩

theorem Complaint.expected_ne_nil {tokens begun : List Token} {d : Diagnostic} {p : Problem}
    (h : Complaint tokens d) (hp : Lacks begun p) (hmessage : d.message = p.message) :
    d.expected ≠ [] := by
  have hhead : ∀ p ∈ hinted, p.message.toList.head? = some 'E' := by decide +kernel
  have hexpected : ∀ p ∈ hinted, p.expected ≠ [] := by decide
  have hfixed : d.problem ∈ fixed :=
    h.mem_fixed.resolve_right fun hne => hne (hmessage ▸ hhead p hp.mem_hinted)
  rcases eq_or_octave_of_message p hp.mem_hinted _ hfixed hmessage with hd | ⟨a, b, hd, -⟩
  · rw [Diagnostic.expected, hd]
    exact hexpected p hp.mem_hinted
  · rw [Diagnostic.expected, hd]
    cases a <;> decide

/-- **What is expected behind a token is known from the message.** -/
theorem Lacks.eq_of_message {begun begun' : List Token} {p q : Problem} (hp : Lacks begun p)
    (hq : Lacks begun' q) (hlast : begun.getLast? = begun'.getLast?)
    (hmessage : q.message = p.message) : q = p := by
  have hfixed : q ∈ fixed := List.mem_append_left _ hq.mem_hinted
  rcases eq_or_octave_of_message p hp.mem_hinted q hfixed hmessage with heq | ⟨a, b, rfl, rfl⟩
  · exact heq
  · obtain ⟨t, ht, hsign⟩ := hp.getLast?
    obtain ⟨u, hu, hsign'⟩ := hq.getLast?
    rw [ht, hu] at hlast
    obtain rfl := Option.some.inj hlast
    rw [Bool.eq_iff_iff.2 (hsign'.trans hsign.symm)]

namespace Cursor

/-! ## Runs -/

/-- A diagnostic of a run that has a hint is about an item that was begun. -/
theorem lacks_of_mem_events {limit : Nat} {c : Cursor} (h : c.HasEnd)
    (htokens : ∀ t ∈ c.ahead, t.Lexical ∧ t.kind.isTrivia = false) {d : Diagnostic}
    (hd : d ∈ (c.events limit).filterMap Event.diagnostic?) (hexpected : d.expected ≠ []) :
    ∃ begun t rest, begun ++ t :: rest <:+ c.ahead ∧ d = .atToken d.problem t ∧
      Lacks begun d.problem ∧ t.kind ∉ d.expected := by
  obtain ⟨tokens, hsuffix, hcomplaint⟩ := complaint_of_mem_events h htokens hd
  obtain ⟨begun, t, rest, rfl, hlacks⟩ := hcomplaint.lacks hexpected
  exact ⟨begun, t, rest, hsuffix, hlacks⟩

end Cursor

/-- Where a token occurs once, it cuts a list in one way. -/
private theorem split_unique {xs ys zs ws : List Token} {x : Token}
    (h : xs ++ x :: ys = zs ++ x :: ws) (hx : x ∉ xs) (hz : x ∉ zs) : xs = zs ∧ ys = ws := by
  rcases List.append_eq_append_iff.1 h with ⟨as, rfl, hrest⟩ | ⟨as, rfl, hrest⟩
  · cases as with
    | nil => exact ⟨by simp, (List.cons.inj hrest).2⟩
    | cons a as =>
      obtain rfl := (List.cons.inj hrest).1
      exact absurd (by simp) hz
  · cases as with
    | nil => exact ⟨by simp, (List.cons.inj hrest).2.symm⟩
    | cons a as =>
      obtain rfl := (List.cons.inj hrest).1
      exact absurd (by simp) hx

private theorem InOrder.not_mem_front {front rest : List Token} {x : Token}
    (h : InOrder (front ++ x :: rest)) : x ∉ front := fun hx =>
  absurd ((List.pairwise_append.1 h).2.2 x hx x List.mem_cons_self) (Int.lt_irrefl _)

private theorem part_of_front {front rest begun rest₀ : List Token} {x : Token}
    (horder : InOrder (front ++ x :: rest)) (hpart : begun ++ x :: rest₀ <:+ front ++ x :: rest) :
    begun <:+ front ∧ rest₀ = rest := by
  obtain ⟨w, hw⟩ := hpart
  rw [← List.append_assoc] at hw
  have horder' := horder
  rw [← hw] at horder'
  obtain ⟨rfl, hrest⟩ := split_unique hw horder'.not_mem_front horder.not_mem_front
  exact ⟨List.suffix_append w begun, hrest⟩

/-- If a token stands somewhere behind the tokens of `pre`, these are some of those before it. -/
private theorem front_of_part {front rest pre ahead begun rest₀ : List Token} {x : Token}
    (horder : InOrder (front ++ x :: rest)) (hsplit : front ++ x :: rest = pre ++ ahead)
    (hpart : begun ++ x :: rest₀ <:+ ahead) (hne : begun ≠ []) :
    ∃ front₂, front₂ ≠ [] ∧ ahead = front₂ ++ x :: rest ∧ front = pre ++ front₂ := by
  have hwhole : begun ++ x :: rest₀ <:+ front ++ x :: rest :=
    hpart.trans (hsplit ▸ List.suffix_append pre ahead)
  obtain ⟨-, rfl⟩ := part_of_front horder hwhole
  obtain ⟨w, rfl⟩ := hpart
  refine ⟨w ++ begun, by simp [hne], by simp, ?_⟩
  have hsplit' : front ++ x :: rest₀ = (pre ++ (w ++ begun)) ++ x :: rest₀ := by
    rw [hsplit]
    simp
  exact List.append_cancel_right hsplit'

private theorem getLast?_of_suffix {begun front : List Token} (h : begun <:+ front)
    (hne : begun ≠ []) : front.getLast? = begun.getLast? := by
  obtain ⟨w, rfl⟩ := h
  rw [List.getLast?_append, List.getLast?_eq_some_getLast hne]
  rfl

namespace Cursor

section Replaced

variable {c c' : Cursor} {front rest rest' : List Token} {x t : Token} {p : Problem}

private theorem current_of_shared (hc : c.ahead = front ++ x :: rest)
    (hc' : c'.ahead = front ++ t :: rest') (hne : front ≠ []) : c'.current = c.current := by
  obtain ⟨u, front, rfl⟩ := List.exists_cons_of_ne_nil hne
  rw [current_of_ahead hc, current_of_ahead hc']

/-- A diagnostic with a hint that is met later on is shown by a token further on. -/
private theorem exists_front_of_later {limit : Nat} {later : Cursor} {pre : List Token}
    (htokens : ∀ u ∈ c.ahead, u.Lexical ∧ u.kind.isTrivia = false) (horder : InOrder c.ahead)
    (hc : c.ahead = front ++ x :: rest) (hend : later.HasEnd)
    (hlater : c.ahead = pre ++ later.ahead) (hp : p.expected ≠ [])
    (hd : .atToken p x ∈ (later.events limit).filterMap Event.diagnostic?) :
    ∃ front₂, front₂ ≠ [] ∧ later.ahead = front₂ ++ x :: rest ∧ front = pre ++ front₂ := by
  have htokens' : ∀ u ∈ later.ahead, u.Lexical ∧ u.kind.isTrivia = false :=
    fun u hu => htokens u (hlater ▸ List.mem_append_right pre hu)
  obtain ⟨begun, u, rest₀, hpart, hshown, hlacks, -⟩ := lacks_of_mem_events hend htokens' hd hp
  obtain rfl : x = u := Option.some.inj (congrArg Diagnostic.token hshown)
  rw [hc] at horder hlater
  exact front_of_part horder hlater hpart hlacks.ne_nil

/-- Where an item lacks something, a step says so. -/
private theorem step_of_lacks (h : Lacks front p) (ht : t.kind ∉ p.expected) (hend : c.HasEnd)
    (hlex : ∀ u ∈ c.ahead, u.Lexical) (hc : c.ahead = front ++ t :: rest)
    (ho : c.current.opensItem = true) : ∃ next, c.step = .failed (.atToken p t) next := by
  have hcomplaint := h.complaint ht rest
  rw [← hc] at hcomplaint
  obtain ⟨run, seen, rest₀, hsplit, -, hbehind, hfails⟩ :=
    exists_failsOver hcomplaint hlex hend (by simpa [ahead] using ho)
  obtain ⟨next, hs, -⟩ := hfails c rest₀ hsplit hbehind
  exact ⟨next, hs⟩

/-- After one event the reading from `c` goes on from `later`. -/
private structure GoesOn (n : Nat) (c : Cursor) (m : Nat) (later : Cursor) : Prop where
  hasEnd : later.HasEnd
  suffix : later.ahead <:+ c.ahead
  diagnostics : ∀ d ∈ (later.events m).filterMap Event.diagnostic?,
    d ∈ (c.events n).filterMap Event.diagnostic?

private theorem goesOn_of_phrase {run : List Token} {i : Item} (limit : Nat)
    (hphrase : Phrase run i) (h' : c'.HasEnd) (hk' : c'.current.kind ≠ .eof)
    (hc' : c'.ahead = run ++ (front ++ t :: rest')) :
    ∃ later', GoesOn (limit + 1) c' (limit + 1) later' ∧ later'.ahead = front ++ t :: rest' := by
  obtain ⟨next', hs', hnext'⟩ := step_of_phrase hphrase hc' (by simp)
  have hadvance := step_cases h' hk'
  rw [hs'] at hadvance
  cases hadvance with
  | item ha' _ =>
    refine ⟨next', ⟨ha'.hasEnd, ha'.suffix, fun d hd => ?_⟩, hnext'⟩
    rw [events_of_step_eq_item limit h' hk' hs']
    exact hd

private theorem goesOn_of_stray {u : Token} (limit : Nat) (ho : c'.current.opensItem = false)
    (hpipe : c'.current.kind ≠ .pipe) (h' : c'.HasEnd) (hk' : c'.current.kind ≠ .eof)
    (hc' : c'.ahead = u :: (front ++ t :: rest')) :
    ∃ later', GoesOn (limit + 1) c' limit later' ∧ later'.ahead = front ++ t :: rest' := by
  have ha' := Along.first h' hk'
  refine ⟨c'.advance, ⟨ha'.hasEnd, ha'.suffix, fun d hd => ?_⟩,
    ahead_advance_of_ne hc' (by simp)⟩
  rw [events_succ limit h' hk', step_of_not_opensItem ho hpipe]
  exact List.mem_cons_of_mem _ hd

private theorem goesOn_of_failed {next : Cursor} {d : Diagnostic} {run skipped : List Token}
    (limit : Nat) (h : c.HasEnd) (htokens : ∀ u ∈ c.ahead, u.Lexical ∧ u.kind.isTrivia = false)
    (ho : c.current.opensItem = true) (hs : c.step = .failed d next) (ha : Along c run next)
    (hskipped : skipped ++ next.recover.ahead = next.ahead)
    (hresumed : next.recover.ahead = front ++ x :: rest) (hne : front ≠ []) (h' : c'.HasEnd)
    (hk' : c'.current.kind ≠ .eof) (hc' : c'.ahead = run ++ ((skipped ++ front) ++ t :: rest')) :
    ∃ later', GoesOn (limit + 1) c' limit later' ∧ later'.ahead = front ++ t :: rest' := by
  have hnext : next.ahead = (skipped ++ front) ++ x :: rest := by
    rw [← hskipped, hresumed, List.append_assoc]
  obtain ⟨next', hs', hnext'⟩ := failed_of_shared h htokens ho hs ha hnext (by simp [hne]) hc'
  have hadvance := step_cases h' hk'
  rw [hs'] at hadvance
  cases hadvance with
  | failed ha' _ =>
    have hsuffix' := (suffix_recover next').trans ha'.suffix
    refine ⟨next'.recover, ⟨hasEnd_recover ha'.hasEnd, hsuffix', fun e he => ?_⟩,
      recover_of_shared hnext hnext' hresumed hne⟩
    rw [events_succ limit h' hk', hs']
    exact List.mem_cons_of_mem _ he

/-- **A reading comes to a place in the same way, whatever stands there.** If a diagnostic with a
hint is shown by a token, any token of another kind than the expected ones shows it in its place. -/
theorem mem_events_of_replaced {limit : Nat} (h : c.HasEnd)
    (htokens : ∀ u ∈ c.ahead, u.Lexical ∧ u.kind.isTrivia = false) (horder : InOrder c.ahead)
    (hc : c.ahead = front ++ x :: rest) (hp : p.expected ≠ [])
    (hd : .atToken p x ∈ (c.events limit).filterMap Event.diagnostic?) (h' : c'.HasEnd)
    (hlex' : ∀ u ∈ c'.ahead, u.Lexical) (hc' : c'.ahead = front ++ t :: rest')
    (ht : t.kind ∉ p.expected) :
    .atToken p t ∈ (c'.events limit).filterMap Event.diagnostic? := by
  -- Both readings stay the same number of tokens before the place, until one step comes to it.
  induction limit, c, h using events_induction generalizing front c' with
  | stop c h => simp [events_zero] at hd
  | atEnd limit c h hk => simp [events_of_eof limit hk] at hd
  | item limit c h run i next ha hphrase hs he ih =>
    rw [he] at hd
    have hlex := ha.lexical fun u hu => (htokens u hu).1
    obtain ⟨front₂, hne, hnext, rfl⟩ :=
      exists_front_of_later htokens horder hc ha.hasEnd ha.ahead hp hd
    have hcurrent := current_of_shared hc hc' (by simp [hne])
    have hk' : c'.current.kind ≠ .eof := hcurrent ▸ kind_ne_eof_of_events he
    rw [List.append_assoc] at hc'
    obtain ⟨later', hgoes, hlater'⟩ := goesOn_of_phrase limit (hphrase hlex.1) h' hk' hc'
    exact hgoes.diagnostics _ (ih (fun u hu => htokens u (ha.suffix.subset hu))
      (horder.of_suffix ha.suffix) hnext hd hgoes.hasEnd
      (fun u hu => hlex' u (hgoes.suffix.subset hu)) hlater')
  | stray limit c h d next ha ho hpipe hs he ih =>
    rw [he] at hd
    rcases List.mem_cons.1 hd with hself | hd
    · have hstep := step_of_not_opensItem ho hpipe
      rw [hs] at hstep
      cases hstep
      refine absurd ((congrArg Diagnostic.expected hself).trans ?_) hp
      dsimp only [Diagnostic.expected, Diagnostic.atToken]
      split <;> rfl
    · obtain ⟨front₂, hne, hnext, rfl⟩ :=
        exists_front_of_later htokens horder hc ha.hasEnd ha.ahead hp hd
      have hcurrent := current_of_shared hc hc' (by simp)
      have hk' : c'.current.kind ≠ .eof := hcurrent ▸ kind_ne_eof_of_events he
      obtain ⟨later', hgoes, hlater'⟩ :=
        goesOn_of_stray limit (hcurrent ▸ ho) (hcurrent ▸ hpipe) h' hk' hc'
      exact hgoes.diagnostics _ (ih (fun u hu => htokens u (ha.suffix.subset hu))
        (horder.of_suffix ha.suffix) hnext hd hgoes.hasEnd
        (fun u hu => hlex' u (hgoes.suffix.subset hu)) hlater')
  | failed limit c h run d next ha ho hs he ih =>
    rw [he] at hd
    have hk := kind_ne_eof_of_events he
    rcases List.mem_cons.1 hd with hself | hd
    · have hblame := blames_step h hk htokens
      rw [hs, ← hself] at hblame
      obtain ⟨begun, u, rest₀, hsplit, hshown, hlacks, -⟩ := Complaint.lacks hblame hp
      obtain rfl : x = u := Option.some.inj (congrArg Diagnostic.token hshown)
      rw [hc] at horder hsplit
      obtain ⟨rfl, -⟩ := split_unique hsplit horder.not_mem_front (hsplit ▸ horder).not_mem_front
      have hcurrent := current_of_shared hc hc' hlacks.ne_nil
      obtain ⟨next', hs'⟩ := step_of_lacks hlacks ht h' hlex' hc' (hcurrent ▸ ho)
      rw [events_succ limit h' (hcurrent ▸ hk), hs']
      exact List.mem_cons_self
    · obtain ⟨skipped, hskipped⟩ := suffix_recover next
      have hsuffix := (suffix_recover next).trans ha.suffix
      have hlater : c.ahead = (run ++ skipped) ++ next.recover.ahead := by
        rw [ha.ahead, ← hskipped, List.append_assoc]
      obtain ⟨front₂, hne, hresumed, rfl⟩ :=
        exists_front_of_later htokens horder hc (hasEnd_recover ha.hasEnd) hlater hp hd
      have hcurrent := current_of_shared hc hc' (by simp [hne])
      have hsplit' : c'.ahead = run ++ ((skipped ++ front₂) ++ t :: rest') := by simp [hc']
      obtain ⟨later', hgoes, hlater'⟩ := goesOn_of_failed limit h htokens ho hs ha hskipped
        hresumed hne h' (hcurrent ▸ hk) hsplit'
      exact hgoes.diagnostics _ (ih (fun u hu => htokens u (hsuffix.subset hu))
        (horder.of_suffix hsuffix) hresumed hd hgoes.hasEnd
        (fun u hu => hlex' u (hgoes.suffix.subset hu)) hlater')
  | broken limit c h f u hu hnot hs he => exact absurd (htokens u hu).1 hnot

/-- A token of an expected kind does not show the message. -/
theorem not_mem_expected_of_replaced {limit : Nat} (h : c.HasEnd)
    (htokens : ∀ u ∈ c.ahead, u.Lexical ∧ u.kind.isTrivia = false) (horder : InOrder c.ahead)
    (hc : c.ahead = front ++ x :: rest) (hp : p.expected ≠ [])
    (hd : .atToken p x ∈ (c.events limit).filterMap Event.diagnostic?) (h' : c'.HasEnd)
    (htokens' : ∀ u ∈ c'.ahead, u.Lexical ∧ u.kind.isTrivia = false) (horder' : InOrder c'.ahead)
    (hc' : c'.ahead = front ++ t :: rest') {q : Problem}
    (hq : .atToken q t ∈ (c'.events limit).filterMap Event.diagnostic?)
    (hmessage : q.message = p.message) : t.kind ∉ p.expected := by
  obtain ⟨begun, u, rest₀, hpart, hshown, hlacks, -⟩ := lacks_of_mem_events h htokens hd hp
  obtain rfl : x = u := Option.some.inj (congrArg Diagnostic.token hshown)
  obtain ⟨tokens, hsuffix, hcomplaint⟩ := complaint_of_mem_events h' htokens' hq
  have hexpected := hcomplaint.expected_ne_nil hlacks hmessage
  obtain ⟨begun', u', rest₁, rfl, hshown', hlacks', hkind⟩ := hcomplaint.lacks hexpected
  obtain rfl : t = u' := Option.some.inj (congrArg Diagnostic.token hshown')
  -- Both items end right before the place where the token lists differ.
  rw [hc] at horder hpart
  rw [hc'] at horder' hsuffix
  have hlast := getLast?_of_suffix (part_of_front horder hpart).1 hlacks.ne_nil
  have hlast' := getLast?_of_suffix (part_of_front horder' hsuffix).1 hlacks'.ne_nil
  obtain rfl : q = p := hlacks.eq_of_message hlacks' (hlast.symm.trans hlast') hmessage
  exact hkind

end Replaced

end Cursor

/-! ## Replacing a token -/

/-- A token that a lexer may have given its kind and text. -/
def Token.IsLexed (t : Token) : Prop :=
  ∃ text, ∃ u ∈ (tokenize text).tokens, u.kind = t.kind ∧ u.text = t.text

/-- The list with another token at an index; if the end stood there, another end follows. -/
def replaceToken (tokens : List Token) (i : Nat) (t : Token) (stop : Position) : List Token :=
  tokens.set i t ++ if (tokens[i]?).any (·.kind = .eof) then [.endAt stop] else []

private theorem replaceToken_eq (front : List Token) (y : Token) (rest : List Token) (t : Token)
    (stop : Position) :
    replaceToken (front ++ y :: rest) front.length t stop =
      front ++ t :: (rest ++ if y.kind = .eof then [.endAt stop] else []) := by
  simp [replaceToken]

private theorem readable_replaced {front rest : List Token} {y t : Token}
    (h : Readable (front ++ y :: rest)) (ht : t.Lexical ∧ t.kind.isTrivia = false)
    (stop : Position) :
    Readable (front ++ t :: (rest ++ if y.kind = .eof then [.endAt stop] else [])) where
  hasEnd := by
    obtain ⟨u, hu, hk⟩ := h.hasEnd
    by_cases hy : y.kind = .eof
    · exact ⟨.endAt stop, by simp [hy], rfl⟩
    · have hne : u ≠ y := fun hu => hy (hu ▸ hk)
      have hkept : u ∈ front ∨ u ∈ rest := by simpa [hne] using hu
      exact ⟨u, by rcases hkept with hu | hu <;> simp [hu], hk⟩
  lexical := by
    intro u hu
    rcases List.mem_append.1 hu with hu | hu
    · exact h.lexical u (List.mem_append_left _ hu)
    rcases List.mem_cons.1 hu with rfl | hu
    · exact ht
    rcases List.mem_append.1 hu with hu | hu
    · exact h.lexical u (List.mem_append_right _ (List.mem_cons_of_mem _ hu))
    split at hu
    · rw [List.mem_singleton.1 hu]
      exact ⟨rfl, rfl⟩
    · cases hu

theorem Token.IsLexed.lexical {t : Token} (h : t.IsLexed) (hblank : t.kind ≠ .whitespace)
    (hline : t.kind ≠ .newline) : t.Lexical ∧ t.kind.isTrivia = false := by
  have htrivia : t.kind.isTrivia = false := by
    cases hk : t.kind <;> simp_all [Kind.isTrivia]
  refine ⟨?_, htrivia⟩
  obtain ⟨text, u, hu, hkind, htext⟩ := h
  rw [tokenize_eq_lex] at hu
  have hlexical := lexical_of_mem_lex hu (hkind ▸ htrivia)
  rwa [Token.Lexical, hkind, htext] at hlexical

private theorem exists_split {tokens : List Token} {i : Nat} {y : Token}
    (h : tokens[i]? = some y) : ∃ front rest, tokens = front ++ y :: rest ∧ front.length = i := by
  obtain ⟨hi, rfl⟩ := List.getElem?_eq_some_iff.1 h
  refine ⟨tokens.take i, tokens.drop (i + 1), ?_, by simp; omega⟩
  rw [← List.drop_eq_getElem_cons, List.take_append_drop]

/-- The message of a diagnostic with a hint is shown by exactly those tokens in the place of the
one that shows it that are of no expected kind. -/
private theorem mem_anchorsOf_replaced (options : ParserOptions) {front rest rest' : List Token}
    {y t : Token} {p : Problem} (h : Readable (front ++ y :: rest))
    (h' : Readable (front ++ t :: rest'))
    (hmem : (front.length, p) ∈ anchorsOf options (front ++ y :: rest)) (hp : p.expected ≠ []) :
    (∃ q, (front.length, q) ∈ anchorsOf options (front ++ t :: rest') ∧ q.message = p.message) ↔
      t.kind ∉ p.expected := by
  obtain ⟨rest₁, hindexed⟩ := indexed_append_cons front y rest
  obtain ⟨rest₂, hindexed'⟩ := indexed_append_cons front t rest'
  have hahead := h.indexed.ahead
  have hahead' := h'.indexed.ahead
  have horder := hahead ▸ inOrder_indexed (front ++ y :: rest)
  have horder' := hahead' ▸ inOrder_indexed (front ++ t :: rest')
  have htokens := hahead.symm ▸ h.indexed.lexical
  have htokens' := hahead'.symm ▸ h'.indexed.lexical
  obtain ⟨y', hy, hd⟩ := (mem_anchorsOf_iff h).1 hmem
  obtain rfl : y = y' := by simpa using hy
  constructor
  · rintro ⟨q, hq, hmessage⟩
    obtain ⟨t', ht, hd'⟩ := (mem_anchorsOf_iff h').1 hq
    obtain rfl : t = t' := by simpa using ht
    have hk : (t.atIndex front.length).kind ∉ p.expected :=
      Cursor.not_mem_expected_of_replaced (hasEnd_ofTokens h.indexed.hasEnd) htokens horder
        (hahead.trans hindexed) hp hd (hasEnd_ofTokens h'.indexed.hasEnd) htokens' horder'
        (hahead'.trans hindexed') hd' hmessage
    exact hk
  · intro hk
    refine ⟨p, (mem_anchorsOf_iff h').2 ⟨t, by simp, ?_⟩, rfl⟩
    exact Cursor.mem_events_of_replaced (hasEnd_ofTokens h.indexed.hasEnd) htokens horder
      (hahead.trans hindexed) hp hd (hasEnd_ofTokens h'.indexed.hasEnd)
      (fun u hu => (htokens' u hu).1) (hahead'.trans hindexed') hk

/-- **The hints are exact.** For every text and all options, take a diagnostic that lists expected
kinds, and put another token in the place of the one that shows it: any token but white space with
a text that a lexer can give to its kind, and another end behind it if it stands for the end. The
parser returns a result for the new list too, and in it the same message stands at the same index
if and only if the kind of the new token is not among those listed. -/
theorem expected_exact (options : ParserOptions) (text : String) :
    ∃ r anchors, AnchoredRun options (significantTokens text) r anchors ∧
      ∀ i p, (i, p) ∈ anchors → p.expected ≠ [] →
        ∀ t : Token, t.IsLexed → t.kind ≠ .whitespace → t.kind ≠ .newline → ∀ stop,
          ∃ r' anchors',
            AnchoredRun options (replaceToken (significantTokens text) i t stop) r' anchors' ∧
            ((∃ q, (i, q) ∈ anchors' ∧ q.message = p.message) ↔ t.kind ∉ p.expected) := by
  have h := readable_significantTokens text
  obtain ⟨r, hr⟩ := exists_anchoredRun options h
  refine ⟨r, _, hr, fun i p hmem hp t ht hblank hline stop => ?_⟩
  obtain ⟨y, hy, -⟩ := (mem_anchorsOf_iff h).1 hmem
  obtain ⟨front, rest, hsplit, rfl⟩ := exists_split hy
  rw [hsplit] at h hmem ⊢
  have h' := readable_replaced h (ht.lexical hblank hline) stop
  obtain ⟨r', hr'⟩ := exists_anchoredRun options h'
  rw [replaceToken_eq]
  exact ⟨r', _, hr', mem_anchorsOf_replaced options h h' hmem hp⟩

/-- In `C4 q D` a number is missing at the end. A sharp there is not wrong yet, a second name is. -/
theorem expected_exact_at_end :
    ∃ r anchors, AnchoredRun {} (significantTokens "C4 q D") r anchors ∧
      (4, .missingOctave false) ∈ anchors ∧ (Problem.missingOctave false).expected ≠ [] ∧
      (∃ r' anchors', AnchoredRun {}
          (replaceToken (significantTokens "C4 q D") 4 ⟨.accidental, "#", ⟨1, 7, 6⟩⟩ ⟨1, 8, 7⟩)
          r' anchors' ∧
        ¬∃ q, (4, q) ∈ anchors' ∧ q.message = "Expected octave number after note") ∧
      ∃ r' anchors', AnchoredRun {}
          (replaceToken (significantTokens "C4 q D") 4 ⟨.note, "E", ⟨1, 7, 6⟩⟩ ⟨1, 8, 7⟩)
          r' anchors' ∧
        ∃ q, (4, q) ∈ anchors' ∧ q.message = "Expected octave number after note" := by
  obtain ⟨r, anchors, hr, hexact⟩ := expected_exact {} "C4 q D"
  obtain ⟨s, hs, hanchors⟩ := hr.indexedRun
  have hmem : (4, .missingOctave false) ∈ anchors := by
    have hsome : (Parser.ofTokens {} (indexed (significantTokens "C4 q D"))).run.1.toOption.map
        (·.diagnostics.map fun d => (d.position.offset.toNat, d.problem)) =
          some [(4, .missingOctave false)] := by
      decide +kernel
    rw [hs] at hsome
    exact hanchors.trans (Option.some.inj hsome) ▸ List.mem_cons_self
  have hsharp : Token.IsLexed ⟨.accidental, "#", ⟨1, 7, 6⟩⟩ :=
    ⟨"#", ⟨.accidental, "#", .start⟩, by decide +kernel, rfl, rfl⟩
  have hname : Token.IsLexed ⟨.note, "E", ⟨1, 7, 6⟩⟩ :=
    ⟨"E", ⟨.note, "E", .start⟩, by decide +kernel, rfl, rfl⟩
  have hat := hexact 4 _ hmem (by decide)
  obtain ⟨r₁, anchors₁, hr₁, hiff₁⟩ := hat _ hsharp (by decide) (by decide) ⟨1, 8, 7⟩
  obtain ⟨r₂, anchors₂, hr₂, hiff₂⟩ := hat _ hname (by decide) (by decide) ⟨1, 8, 7⟩
  exact ⟨r, anchors, hr, hmem, by decide, ⟨r₁, anchors₁, hr₁, mt hiff₁.1 (by decide)⟩,
    r₂, anchors₂, hr₂, hiff₂.2 (by decide)⟩

end ScoreText
