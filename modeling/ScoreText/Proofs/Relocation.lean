import ScoreText.Proofs.Measures
import ScoreText.Proofs.Run

/-!
What a reading looks at. Of the tokens it uses their kinds and their texts, in order, up to the
first end token, and nothing else: places are only handed on to items and diagnostics. So if two
cursors have the same kinds and texts ahead up to the end, whatever stands behind them, whatever
comes after the end and whatever the places are, then the two readings have the same events, but
for the places (`Cursor.events_of_mirrors`).
-/

namespace ScoreText

/-! ## Moving things to other places -/

section Relocate

variable (f : Position → Position)

def Token.relocate (t : Token) : Token := { t with position := f t.position }

def Diagnostic.relocate (d : Diagnostic) : Diagnostic :=
  ⟨d.problem, f d.position, d.token.map (Token.relocate f)⟩

def Element.relocate : Element → Element
  | .note pitch duration p => .note pitch duration (f p)
  | .rest duration p => .rest duration (f p)

def Item.relocate : Item → Item
  | .clef c => .clef { c with position := f c.position }
  | .time t => .time { t with position := f t.position }
  | .element e => .element (e.relocate f)
  | .bar => .bar

def Event.relocate : Event → Event
  | .item i => .item (i.relocate f)
  | .stray d => .stray (d.relocate f)
  | .failed d p => .failed (d.relocate f) (f p)
  | .broken fault => .broken fault

theorem filterMap_diagnostic?_relocate (events : List Event) :
    (events.map (Event.relocate f)).filterMap Event.diagnostic? =
      (events.filterMap Event.diagnostic?).map (Diagnostic.relocate f) := by
  rw [List.filterMap_map, List.map_filterMap]
  congr 1
  funext e
  cases e <;> rfl

theorem filterMap_item?_relocate (events : List Event) :
    (events.map (Event.relocate f)).filterMap Event.item? =
      (events.filterMap Event.item?).map (Item.relocate f) := by
  rw [List.filterMap_map, List.map_filterMap]
  congr 1
  funext e
  cases e <;> rfl

/-- What is moved to where it stands is not moved. -/
theorem Event.relocate_id (e : Event) : e.relocate id = e := by
  have hdiagnostic (d : Diagnostic) : d.relocate id = d := by
    obtain ⟨problem, position, token⟩ := d
    cases token <;> rfl
  cases e with
  | item i =>
    cases i with
    | element e => cases e <;> rfl
    | clef c => rfl
    | time t => rfl
    | bar => rfl
  | stray d => exact congrArg Event.stray (hdiagnostic d)
  | failed d p => exact congrArg (Event.failed · p) (hdiagnostic d)
  | broken fault => rfl

end Relocate

/-! ## Scores at other places -/

section Scores

variable (f : Position → Position)

def Score.relocate (s : Score) : Score where
  measures := s.measures.map fun m => { m with elements := m.elements.map (Element.relocate f) }
  clef := s.clef.map fun c => { c with position := f c.position }
  time := s.time.map fun t => { t with position := f t.position }
  metadata := s.metadata

private theorem groups_map_relocate (items : List Item) :
    Item.groups (items.map (Item.relocate f)) =
      (Item.groups items).map (·.map (Element.relocate f)) := by
  induction items with
  | nil => rfl
  | cons i items ih =>
    cases i with
    | bar => simp [Item.groups, Item.relocate, ih]
    | clef c => simpa [Item.groups, Item.relocate] using ih
    | time t => simpa [Item.groups, Item.relocate] using ih
    | element e =>
      obtain ⟨g, gs, hg⟩ := List.exists_cons_of_ne_nil (groups_ne_nil items)
      simp [Item.groups, Item.relocate, ih, hg]

private theorem numberFrom_map (n : Nat) (g : List Element → List Element)
    (gs : List (List Element)) :
    Measure.numberFrom n (gs.map g) =
      (Measure.numberFrom n gs).map fun m => { m with elements := g m.elements } := by
  induction gs generalizing n with
  | nil => rfl
  | cons g gs ih => simp [Measure.numberFrom, ih]

private theorem getLast?_filterMap_relocate {α : Type} {g : Item → Option α} {h : α → α}
    (hg : ∀ i : Item, g (i.relocate f) = (g i).map h) (items : List Item) :
    ((items.map (Item.relocate f)).filterMap g).getLast? = (items.filterMap g).getLast?.map h := by
  rw [List.filterMap_map, ← List.getLast?_map, List.map_filterMap]
  congr 2
  funext i
  exact hg i

/-- The score of items at other places is their score at other places. -/
theorem relocate_ofItems (items : List Item) :
    (Score.ofItems items).relocate f = .ofItems (items.map (Item.relocate f)) := by
  have hgroups : ((Item.groups items).map (·.map (Element.relocate f))).filter (!·.isEmpty) =
      ((Item.groups items).filter (!·.isEmpty)).map (·.map (Element.relocate f)) := by
    rw [List.filter_map]
    congr 2
    funext g
    cases g <;> rfl
  have hclef (i : Item) : Item.clef? (i.relocate f) =
      (Item.clef? i).map fun c => { c with position := f c.position } := by cases i <;> rfl
  have htime (i : Item) : Item.time? (i.relocate f) =
      (Item.time? i).map fun t => { t with position := f t.position } := by cases i <;> rfl
  simp only [Score.relocate, Score.ofItems, groups_map_relocate, hgroups, numberFrom_map,
    getLast?_filterMap_relocate f hclef, getLast?_filterMap_relocate f htime]

end Scores

/-! ## Tokens up to the end -/

def upToEnd : List Token → List Token
  | [] => []
  | t :: rest => if t.kind = .eof then [t] else t :: upToEnd rest

theorem upToEnd_of_ne {t : Token} (h : t.kind ≠ .eof) (rest : List Token) :
    upToEnd (t :: rest) = t :: upToEnd rest := by
  simp [upToEnd, h]

theorem exists_eof_upToEnd {tokens : List Token} (h : ∃ t ∈ tokens, t.kind = .eof) :
    ∃ t ∈ upToEnd tokens, t.kind = .eof := by
  induction tokens with
  | nil => exact h
  | cons t rest ih =>
    by_cases hk : t.kind = .eof
    · exact ⟨t, by simp [upToEnd, hk], hk⟩
    · obtain ⟨u, hu, he⟩ := ih (by simpa [hk] using h)
      exact ⟨u, by simp [upToEnd_of_ne hk, hu], he⟩

theorem upToEnd_map_relocate (f : Position → Position) (tokens : List Token) :
    upToEnd (tokens.map (Token.relocate f)) = (upToEnd tokens).map (Token.relocate f) := by
  induction tokens with
  | nil => rfl
  | cons t rest ih =>
    by_cases hk : t.kind = .eof
    · simp [upToEnd, Token.relocate, hk]
    · simp [upToEnd, Token.relocate, hk, ih]

/-- What stands behind an end token is not reached. -/
theorem upToEnd_append_eof (front : List Token) {stop : Token} (h : stop.kind = .eof)
    (back back' : List Token) :
    upToEnd (front ++ stop :: back) = upToEnd (front ++ stop :: back') := by
  induction front with
  | nil => simp [upToEnd, h]
  | cons t front ih => simp [upToEnd, ih]

theorem upToEnd_subset (tokens : List Token) : upToEnd tokens ⊆ tokens := by
  induction tokens with
  | nil => exact List.Subset.refl _
  | cons t rest ih =>
    unfold upToEnd
    split
    · simp
    · exact List.cons_subset_cons t ih

namespace Cursor

variable {f : Position → Position}

/-! ## Where a reading goes on after a malformed item -/

theorem recover_of_stop {c : Cursor}
    (h : c.current.kind = .eof ∨ c.current.kind.startsElement = true) : c.recover = c := by
  obtain ⟨before, current, after⟩ := c
  cases after with
  | nil => rfl
  | cons u rest => exact if_pos h

theorem recover_of_pipe {c : Cursor} (h : c.current.kind = .pipe) : c.recover = c.advance := by
  obtain ⟨before, current, after⟩ := c
  cases after with
  | nil => rfl
  | cons u rest =>
    have hk : current.kind = .pipe := h
    simp [recover, resumeFrom, hk, Kind.startsElement, advance]

theorem recover_of_skipped {c : Cursor} (hend : c.current.kind ≠ .eof)
    (hstart : c.current.kind.startsElement = false) (hpipe : c.current.kind ≠ .pipe) :
    c.recover = c.advance.recover := by
  obtain ⟨before, current, after⟩ := c
  cases after with
  | nil => rfl
  | cons u rest =>
    dsimp only at hend hstart hpipe
    simp [recover, resumeFrom, hend, hstart, hpipe, advance]

/-! ## Cursors with the same ahead -/

/-- `c.Mirrors f d`: up to the first end token, `d` has ahead what `c` has ahead, with the places
moved by `f`. -/
structure Mirrors (f : Position → Position) (c d : Cursor) : Prop where
  hasEnd : c.HasEnd
  ahead : upToEnd d.ahead = (upToEnd c.ahead).map (Token.relocate f)

namespace Mirrors

variable {c d : Cursor}

theorem current (h : c.Mirrors f d) : d.current = c.current.relocate f := by
  have hhead := congrArg List.head? h.ahead
  have hfirst (e : Cursor) : (upToEnd e.ahead).head? = some e.current := by
    simp only [Cursor.ahead, upToEnd]
    split <;> rfl
  rw [hfirst, List.head?_map, hfirst] at hhead
  exact Option.some.inj hhead

theorem kind (h : c.Mirrors f d) : d.current.kind = c.current.kind := by
  rw [h.current]
  rfl

theorem text (h : c.Mirrors f d) : d.current.text = c.current.text := by
  rw [h.current]
  rfl

theorem mirrored_hasEnd (h : c.Mirrors f d) : d.HasEnd := by
  obtain ⟨t, ht, hk⟩ := exists_eof_upToEnd h.hasEnd
  refine ⟨t.relocate f, upToEnd_subset _ ?_, hk⟩
  rw [h.ahead]
  exact List.mem_map_of_mem ht

theorem advance (h : c.Mirrors f d) (hk : c.current.kind ≠ .eof) :
    c.advance.Mirrors f d.advance := by
  have hk' : d.current.kind ≠ .eof := by rwa [h.kind]
  have hc := Along.first h.hasEnd hk
  have hd := Along.first h.mirrored_hasEnd hk'
  refine ⟨hc.hasEnd, ?_⟩
  have hahead := h.ahead
  rw [hc.ahead, hd.ahead, List.singleton_append, List.singleton_append, upToEnd_of_ne hk,
    upToEnd_of_ne hk', List.map_cons] at hahead
  exact (List.cons.inj hahead).2

theorem recover (h : c.Mirrors f d) : c.recover.Mirrors f d.recover := by
  induction hn : c.ahead.length using Nat.strongRecOn generalizing c d with
  | ind n ih =>
    by_cases hstop : c.current.kind = .eof ∨ c.current.kind.startsElement = true
    · rw [recover_of_stop hstop, recover_of_stop (by rwa [h.kind])]
      exact h
    · obtain ⟨hend, hstart⟩ := not_or.1 hstop
      have hnext := h.advance hend
      by_cases hpipe : c.current.kind = .pipe
      · rw [recover_of_pipe hpipe, recover_of_pipe (by rwa [h.kind])]
        exact hnext
      · rw [Bool.not_eq_true] at hstart
        rw [recover_of_skipped hend hstart hpipe, recover_of_skipped (c := d)
          (by rwa [h.kind]) (by rwa [h.kind]) (by rwa [h.kind])]
        exact ih _ (hn ▸ (Along.first h.hasEnd hend).length_lt) hnext rfl

end Mirrors

/-! ## Attempts at an item

Two attempts are followed side by side, from reader to reader. -/

/-- Two attempts come to the same, with places moved by `f` and the values related by `g`. -/
def SameAttempt {α : Type} (f : Position → Position) (g : α → α) :
    Except Halt (α × Cursor) → Except Halt (α × Cursor) → Prop
  | .ok (a, c), .ok (b, d) => b = g a ∧ c.Mirrors f d
  | .error (.problem x c), .error (.problem y d) => y = x.relocate f ∧ c.Mirrors f d
  | .error (.fault x _), .error (.fault y _) => y = x
  | _, _ => False

section Rules

variable {α : Type} {c d : Cursor} {g : α → α}

private theorem relocate_atToken {problem : Problem} (h : c.Mirrors f d) :
    Diagnostic.atToken problem d.current =
      (Diagnostic.atToken problem c.current).relocate f := by
  rw [h.current]
  rfl

theorem same_pass {kind : Kind} {missing : Problem} {k k' : Cursor → Except Halt (α × Cursor)}
    (h : c.Mirrors f d) (hkind : kind ≠ .eof)
    (next : c.advance.Mirrors f d.advance → SameAttempt f g (k c.advance) (k' d.advance)) :
    SameAttempt f g (c.pass kind missing >>= k) (d.pass kind missing >>= k') := by
  unfold pass
  rw [h.kind]
  split
  · next hk => exact next (h.advance (by rwa [hk]))
  · exact ⟨relocate_atToken h, h⟩

theorem same_readDuration {missing : Problem}
    {k k' : Duration × Cursor → Except Halt (α × Cursor)} (h : c.Mirrors f d)
    (next : ∀ duration, c.advance.Mirrors f d.advance →
      SameAttempt f g (k (duration, c.advance)) (k' (duration, d.advance))) :
    SameAttempt f g (c.readDuration missing >>= k) (d.readDuration missing >>= k') := by
  unfold readDuration
  dsimp only
  rw [h.kind, h.text]
  split
  · next hk =>
    have hadv := h.advance (by rw [hk]; simp)
    split
    · next duration _ => exact next duration hadv
    · exact ⟨relocate_atToken h, hadv⟩
  · exact ⟨relocate_atToken h, h⟩

theorem same_readAccidental {k k' : Option Accidental × Cursor → Except Halt (α × Cursor)}
    (h : c.Mirrors f d) (absent : SameAttempt f g (k (none, c)) (k' (none, d)))
    (present : ∀ a, c.advance.Mirrors f d.advance →
      SameAttempt f g (k (some a, c.advance)) (k' (some a, d.advance))) :
    SameAttempt f g (c.readAccidental >>= k) (d.readAccidental >>= k') := by
  unfold readAccidental
  dsimp only
  rw [h.kind, h.text]
  split
  · next hk =>
    split
    · next a _ => exact present a (h.advance (by rw [hk]; simp))
    · exact rfl
  · exact absent

theorem same_readOctave {afterAccidental : Bool} {k k' : Nat × Cursor → Except Halt (α × Cursor)}
    (h : c.Mirrors f d)
    (next : ∀ n, c.advance.Mirrors f d.advance →
      SameAttempt f g (k (n, c.advance)) (k' (n, d.advance))) :
    SameAttempt f g (c.readOctave afterAccidental >>= k) (d.readOctave afterAccidental >>= k') := by
  unfold readOctave
  dsimp only
  rw [h.kind, h.text]
  split
  · next hk =>
    have hadv := h.advance (by rw [hk]; simp)
    split
    · exact ⟨relocate_atToken h, hadv⟩
    · split
      · exact rfl
      · next n _ =>
        split
        · exact ⟨relocate_atToken h, hadv⟩
        · exact next n.toNat hadv
  · exact ⟨relocate_atToken h, h⟩

end Rules

section Items

variable {c d : Cursor}

theorem same_readNote (h : c.Mirrors f d) (hk : c.current.kind ≠ .eof) :
    SameAttempt f (Element.relocate f) c.readNote d.readNote := by
  have hnext := h.advance hk
  unfold readNote
  dsimp only
  rw [h.text]
  split
  · exact ⟨relocate_atToken h, hnext⟩
  · refine same_readAccidental hnext ?_ fun a hsign => ?_
    · refine same_readOctave hnext fun o hoctave => ?_
      refine same_readDuration hoctave fun duration hcode => ?_
      exact ⟨by rw [h.current]; rfl, hcode⟩
    · refine same_readOctave hsign fun o hoctave => ?_
      refine same_readDuration hoctave fun duration hcode => ?_
      exact ⟨by rw [h.current]; rfl, hcode⟩

theorem same_readRest (h : c.Mirrors f d) (hk : c.current.kind ≠ .eof) :
    SameAttempt f (Element.relocate f) c.readRest d.readRest := by
  unfold readRest
  refine same_readDuration (h.advance hk) fun duration hcode => ?_
  exact ⟨by rw [h.current]; rfl, hcode⟩

theorem same_readClef (h : c.Mirrors f d) (hk : c.current.kind ≠ .eof) :
    SameAttempt f (fun clef => { clef with position := f clef.position }) c.readClef
      d.readClef := by
  unfold readClef
  refine same_pass (h.advance hk) (by simp) fun hname => ?_
  dsimp only
  rw [hname.kind, hname.text]
  split
  · next hkind =>
    have hadv := hname.advance (by rw [hkind]; simp)
    split
    · exact ⟨by rw [h.current]; rfl, hadv⟩
    · exact ⟨relocate_atToken hname, hadv⟩
  · exact ⟨relocate_atToken hname, hname⟩

private theorem timeSignature?_relocate (n d : String) (p : Position) :
    timeSignature? n d (f p) =
      (timeSignature? n d p).map fun t => { t with position := f t.position } := by
  unfold timeSignature?
  cases Text.integer? n with
  | none => rfl
  | some a =>
    cases Text.integer? d with
    | none => rfl
    | some b =>
      simp only [Option.bind_eq_bind, Option.bind_some]
      split <;> rfl

theorem same_readTime (h : c.Mirrors f d) (hk : c.current.kind ≠ .eof) :
    SameAttempt f (fun time => { time with position := f time.position }) c.readTime
      d.readTime := by
  unfold readTime
  dsimp only
  refine same_pass (h.advance hk) (by simp) fun habove => ?_
  refine same_pass habove (by simp) fun hslash => ?_
  refine same_pass hslash (by simp) fun hbelow => ?_
  refine same_pass hbelow (by simp) fun hnext => ?_
  have hplace : d.current.position = f c.current.position := by
    rw [h.current]
    rfl
  rw [habove.text, hbelow.text, hplace, timeSignature?_relocate]
  cases timeSignature? c.advance.advance.current.text
      c.advance.advance.advance.advance.current.text c.current.position with
  | some time => exact ⟨rfl, hnext⟩
  | none => exact ⟨relocate_atToken h, hnext⟩

end Items

/-! ## Steps and runs -/

/-- Two steps do the same, with places moved by `f`. -/
inductive SameStep (f : Position → Position) : Step → Step → Prop
  | item {i : Item} {c d : Cursor} : c.Mirrors f d → SameStep f (.item i c) (.item (i.relocate f) d)
  | stray {x : Diagnostic} {c d : Cursor} :
      c.Mirrors f d → SameStep f (.stray x c) (.stray (x.relocate f) d)
  | failed {x : Diagnostic} {c d : Cursor} :
      c.Mirrors f d → SameStep f (.failed x c) (.failed (x.relocate f) d)
  | broken {fault : TokenFault} {c d : Cursor} : SameStep f (.broken fault c) (.broken fault d)

private theorem sameStep_of_attempt {α : Type} {g : α → α} {toItem : α → Item}
    {x y : Except Halt (α × Cursor)} (h : SameAttempt f g x y)
    (hg : ∀ a, toItem (g a) = (toItem a).relocate f) :
    SameStep f (.ofAttempt toItem x) (.ofAttempt toItem y) := by
  unfold SameAttempt at h
  split at h
  · obtain ⟨rfl, hm⟩ := h
    simp only [Step.ofAttempt, hg]
    exact .item hm
  · obtain ⟨rfl, hm⟩ := h
    exact .failed hm
  · obtain rfl := h
    exact .broken
  · exact h.elim

private theorem sameStep_skip {c d : Cursor} (h : c.Mirrors f d) (hk : c.current.kind ≠ .eof)
    (problem : Problem) : SameStep f (c.skip problem) (d.skip problem) := by
  unfold skip
  rw [relocate_atToken h]
  exact .stray (h.advance hk)

/-- Steps from cursors with the same ahead do the same. -/
theorem step_of_mirrors {c d : Cursor} (h : c.Mirrors f d) (hk : c.current.kind ≠ .eof) :
    SameStep f c.step d.step := by
  unfold step
  rw [h.kind]
  split
  · unfold stepIdentifier
    dsimp only
    rw [h.text]
    split
    · exact sameStep_of_attempt (same_readClef h hk) fun _ => rfl
    · split
      · exact sameStep_of_attempt (same_readTime h hk) fun _ => rfl
      · exact sameStep_skip h hk _
  · exact sameStep_of_attempt (same_readNote h hk) fun _ => rfl
  · exact sameStep_of_attempt (same_readRest h hk) fun _ => rfl
  · exact .item (h.advance hk)
  · exact sameStep_skip h hk _

private theorem events_succ_of_mirrors {c d : Cursor} (h : c.Mirrors f d)
    (hk : c.current.kind ≠ .eof) (limit : Nat) :
    ∃ s, SameStep f c.step s ∧ d.events (limit + 1) =
      match s with
      | .item i next => .item i :: next.events (limit + 1)
      | .stray x next => .stray x :: next.events limit
      | .failed x next => .failed x next.current.position :: next.recover.events limit
      | .broken fault _ => [.broken fault] :=
  ⟨d.step, step_of_mirrors h hk, events_succ limit h.mirrored_hasEnd (by rwa [h.kind])⟩

/-- **Readings from cursors with the same ahead** have the same events, but for the places. -/
theorem events_of_mirrors {c d : Cursor} (h : c.Mirrors f d) (limit : Nat) :
    d.events limit = (c.events limit).map (Event.relocate f) := by
  have hend := h.hasEnd
  induction limit, c, hend using events_induction generalizing d with
  | stop c _ => simp [events_zero]
  | atEnd limit c _ hk =>
    rw [events_of_eof limit hk, events_of_eof limit (by rwa [h.kind])]
    rfl
  | item limit c _ run i next ha hp hs he ih =>
    obtain ⟨s, hstep, hd⟩ := events_succ_of_mirrors h (kind_ne_eof_of_events he) limit
    rw [hs] at hstep
    cases hstep with
    | item hnext =>
      rw [hd, he, List.map_cons, ← ih hnext]
      rfl
  | stray limit c _ x next ha ho hpipe hs he ih =>
    obtain ⟨s, hstep, hd⟩ := events_succ_of_mirrors h (kind_ne_eof_of_events he) limit
    rw [hs] at hstep
    cases hstep with
    | stray hnext =>
      rw [hd, he, List.map_cons, ← ih hnext]
      rfl
  | failed limit c _ run x next ha ho hs he ih =>
    obtain ⟨s, hstep, hd⟩ := events_succ_of_mirrors h (kind_ne_eof_of_events he) limit
    rw [hs] at hstep
    cases hstep with
    | failed hnext =>
      rw [hd, he, List.map_cons, ← ih hnext.recover]
      dsimp only
      rw [hnext.current]
      rfl
  | broken limit c _ fault t ht hnot hs he =>
    obtain ⟨s, hstep, hd⟩ := events_succ_of_mirrors h (kind_ne_eof_of_events he) limit
    rw [hs] at hstep
    cases hstep with
    | broken =>
      rw [hd, he]
      rfl

end Cursor

end ScoreText
