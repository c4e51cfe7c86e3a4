import ScoreText.Proofs.Markdown

/-!
Where a script element ends, by the rules of the HTML standard for script content. An end tag closes
the element, unless the content has opened a comment and, inside it, the tag of another script: then
the end tag belongs to that other script.

A text without `</` ends at the end tag that stands behind it, except when it leaves a comment open
in which a script tag stands (`scriptElement_closed_iff`). The data of a page can be such a text:
it comes from titles and names, and only `</` is kept out of it.
-/

namespace ScoreText

namespace ScriptElement

/-! ## Script content -/

/-- The modes of script content: outside of comments, inside of a comment, and inside of a script
that stands in a comment. -/
inductive Mode
  | plain
  | escaped
  | doubleEscaped
  deriving DecidableEq, Repr

def endsName (c : Char) : Bool :=
  c = ' ' || c = '\t' || c = '\n' || c = '\x0c' || c = '/' || c = '>'

/-- Whether a tag is complete with the character `c` behind the text read so far. The case of its
letters does not matter. -/
def completes (tag read : List Char) (c : Char) : Bool :=
  endsName c && tag.isSuffixOf (read.map Char.toLower)

def startTag : List Char := ['<', 's', 'c', 'r', 'i', 'p', 't']
def closingTag : List Char := ['<', '/', 's', 'c', 'r', 'i', 'p', 't']
def commentStart : List Char := ['<', '!', '-', '-']
def commentEnd : List Char := ['-', '-', '>']

/-- The mode after one more character, or nothing if the element is closed by it. -/
def Mode.next (mode : Mode) (read : List Char) (c : Char) : Option Mode :=
  match mode with
  | .plain =>
    if completes closingTag read c then none
    else if commentStart.isSuffixOf (read ++ [c]) then some .escaped
    else some .plain
  | .escaped =>
    if completes closingTag read c then none
    else if commentEnd.isSuffixOf (read ++ [c]) then some .plain
    else if completes startTag read c then some .doubleEscaped
    else some .escaped
  | .doubleEscaped =>
    if completes closingTag read c then some .escaped
    else if commentEnd.isSuffixOf (read ++ [c]) then some .plain
    else some .doubleEscaped

/-- The content of an element from a place inside of it on, and the text behind its end tag. -/
def readFrom (mode : Mode) (read : List Char) : List Char → Option (List Char × List Char)
  | [] => none
  | c :: rest =>
    match mode.next read c with
    | some mode' => readFrom mode' (read ++ [c]) rest
    | none => some (read.take (read.length - closingTag.length), rest)

/-- The content of the element whose start tag stands in front of a text, and the text behind its
end tag. -/
def content (text : List Char) : Option (List Char × List Char) := readFrom .plain [] text

/-- `ScriptTag cs`: the start tag of a script stands in `cs`. -/
def ScriptTag (cs : List Char) : Prop :=
  ∃ before c after, cs = before ++ c :: after ∧ completes startTag before c = true

/-- `Opens cs inside`: a comment is opened in `cs` and not closed behind; `inside` is its text. The
two dashes that open it may also be those that close it. -/
def Opens (cs inside : List Char) : Prop :=
  commentStart ++ inside <:+ cs ∧ ¬ commentEnd <:+: ['-', '-'] ++ inside

/-- `Hides cs`: an end tag behind `cs` belongs to a script inside of a comment. -/
def Hides (cs : List Char) : Prop := ∃ inside, Opens cs inside ∧ ScriptTag inside

/-! ## One more character -/

/-- A text without a character ends within what stands behind that character. -/
theorem suffix_of_not_mem {p a b : List Char} {d : Char} (hd : d ∉ p) (h : p <:+ a ++ d :: b) :
    p <:+ b := by
  rcases Nat.lt_or_ge b.length p.length with hlt | hge
  · have hsuffix : d :: b <:+ p :=
      List.suffix_of_suffix_length_le (List.suffix_append _ _) h hlt
    exact absurd (hsuffix.subset (by simp)) hd
  · exact List.suffix_of_suffix_length_le h ((List.suffix_cons d b).trans (List.suffix_append _ _))
      hge

theorem completes_iff {tag read : List Char} {c : Char} : completes tag read c = true ↔
    endsName c = true ∧ tag <:+ read.map Char.toLower := by
  rw [completes, Bool.and_eq_true, List.isSuffixOf_iff_suffix]

theorem completes_mono {tag read more : List Char} {c : Char} (h : completes tag read c = true)
    (hread : read <:+ more) : completes tag more c = true := by
  rw [completes_iff] at h ⊢
  exact ⟨h.1, h.2.trans (hread.map _)⟩

theorem not_scriptTag_nil : ¬ ScriptTag [] := by
  rintro ⟨before, c, after, heq, -⟩
  simp at heq

theorem scriptTag_concat_iff {cs : List Char} {c : Char} :
    ScriptTag (cs ++ [c]) ↔ ScriptTag cs ∨ completes startTag cs c = true := by
  constructor
  · rintro ⟨before, d, after, heq, htag⟩
    rcases List.eq_nil_or_concat after with rfl | ⟨after, e, rfl⟩
    · obtain ⟨rfl, hd⟩ := List.append_inj' heq rfl
      rw [List.singleton_inj.1 hd]
      exact .inr htag
    · rw [List.concat_eq_append, ← List.cons_append, ← List.append_assoc] at heq
      obtain ⟨rfl, -⟩ := List.append_inj' heq rfl
      exact .inl ⟨before, d, after, rfl, htag⟩
  · rintro (⟨before, d, after, rfl, htag⟩ | htag)
    · exact ⟨before, d, after ++ [c], by simp, htag⟩
    · exact ⟨cs, c, [], rfl, htag⟩

/-- A comment that is open after one more character was opened just now, or was open and is not
closed by it. -/
theorem opens_concat_iff {cs inside : List Char} {c : Char} : Opens (cs ++ [c]) inside ↔
    inside = [] ∧ commentStart <:+ cs ++ [c] ∨
      ∃ before, inside = before ++ [c] ∧ Opens cs before ∧ ¬ commentEnd <:+ cs ++ [c] := by
  -- What is read behind the two dashes of the comment's start ends as the whole text does.
  have hdashes {before : List Char} (h : commentStart ++ before <:+ cs) :
      ['-', '-'] ++ before ++ [c] <:+ cs ++ [c] := by
    have hstart : ['-', '-'] ++ before <:+ commentStart ++ before := ⟨['<', '!'], rfl⟩
    exact List.suffix_concat_iff.2 (.inr ⟨_, rfl, hstart.trans h⟩)
  constructor
  · rintro ⟨hstart, hend⟩
    rcases List.eq_nil_or_concat inside with rfl | ⟨before, d, rfl⟩
    · exact .inl ⟨rfl, by simpa using hstart⟩
    · rw [List.concat_eq_append, ← List.append_assoc] at hstart hend
      rcases List.suffix_concat_iff.1 hstart with hnil | ⟨t, heq, ht⟩
      · simp at hnil
      · obtain ⟨rfl, hd⟩ := List.append_inj' heq rfl
        obtain rfl := List.singleton_inj.1 hd
        refine .inr ⟨before, List.concat_eq_append, ⟨ht, fun hwithin => hend ?_⟩,
          fun hsuffix => hend ?_⟩
        · exact List.infix_concat_iff.2 (.inr hwithin)
        · have hlast := List.suffix_of_suffix_length_le hsuffix (hdashes ht) (by simp [commentEnd])
          exact hlast.isInfix
  · rintro (⟨rfl, hstart⟩ | ⟨before, rfl, ⟨hstart, hend⟩, hopen⟩)
    · exact ⟨by simpa using hstart, by decide⟩
    · refine ⟨?_, ?_⟩
      · rw [← List.append_assoc]
        exact List.suffix_concat_iff.2 (.inr ⟨_, rfl, hstart⟩)
      · rw [← List.append_assoc, List.infix_concat_iff, not_or]
        exact ⟨fun hlast => hopen (hlast.trans (hdashes hstart)), hend⟩

theorem not_suffix_of_last {p : List Char} {d c : Char} (h : c ≠ d) (cs : List Char) :
    ¬ p ++ [d] <:+ cs ++ [c] := by
  intro hsuffix
  rcases List.suffix_concat_iff.1 hsuffix with hnil | ⟨t, heq, -⟩
  · simp at hnil
  · obtain ⟨-, hlast⟩ := List.append_inj' heq rfl
    exact h (List.singleton_inj.1 hlast).symm

/-! ## Texts without end tags -/

def Mode.Describes (mode : Mode) (cs : List Char) : Prop :=
  match mode with
  | .plain => ¬ ∃ inside, Opens cs inside
  | .escaped => (∃ inside, Opens cs inside) ∧ ¬ Hides cs
  | .doubleEscaped => Hides cs

/-- An end tag starts with `</`, in whatever case it is written. -/
theorem not_completes_closingTag {cs : List Char} (h : ¬ ['<', '/'] <:+: cs) (c : Char) :
    completes closingTag cs c = false := by
  rw [Bool.eq_false_iff]
  intro hcompletes
  obtain ⟨before, hbefore⟩ := (completes_iff.1 hcompletes).2
  obtain ⟨a, tag, rfl, -, htag⟩ := List.map_eq_append_iff.1 hbefore.symm
  obtain ⟨x, tag, rfl, hx, htag⟩ := List.map_eq_cons_iff.1 htag
  obtain ⟨y, tag, rfl, hy, -⟩ := List.map_eq_cons_iff.1 htag
  rw [Text.eq_of_toLower_eq (by decide) hx, Text.eq_of_toLower_eq (by decide) hy] at h
  exact h ⟨a, tag, by simp⟩

/-- A comment that ends here is no longer open. -/
private theorem describes_plain {cs : List Char} {c : Char} (h : commentEnd <:+ cs ++ [c]) :
    Mode.plain.Describes (cs ++ [c]) := by
  rintro ⟨inside, hopens⟩
  rcases opens_concat_iff.1 hopens with ⟨-, hstart⟩ | ⟨before, -, -, hopen⟩
  · rcases List.suffix_concat_iff.1 h with hnil | ⟨t, heq, -⟩
    · cases hnil
    · obtain ⟨-, hlast⟩ := List.append_inj' (show ['-', '-'] ++ ['>'] = t ++ [c] from heq) rfl
      rw [← List.singleton_inj.1 hlast] at hstart
      have hsuffix : ['<', '!', '-'] ++ ['-'] <:+ cs ++ ['>'] := hstart
      exact not_suffix_of_last (by decide) cs hsuffix
  · exact hopen h

/-- A script tag that is completed while a comment is open stands in the comment. -/
private theorem completes_within {cs inside : List Char} {c : Char} (h : Opens cs inside)
    (htag : completes startTag cs c = true) : completes startTag inside c = true := by
  rw [completes_iff] at htag ⊢
  obtain ⟨before, rfl⟩ := h.1
  refine ⟨htag.1, ?_⟩
  have hsplit : (before ++ (commentStart ++ inside)).map Char.toLower =
      (before ++ ['<', '!', '-']).map Char.toLower ++ '-' :: inside.map Char.toLower := by
    simp [commentStart]
  rw [hsplit] at htag
  exact suffix_of_not_mem (by decide) htag.2

/-- **One character.** As long as no end tag is read, the mode follows what it says. -/
theorem describes_next {mode : Mode} {cs : List Char} (h : mode.Describes cs) {c : Char}
    (hclosed : completes closingTag cs c = false) :
    ∃ mode', mode.next cs c = some mode' ∧ mode'.Describes (cs ++ [c]) := by
  cases mode with
  | plain =>
    by_cases hstart : commentStart.isSuffixOf (cs ++ [c]) = true
    · refine ⟨.escaped, by simp [Mode.next, hclosed, hstart], ⟨[], ?_⟩, ?_⟩
      · exact opens_concat_iff.2 (.inl ⟨rfl, List.isSuffixOf_iff_suffix.1 hstart⟩)
      · rintro ⟨inside, hopens, htag⟩
        rcases opens_concat_iff.1 hopens with ⟨rfl, -⟩ | ⟨before, -, hbefore, -⟩
        · exact not_scriptTag_nil htag
        · exact h ⟨before, hbefore⟩
    · refine ⟨.plain, by simp [Mode.next, hclosed, hstart], ?_⟩
      rintro ⟨inside, hopens⟩
      rcases opens_concat_iff.1 hopens with ⟨-, hhere⟩ | ⟨before, -, hbefore, -⟩
      · exact hstart (List.isSuffixOf_iff_suffix.2 hhere)
      · exact h ⟨before, hbefore⟩
  | escaped =>
    obtain ⟨⟨before, hbefore⟩, hhides⟩ := h
    by_cases hend : commentEnd.isSuffixOf (cs ++ [c]) = true
    · exact ⟨.plain, by simp [Mode.next, hclosed, hend],
        describes_plain (List.isSuffixOf_iff_suffix.1 hend)⟩
    · have hopen := mt List.isSuffixOf_iff_suffix.2 hend
      have hopens : Opens (cs ++ [c]) (before ++ [c]) :=
        opens_concat_iff.2 (.inr ⟨before, rfl, hbefore, hopen⟩)
      by_cases htag : completes startTag cs c = true
      · refine ⟨.doubleEscaped, by simp [Mode.next, hclosed, hend, htag], before ++ [c], hopens, ?_⟩
        exact scriptTag_concat_iff.2 (.inr (completes_within hbefore htag))
      · refine ⟨.escaped, by simp [Mode.next, hclosed, hend, htag], ⟨_, hopens⟩, ?_⟩
        rintro ⟨inside, hinside, hscript⟩
        rcases opens_concat_iff.1 hinside with ⟨rfl, -⟩ | ⟨before, rfl, hbefore, -⟩
        · exact not_scriptTag_nil hscript
        · rcases scriptTag_concat_iff.1 hscript with hscript | hscript
          · exact hhides ⟨before, hbefore, hscript⟩
          · exact htag (completes_mono hscript ((List.suffix_append _ _).trans hbefore.1))
  | doubleEscaped =>
    obtain ⟨before, hbefore, hscript⟩ := h
    by_cases hend : commentEnd.isSuffixOf (cs ++ [c]) = true
    · exact ⟨.plain, by simp [Mode.next, hclosed, hend],
        describes_plain (List.isSuffixOf_iff_suffix.1 hend)⟩
    · have hopen := mt List.isSuffixOf_iff_suffix.2 hend
      refine ⟨.doubleEscaped, by simp [Mode.next, hclosed, hend], before ++ [c], ?_, ?_⟩
      · exact opens_concat_iff.2 (.inr ⟨before, rfl, hbefore, hopen⟩)
      · exact scriptTag_concat_iff.2 (.inl hscript)

/-- **A text.** A text without `</` closes nothing, and the mode behind it follows what it says. -/
theorem readFrom_append {mode : Mode} {cs text : List Char} (h : mode.Describes cs)
    (hclosed : ¬ ['<', '/'] <:+: cs ++ text) (rest : List Char) :
    ∃ mode', readFrom mode cs (text ++ rest) = readFrom mode' (cs ++ text) rest ∧
      mode'.Describes (cs ++ text) := by
  induction text generalizing mode cs with
  | nil => exact ⟨mode, by simp, by simpa using h⟩
  | cons c text ih =>
    have hcs : ¬ ['<', '/'] <:+: cs := fun hwithin =>
      hclosed (hwithin.trans (List.infix_append' [] _ _))
    obtain ⟨mode', hnext, hmode'⟩ := describes_next h (not_completes_closingTag hcs c)
    obtain ⟨mode'', hread, hmode''⟩ := ih hmode' (by simpa using hclosed)
    refine ⟨mode'', ?_, by simpa using hmode''⟩
    rw [List.cons_append, readFrom, hnext]
    simpa using hread

/-! ## The end tag -/

/-- A character that ends no tag, no comment and opens none changes nothing. -/
theorem next_of_inner {read : List Char} {c : Char} (hdash : c ≠ '-') (hangle : c ≠ '>')
    (hclose : completes closingTag read c = false) (hstart : completes startTag read c = false)
    (mode : Mode) : mode.next read c = some mode := by
  have hopen : commentStart.isSuffixOf (read ++ [c]) = false := by
    rw [Bool.eq_false_iff, Ne, List.isSuffixOf_iff_suffix]
    exact not_suffix_of_last (p := ['<', '!', '-']) hdash read
  have hend : commentEnd.isSuffixOf (read ++ [c]) = false := by
    rw [Bool.eq_false_iff, Ne, List.isSuffixOf_iff_suffix]
    exact not_suffix_of_last (p := ['-', '-']) hangle read
  cases mode <;> simp [Mode.next, hopen, hend, hclose, hstart]

theorem readFrom_cons_of_next {mode mode' : Mode} {read : List Char} {c : Char}
    (h : mode.next read c = some mode') (rest : List Char) :
    readFrom mode read (c :: rest) = readFrom mode' (read ++ [c]) rest := by
  rw [readFrom, h]

/-- Letters and the like change nothing. -/
theorem readFrom_of_plain {text : List Char}
    (h : ∀ c ∈ text, c ≠ '-' ∧ c ≠ '>' ∧ endsName c = false) (mode : Mode)
    (read rest : List Char) :
    readFrom mode read (text ++ rest) = readFrom mode (read ++ text) rest := by
  induction text generalizing read with
  | nil => simp
  | cons c text ih =>
    obtain ⟨⟨hdash, hangle, hname⟩, htext⟩ := List.forall_mem_cons.1 h
    have hcompletes (tag : List Char) : completes tag read c = false := by
      rw [completes, hname, Bool.false_and]
    have hnext := next_of_inner hdash hangle (hcompletes _) (hcompletes _) mode
    rw [List.cons_append, readFrom_cons_of_next hnext, ih htext, List.append_assoc]
    rfl

/-- No tag is completed by the slash of an end tag. -/
private theorem not_completes_of_open (tag read : List Char) {d : Char} (h : d ≠ '<') (c : Char) :
    completes (tag ++ [d]) (read ++ ['<']) c = false := by
  rw [Bool.eq_false_iff]
  intro hcompletes
  have hsuffix := (completes_iff.1 hcompletes).2
  rw [List.map_append] at hsuffix
  exact not_suffix_of_last (show '<'.toLower ≠ d from h.symm) _ hsuffix

/-- The end tag is read up to its last character without any change. -/
theorem readFrom_closingTag (mode : Mode) (read rest : List Char) :
    readFrom mode read (closingTag ++ rest) = readFrom mode (read ++ closingTag) rest := by
  have hopen := @readFrom_of_plain ['<'] (by simp [endsName]) mode read
  have hletters := @readFrom_of_plain ['s', 'c', 'r', 'i', 'p', 't'] (by simp [endsName]) mode
    (read ++ ['<'] ++ ['/'])
  have hslash := @next_of_inner (read ++ ['<']) '/' (by decide) (by decide)
    (not_completes_of_open ['<', '/', 's', 'c', 'r', 'i', 'p'] read (d := 't') (by decide) '/')
    (not_completes_of_open ['<', 's', 'c', 'r', 'i', 'p'] read (d := 't') (by decide) '/') mode
  calc readFrom mode read (closingTag ++ rest)
      = readFrom mode (read ++ ['<']) ('/' :: (['s', 'c', 'r', 'i', 'p', 't'] ++ rest)) := hopen _
    _ = readFrom mode (read ++ ['<'] ++ ['/']) (['s', 'c', 'r', 'i', 'p', 't'] ++ rest) :=
      readFrom_cons_of_next hslash _
    _ = readFrom mode (read ++ ['<'] ++ ['/'] ++ ['s', 'c', 'r', 'i', 'p', 't']) rest := hletters _
    _ = readFrom mode (read ++ closingTag) rest := by simp [closingTag]

/-- The content of an element takes in all that was read, up to an end tag. -/
theorem length_le_of_readFrom {mode : Mode} {read text cs rest : List Char}
    (h : readFrom mode read text = some (cs, rest)) :
    read.length ≤ cs.length + closingTag.length := by
  induction text generalizing mode read with
  | nil => cases h
  | cons c text ih =>
    rw [readFrom] at h
    split at h
    · have hmore := ih h
      simp only [List.length_append, List.length_singleton] at hmore
      omega
    · obtain ⟨rfl, -⟩ := Prod.mk.inj (Option.some.inj h)
      simp only [List.length_take]
      omega

/-- **Where the element ends.** A text without `</` is the content of the element that an end tag
behind it closes, unless it hides the end tag. -/
theorem content_eq_iff {cs : List Char} (h : ¬ ['<', '/'] <:+: cs) (rest : List Char) :
    content (cs ++ (endTag ++ rest)) = some (cs, rest) ↔ ¬ Hides cs := by
  have hstart : Mode.plain.Describes [] := by
    rintro ⟨inside, hopens, -⟩
    simp [commentStart] at hopens
  have hend : endTag = closingTag ++ ['>'] := by
    unfold endTag
    exact toList_of_eq rfl
  obtain ⟨mode, hread, hmode⟩ := readFrom_append hstart h (endTag ++ rest)
  have hcontent : content (cs ++ (endTag ++ rest)) =
      readFrom mode (cs ++ closingTag) ('>' :: rest) := by
    rw [content, hread, hend, List.append_assoc, readFrom_closingTag]
    rfl
  have hcompletes : completes closingTag (cs ++ closingTag) '>' = true := by
    rw [completes_iff, List.map_append]
    exact ⟨rfl, List.suffix_append _ _⟩
  have hclose {mode : Mode} (hnext : mode.next (cs ++ closingTag) '>' = none) :
      readFrom mode (cs ++ closingTag) ('>' :: rest) = some (cs, rest) := by
    simp [readFrom, hnext]
  rw [hcontent]
  cases mode with
  | plain =>
    have hhides : ¬ Hides cs := fun ⟨inside, hopens, _⟩ => hmode ⟨inside, hopens⟩
    exact iff_of_true (hclose (by simp [Mode.next, hcompletes])) hhides
  | escaped => exact iff_of_true (hclose (by simp [Mode.next, hcompletes])) hmode.2
  | doubleEscaped =>
    have hnext : Mode.doubleEscaped.next (cs ++ closingTag) '>' = some .escaped := by
      simp [Mode.next, hcompletes]
    rw [readFrom_cons_of_next hnext]
    refine iff_of_false ?_ (not_not_intro hmode)
    intro hclosed
    have hlength := length_le_of_readFrom hclosed
    simp only [List.length_append, List.length_singleton] at hlength
    omega

/-- A comment with a script tag hides the end tag if no dash stands behind. -/
theorem hides_of_split {before after : List Char} (h : '-' ∉ after) :
    Hides (before ++ (commentStart ++ (startTag ++ '>' :: after))) := by
  refine ⟨startTag ++ '>' :: after, ⟨List.suffix_append _ _, ?_⟩, startTag, '>', after, rfl, rfl⟩
  intro hend
  have hafter : commentEnd <:+: after := by
    simpa [List.infix_cons_iff, commentEnd, startTag] using hend
  exact h (hafter.subset (by simp [commentEnd]))

end ScriptElement

/-! ## The data of a page -/

/-- The content of the data element of a page by the rules for script content, and the text behind
the end tag that closes it. -/
def scriptContent (page : List Char) : Option (List Char × List Char) :=
  (cutAt dataTag page).bind fun parts => ScriptElement.content parts.2

theorem scriptContent_markdownPage_iff (settings : Settings) (title : String) (d : Document) :
    scriptContent (markdownPage settings title d).toList =
        some ((d.scriptData settings.width).toList, brokenLines drawingScript) ↔
      ¬ ScriptElement.Hides (d.scriptData settings.width).toList := by
  obtain ⟨front, hfront⟩ := cutAt_markdownPage settings title d
  rw [scriptContent, hfront, Option.bind_some]
  exact ScriptElement.content_eq_iff (d.not_infix_scriptData settings.width) _

/-- **Where the data of a page ends.** If its numbers can be written, a document is drawn by a page
whose data element is closed by the end tag right behind the data, exactly if the data does not
leave a comment open in which the tag of a script stands. -/
theorem scriptElement_closed_iff (settings : Settings) (title : String) (d : Document)
    (h : ∀ n ∈ d.numerals settings.width, Text.isWritable n = true) :
    ∃ page, renderMarkdown settings title d = .ok page ∧
      (scriptContent page.toList =
          some ((d.scriptData settings.width).toList, brokenLines drawingScript) ↔
        ¬ ScriptElement.Hides (d.scriptData settings.width).toList) :=
  ⟨_, renderMarkdown_of_writable title h, scriptContent_markdownPage_iff settings title d⟩

def emptyDocument (title : String) : Document where
  title := title
  clef := "treble"
  timeSignature := "4/4"
  beats := 4
  beatValue := 4
  measures := []

theorem scriptElement_closed_iff_at_comment :
    (∀ n ∈ (emptyDocument "<!-- -->").numerals 800, Text.isWritable n = true) ∧
      ∃ page, renderMarkdown {} "Song" (emptyDocument "<!-- -->") = .ok page ∧
        (scriptContent page.toList =
            some (((emptyDocument "<!-- -->").scriptData 800).toList, brokenLines drawingScript) ↔
          ¬ ScriptElement.Hides ((emptyDocument "<!-- -->").scriptData 800).toList) := by
  have h : ∀ n ∈ (emptyDocument "<!-- -->").numerals 800, Text.isWritable n = true := by
    decide +kernel
  exact ⟨h, scriptElement_closed_iff {} "Song" (emptyDocument "<!-- -->") h⟩

private def laterFields (d : Document) (width : Nat) : List (String × Payload) := [
  ("clef", .text d.clef),
  ("time_signature", .text d.timeSignature),
  ("beats", .integer d.beats),
  ("beat_value", .integer d.beatValue),
  ("measures", .list (d.measures.map StaveMeasure.toPayload)),
  ("width", .integer width)]

private theorem hides_of_title :
    ScriptElement.Hides ((emptyDocument "<!--<script>").scriptData 800).toList := by
  have htitle : Payload.fieldText ("title", .text "<!--<script>") =
      ['"', 't', 'i', 't', 'l', 'e', '"', ':', '"'] ++
        (ScriptElement.commentStart ++ (ScriptElement.startTag ++ ['>', '"'])) := by
    decide +kernel
  have hlater : '-' ∉ (laterFields (emptyDocument "<!--<script>") 800).flatMap fun f =>
      ',' :: Payload.fieldText f := by
    decide +kernel
  have hdata : ((emptyDocument "<!--<script>").scriptData 800).toList =
      '{' :: (Payload.fieldText ("title", .text "<!--<script>") ++
        ((laterFields (emptyDocument "<!--<script>") 800).flatMap fun f =>
          ',' :: Payload.fieldText f) ++ ['}']) := by
    rw [Document.toList_scriptData, Document.toPayload, Payload.safeText_record, List.map_cons,
      Json.intercalate_cons, List.flatMap_map]
    rfl
  have hafter : '-' ∉ '"' :: (((laterFields (emptyDocument "<!--<script>") 800).flatMap fun f =>
      ',' :: Payload.fieldText f) ++ ['}']) := by
    simp only [List.mem_cons, List.mem_append, hlater, List.not_mem_nil, false_or, or_false]
    decide
  have hhides := @ScriptElement.hides_of_split
    ('{' :: ['"', 't', 'i', 't', 'l', 'e', '"', ':', '"']) _ hafter
  rw [hdata, htitle]
  simpa only [List.append_assoc, List.cons_append, List.nil_append] using hhides

/-- A title can hide the end tag of the data. -/
theorem scriptElement_not_closed :
    (∀ n ∈ (emptyDocument "<!--<script>").numerals 800, Text.isWritable n = true) ∧
      ∃ page, renderMarkdown {} "Song" (emptyDocument "<!--<script>") = .ok page ∧
        scriptContent page.toList ≠
          some (((emptyDocument "<!--<script>").scriptData 800).toList,
            brokenLines drawingScript) := by
  have h : ∀ n ∈ (emptyDocument "<!--<script>").numerals 800, Text.isWritable n = true := by
    decide +kernel
  refine ⟨h, _, renderMarkdown_of_writable "Song" h, fun hclosed => ?_⟩
  exact (scriptContent_markdownPage_iff {} "Song" _).1 hclosed hides_of_title

end ScoreText
