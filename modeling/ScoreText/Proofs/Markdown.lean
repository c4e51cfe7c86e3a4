import ScoreText.Proofs.JsonUnique
import ScoreText.Proofs.Payload
import ScoreText.Sheet.Markdown

/-!
The data in a Markdown page. Whatever the title is, the first start tag of the data element is the
one that the page was made with, and the text behind it up to the first end tag is the JSON text of
the document. That text denotes the document and the width of the drawing, and nothing else.
-/

namespace ScoreText

/-! ## Parts of a text -/

/-- The text in front of the first occurrence of a pattern, and the text behind it. -/
def cutAt (pattern : List Char) : List Char → Option (List Char × List Char)
  | [] => none
  | c :: cs =>
    if pattern.isPrefixOf (c :: cs) then some ([], (c :: cs).drop pattern.length)
    else (cutAt pattern cs).map fun (before, behind) => (c :: before, behind)

/-- The pattern is found where it stands in front. -/
theorem cutAt_append_self {p : Char} {pattern : List Char} (rest : List Char) :
    cutAt (p :: pattern) (p :: pattern ++ rest) = some ([], rest) := by
  have hhere : (p :: pattern).isPrefixOf (p :: (pattern ++ rest)) = true :=
    List.isPrefixOf_iff_prefix.2 (List.prefix_append _ _)
  rw [List.cons_append, cutAt, if_pos hhere, ← List.cons_append, List.drop_left]

/-- A pattern is found behind a text without its first two characters side by side. -/
theorem cutAt_append {p q : Char} {pattern cs : List Char} (hpq : q ≠ p) (h : ¬ [p, q] <:+: cs)
    (rest : List Char) :
    cutAt (p :: q :: pattern) (cs ++ (p :: q :: pattern ++ rest)) = some (cs, rest) := by
  induction cs with
  | nil => exact cutAt_append_self rest
  | cons c cs ih =>
    obtain ⟨hhere, hlater⟩ := not_or.1 (mt List.infix_cons_iff.2 h)
    have hno :
        (p :: q :: pattern).isPrefixOf (c :: (cs ++ (p :: q :: pattern ++ rest))) ≠ true := by
      intro hpre
      obtain ⟨more, heq⟩ := List.isPrefixOf_iff_prefix.1 hpre
      cases cs with
      | nil =>
        simp only [List.nil_append, List.cons_append, List.cons.injEq] at heq
        exact hpq heq.2.1
      | cons d cs =>
        simp only [List.cons_append, List.cons.injEq] at heq
        exact hhere ⟨cs, by rw [heq.1, heq.2.1]; rfl⟩
    rw [List.cons_append, cutAt, if_neg hno, ih hlater]
    rfl

/-- `Passes pattern x`: no occurrence of the pattern starts in `x`, whatever stands behind it. -/
def Passes (pattern x : List Char) : Prop :=
  ∀ rest, cutAt pattern (x ++ rest) =
    (cutAt pattern rest).map fun (before, behind) => (x ++ before, behind)

namespace Passes

variable {p : Char} {pattern x y : List Char}

theorem append (hx : Passes pattern x) (hy : Passes pattern y) : Passes pattern (x ++ y) := by
  intro rest
  rw [List.append_assoc, hx, hy, Option.map_map]
  simp only [Function.comp_def, List.append_assoc]

theorem nil : Passes pattern [] := by
  intro rest
  simp

theorem single {c : Char} (h : ∀ rest, ¬ pattern <+: c :: rest) : Passes pattern [c] := by
  intro rest
  rw [List.singleton_append, cutAt, if_neg (fun hpre => h _ (List.isPrefixOf_iff_prefix.1 hpre))]
  rfl

/-- A text without the first character of the pattern is passed by. -/
theorem of_not_mem (h : p ∉ x) : Passes (p :: pattern) x := by
  induction x with
  | nil => exact nil
  | cons c x ih =>
    refine append (x := [c]) (single ?_) (ih fun hmem => h (List.mem_cons_of_mem _ hmem))
    rintro rest ⟨more, heq⟩
    exact h (by simp [(List.cons.inj heq).1])

theorem flatMap {α : Type} {xs : List α} {f : α → List Char}
    (h : ∀ a ∈ xs, Passes pattern (f a)) : Passes pattern (xs.flatMap f) := by
  induction xs with
  | nil => exact nil
  | cons a xs ih =>
    obtain ⟨ha, hxs⟩ := List.forall_mem_cons.1 h
    exact ha.append (ih hxs)

end Passes

/-! ## The page -/

/-- The start tag and the end tag of the data element. -/
@[irreducible]
def dataTag : List Char := "<script id=\"scoreline-score-data\" type=\"application/json\">".toList

@[irreducible]
def endTag : List Char := "</script>".toList

/-- The lines of a text, each behind a line break. -/
def brokenLines (lines : List String) : List Char := lines.flatMap fun line => '\n' :: line.toList

def pageStyle (theme : Theme) : List Char :=
  brokenLines (markdownHead { theme } "").tail ++ ['\n']

private theorem toList_append_append (a b c : String) :
    (a ++ b ++ c).toList = a.toList ++ (b.toList ++ c.toList) := by
  rw [String.toList_append, String.toList_append, List.append_assoc]

theorem toList_dataElement (content : String) :
    (dataElement content).toList = dataTag ++ (content.toList ++ endTag) := by
  unfold dataElement dataTag endTag
  exact toList_append_append _ _ _

private theorem markdownHead_eq (settings : Settings) (title : String) :
    markdownHead settings title =
      ("# " ++ escapeHtml title) :: (markdownHead { theme := settings.theme } "").tail := rfl

theorem toList_markdownPage (settings : Settings) (title : String) (d : Document) :
    (markdownPage settings title d).toList =
      ("# ".toList ++ (escapeHtml title).toList) ++ (pageStyle settings.theme ++
        (dataTag ++ ((d.scriptData settings.width).toList ++
          (endTag ++ brokenLines drawingScript)))) := by
  have hnewline : "\n".toList = ['\n'] := rfl
  rw [markdownPage, String.toList_intercalate, hnewline, markdownHead_eq, pageStyle, brokenLines,
    brokenLines]
  generalize (markdownHead { theme := settings.theme } "").tail = style
  generalize drawingScript = script
  rw [List.cons_append, List.cons_append, List.map_cons, Json.intercalate_cons,
    String.toList_append]
  simp only [List.map_append, List.map_cons, List.flatMap_append, List.flatMap_map,
    List.flatMap_cons, toList_dataElement, List.append_assoc, List.cons_append, List.nil_append]

/-! ## Where the data is -/

theorem toList_of_eq {s : String} {cs : List Char} (h : s = String.ofList cs) :
    s.toList = cs := by
  rw [h, String.toList_ofList]

private theorem dataTag_eq : ∃ more, dataTag = '<' :: 's' :: 'c' :: more := by
  unfold dataTag
  exact ⟨_, toList_of_eq rfl⟩

private theorem passes_of_not_mem {x : List Char} (h : '<' ∉ x) : Passes dataTag x := by
  obtain ⟨more, hmore⟩ := dataTag_eq
  rw [hmore]
  exact Passes.of_not_mem h

private theorem passes_plain {s : String} {cs : List Char} (hs : s = String.ofList cs)
    (h : '<' ∉ cs) : Passes dataTag s.toList := by
  rw [toList_of_eq hs]
  exact passes_of_not_mem h

/-- A tag whose name does not start as that of the data element is passed by. -/
private theorem passes_tag {s : String} {a b : Char} {x : List Char}
    (hs : s = String.ofList ('<' :: a :: b :: x)) (hname : ¬ (a = 's' ∧ b = 'c'))
    (hx : '<' ∉ a :: b :: x) : Passes dataTag s.toList := by
  intro rest
  have hno : dataTag.isPrefixOf ('<' :: (a :: b :: x ++ rest)) ≠ true := by
    obtain ⟨more, hmore⟩ := dataTag_eq
    rw [hmore]
    intro hpre
    obtain ⟨_, heq⟩ := List.isPrefixOf_iff_prefix.1 hpre
    simp only [List.cons_append, List.cons.injEq, true_and] at heq
    exact hname ⟨heq.1.symm, heq.2.1.symm⟩
  rw [toList_of_eq hs, List.cons_append, cutAt, if_neg hno, passes_of_not_mem hx, Option.map_map]
  rfl

private theorem passes_append {s t : String} (hs : Passes dataTag s.toList)
    (ht : Passes dataTag t.toList) : Passes dataTag (s ++ t).toList := by
  rw [String.toList_append]
  exact hs.append ht

private theorem not_mem_of_eq {s : String} {cs : List Char} (hs : s = String.ofList cs)
    (h : '<' ∉ cs) : '<' ∉ s.toList := by
  rwa [toList_of_eq hs]

private theorem not_mem_append {s t : String} (hs : '<' ∉ s.toList) (ht : '<' ∉ t.toList) :
    '<' ∉ (s ++ t).toList := by
  rw [String.toList_append]
  exact List.not_mem_append hs ht

theorem not_mem_measureRule (theme : Theme) : '<' ∉ (measureRule theme).toList := by
  have hcard : '<' ∉ theme.card.toList := by cases theme <;> exact not_mem_of_eq rfl (by decide)
  have hink : '<' ∉ theme.ink.toList := by cases theme <;> exact not_mem_of_eq rfl (by decide)
  have hcolours : '<' ∉ ("background: " ++ theme.card ++ "; color: " ++ theme.ink).toList :=
    not_mem_append (not_mem_append (not_mem_append (not_mem_of_eq rfl (by decide)) hcard)
      (not_mem_of_eq rfl (by decide))) hink
  have hbody : '<' ∉ (" " ++ ("background: " ++ theme.card ++ "; color: " ++ theme.ink ++
      "; margin-bottom: 1rem; overflow-x: auto;") ++ " ").toList :=
    not_mem_append (not_mem_append (not_mem_of_eq rfl (by decide))
      (not_mem_append hcolours (not_mem_of_eq rfl (by decide)))) (not_mem_of_eq rfl (by decide))
  refine not_mem_append (not_mem_append (not_mem_of_eq rfl (by decide))
    (not_mem_of_eq rfl (by decide))) ?_
  rw [Text.toList_braced]
  simpa using hbody

/-- The style of a page holds no start tag of a script. -/
private theorem passes_pageStyle (theme : Theme) : Passes dataTag (pageStyle theme) := by
  have hlines : ∀ line ∈ (markdownHead { theme } "").tail, Passes dataTag line.toList := by
    have hdiv : "<div id=\"scoreline-score\"></div>" = "<div id=\"scoreline-score\">" ++ "</div>" :=
      rfl
    rw [markdownHead, List.tail_cons, hdiv]
    simp only [List.forall_mem_cons]
    refine ⟨passes_plain rfl (by simp), passes_plain rfl (by decide), passes_plain rfl (by simp),
      passes_tag rfl (by decide) (by decide), passes_of_not_mem (not_mem_measureRule theme),
      passes_tag rfl (by decide) (by decide), passes_plain rfl (by simp), ?_, by simp⟩
    exact passes_append (passes_tag rfl (by decide) (by decide))
      (passes_tag rfl (by decide) (by decide))
  have hbreak : Passes dataTag ['\n'] := passes_of_not_mem (by decide)
  exact (Passes.flatMap fun line hline => hbreak.append (hlines line hline)).append hbreak

/-- An escaped text holds no tag. -/
theorem not_mem_escapeHtml (s : String) : '<' ∉ (escapeHtml s).toList := by
  intro hmem
  exact (ne_of_mem_escapeHtml hmem).1 rfl

/-- Behind the first start tag of the data element stands the text of the data, its end tag and the
script that draws, whatever the title is. -/
theorem cutAt_markdownPage (settings : Settings) (title : String) (d : Document) :
    ∃ front, cutAt dataTag (markdownPage settings title d).toList = some
      (front, (d.scriptData settings.width).toList ++ (endTag ++ brokenLines drawingScript)) := by
  have htitle : Passes dataTag ("# ".toList ++ (escapeHtml title).toList) :=
    (passes_plain rfl (by decide)).append (passes_of_not_mem (not_mem_escapeHtml title))
  obtain ⟨more, hmore⟩ := dataTag_eq
  have hself (rest : List Char) : cutAt dataTag (dataTag ++ rest) = some ([], rest) := by
    rw [hmore]
    exact cutAt_append_self rest
  rw [toList_markdownPage, htitle, passes_pageStyle, hself]
  exact ⟨_, rfl⟩

/-! ## What the data says -/

def StaveNote.value (n : StaveNote) : JsonValue := .object [
  ("keys", .array (n.keys.map .string)),
  ("duration", .string n.duration),
  ("accidentals", .array (n.accidentals.map fun a => (a.map .string).getD .null))]

def StaveMeasure.value (m : StaveMeasure) : JsonValue := .object [
  ("number", .number m.number),
  ("notes", .array (m.notes.map StaveNote.value))]

def Document.value (d : Document) (width : Nat) : JsonValue := .object [
  ("title", .string d.title),
  ("clef", .string d.clef),
  ("time_signature", .string d.timeSignature),
  ("beats", .number d.beats),
  ("beat_value", .number d.beatValue),
  ("measures", .array (d.measures.map StaveMeasure.value)),
  ("width", .number (width : Int))]

theorem StaveNote.value_toPayload (n : StaveNote) : n.toPayload.value = n.value := by
  have haccidental (a : Option String) :
      ((a.map Payload.text).getD .null).value = (a.map .string).getD .null := by
    cases a with
    | none => rfl
    | some s => rfl
  simp only [toPayload, StaveNote.value, Payload.value, Payload.members, Payload.values_eq_map,
    List.map_map, Function.comp_def, haccidental]

theorem StaveMeasure.value_toPayload (m : StaveMeasure) : m.toPayload.value = m.value := by
  simp only [toPayload, StaveMeasure.value, Payload.value, Payload.members, Payload.values_eq_map,
    List.map_map, Function.comp_def, StaveNote.value_toPayload]

theorem Document.value_toPayload (d : Document) (width : Nat) :
    (d.toPayload width).value = d.value width := by
  simp only [toPayload, Document.value, Payload.value, Payload.members, Payload.values_eq_map,
    List.map_map, Function.comp_def, StaveMeasure.value_toPayload]

theorem Document.toList_scriptData (d : Document) (width : Nat) :
    (d.scriptData width).toList = (d.toPayload width).safeText := String.toList_ofList

/-- The data of a document is read as the document and the width, and as nothing else. -/
theorem Document.isText_scriptData_iff (d : Document) (width : Nat) (v : JsonValue) :
    Json.IsText (d.scriptData width).toList v ↔ v = d.value width := by
  have htext : Json.IsText (d.scriptData width).toList (d.value width) := by
    rw [d.toList_scriptData, ← d.value_toPayload]
    exact ⟨_, Payload.spaced_slot _, Payload.denotes_safeText _, Payload.padded_slot _, rfl⟩
  constructor
  · intro h
    exact h.unique htext
  · rintro rfl
    exact htext

/-- The text of the data element of a page: from its first start tag to the next end tag. -/
def dataText (page : List Char) : Option (List Char) :=
  (cutAt dataTag page).bind fun parts => (cutAt endTag parts.2).map Prod.fst

/-- The data ends at its end tag. -/
theorem cutAt_endTag {data : List Char} (h : ¬ ['<', '/'] <:+: data) (rest : List Char) :
    cutAt endTag (data ++ (endTag ++ rest)) = some (data, rest) := by
  have hend : ∃ more, endTag = '<' :: '/' :: more := by
    unfold endTag
    exact ⟨_, toList_of_eq rfl⟩
  obtain ⟨more, hmore⟩ := hend
  rw [hmore]
  exact cutAt_append (by decide) h rest

theorem Document.not_infix_scriptData (d : Document) (width : Nat) :
    ¬ ['<', '/'] <:+: (d.scriptData width).toList := by
  rw [d.toList_scriptData]
  exact not_infix_guardTags _

theorem dataText_markdownPage (settings : Settings) (title : String) (d : Document) :
    dataText (markdownPage settings title d).toList =
      some (d.scriptData settings.width).toList := by
  obtain ⟨front, hfront⟩ := cutAt_markdownPage settings title d
  rw [dataText, hfront, Option.bind_some, cutAt_endTag (d.not_infix_scriptData settings.width),
    Option.map_some]

theorem renderMarkdown_of_writable {settings : Settings} {d : Document} (title : String)
    (h : ∀ n ∈ d.numerals settings.width, Text.isWritable n = true) :
    renderMarkdown settings title d = .ok (markdownPage settings title d) := by
  rw [renderMarkdown, Text.checkNumerals, if_pos (List.all_eq_true.2 h)]
  rfl

/-- **The page carries the document.** If its numbers can be written, a document is drawn by a page
whose data is plain ASCII, closes no tag, and is read by every decoder as the document and the
width of the drawing. -/
theorem renderMarkdown_carries_document (settings : Settings) (title : String) (d : Document)
    (h : ∀ n ∈ d.numerals settings.width, Text.isWritable n = true) :
    ∃ page data, renderMarkdown settings title d = .ok page ∧ dataText page.toList = some data ∧
      (∀ c ∈ data, c.toNat < 128) ∧ ¬ ['<', '/'] <:+: data ∧
      ∀ v, Json.IsText data v ↔ v = d.value settings.width := by
  refine ⟨_, _, renderMarkdown_of_writable title h, dataText_markdownPage settings title d, ?_, ?_,
    d.isText_scriptData_iff settings.width⟩
  · rw [d.toList_scriptData]
    exact Payload.ascii_safeText _
  · exact d.not_infix_scriptData settings.width

/-- A document of one note with characters that JSON or HTML treat in their own way. -/
def thornyDocument : Document where
  title := "</script>\\\"\x01\u007f𝄞"
  clef := "treble"
  timeSignature := "-3/4"
  beats := -3
  beatValue := 4
  measures := [⟨0, [⟨["c#/4", "</"], "q", [some "#", none]⟩]⟩]

theorem renderMarkdown_carries_thornyDocument :
    (∀ n ∈ thornyDocument.numerals 800, Text.isWritable n = true) ∧
      ∃ page data, renderMarkdown {} "</title>" thornyDocument = .ok page ∧
        dataText page.toList = some data ∧ (∀ c ∈ data, c.toNat < 128) ∧ ¬ ['<', '/'] <:+: data ∧
        ∀ v, Json.IsText data v ↔ v = thornyDocument.value 800 := by
  have h : ∀ n ∈ thornyDocument.numerals 800, Text.isWritable n = true := by decide +kernel
  exact ⟨h, renderMarkdown_carries_document {} "</title>" thornyDocument h⟩

end ScoreText
