import ScoreText.Proofs.Markdown
import ScoreText.Sheet.Html

/-!
Titles on pages. A title is escaped by three replacements, and one pass over the entities undoes
them (`decodeEntities_escapeHtml`). An escaped title has no character of a tag, so it stays where
the page puts it: the title element of an HTML page holds the title, all titles give pages with
equally many tags, and the title of a Markdown page adds no end tag (`titles_verbatim`).
-/

namespace ScoreText

/-! ## Entities -/

def htmlEntities : List String := ["&amp;", "&lt;", "&gt;"]

/-- The text that HTML shows, read in one pass from the left. -/
def decodeEntities : List Char → List Char
  | '&' :: 'a' :: 'm' :: 'p' :: ';' :: rest => '&' :: decodeEntities rest
  | '&' :: 'l' :: 't' :: ';' :: rest => '<' :: decodeEntities rest
  | '&' :: 'g' :: 't' :: ';' :: rest => '>' :: decodeEntities rest
  | c :: rest => c :: decodeEntities rest
  | [] => []

private theorem decodeEntities_cons {c : Char} (h : c ≠ '&') (rest : List Char) :
    decodeEntities (c :: rest) = c :: decodeEntities rest := by
  rw [decodeEntities]
  all_goals
    intro _ hc
    exact absurd hc h

/-- A character is left as it is, or an entity stands for it. An entity has one ampersand. -/
private theorem escapeHtmlChar_cases (c : Char) :
    (c ≠ '&' ∧ escapeHtmlChar c = [c]) ∨
      ∃ entity ∈ htmlEntities, ∃ body, entity.toList = '&' :: body ∧ '&' ∉ body ∧
        escapeHtmlChar c = '&' :: body ∧
        ∀ rest, decodeEntities ('&' :: body ++ rest) = c :: decodeEntities rest := by
  by_cases hamp : c = '&'
  · subst hamp
    exact .inr ⟨"&amp;", by simp [htmlEntities], _, rfl, by decide, rfl, fun _ => rfl⟩
  by_cases hlt : c = '<'
  · subst hlt
    exact .inr ⟨"&lt;", by simp [htmlEntities], _, rfl, by decide, rfl, fun _ => rfl⟩
  by_cases hgt : c = '>'
  · subst hgt
    exact .inr ⟨"&gt;", by simp [htmlEntities], _, rfl, by decide, rfl, fun _ => rfl⟩
  · exact .inl ⟨hamp, by simp [escapeHtmlChar, hamp, hlt, hgt]⟩

private theorem decodeEntities_flatMap (cs : List Char) :
    decodeEntities (cs.flatMap escapeHtmlChar) = cs := by
  induction cs with
  | nil => rfl
  | cons c cs ih =>
    rw [List.flatMap_cons]
    obtain ⟨hc, h⟩ | ⟨_, -, body, -, -, h, hdecode⟩ := escapeHtmlChar_cases c
    · rw [h, List.singleton_append, decodeEntities_cons hc, ih]
    · rw [h, hdecode, ih]

/-- Decoding gives back what was escaped. -/
theorem decodeEntities_escapeHtml (s : String) :
    decodeEntities (escapeHtml s).toList = s.toList := by
  rw [toList_escapeHtml]
  exact decodeEntities_flatMap _

/-- A text that begins with a character ends behind a text without it. -/
private theorem suffix_of_suffix_append {c : Char} {body rest behind : List Char} (h : c ∉ body)
    (hsuffix : c :: behind <:+ body ++ rest) : c :: behind <:+ rest := by
  induction body with
  | nil => exact hsuffix
  | cons d body ih =>
    obtain ⟨hd, hbody⟩ := not_or.1 (mt List.mem_cons.2 h)
    rw [List.cons_append, List.suffix_cons_iff] at hsuffix
    rcases hsuffix with heq | hlater
    · exact absurd (List.cons.inj heq).1 hd
    · exact ih hbody hlater

private theorem entity_of_suffix {cs behind : List Char}
    (h : '&' :: behind <:+ cs.flatMap escapeHtmlChar) :
    ∃ entity ∈ htmlEntities, entity.toList <+: '&' :: behind := by
  induction cs with
  | nil => simp at h
  | cons c cs ih =>
    rw [List.flatMap_cons] at h
    obtain ⟨hc, hchar⟩ | ⟨entity, hentity, body, hbody, hno, hchar, -⟩ := escapeHtmlChar_cases c
    · rw [hchar] at h
      exact ih (suffix_of_suffix_append (by simpa using Ne.symm hc) h)
    · rw [hchar, List.cons_append, List.suffix_cons_iff] at h
      rcases h with heq | hlater
      · refine ⟨entity, hentity, ?_⟩
        rw [hbody, heq, ← List.cons_append]
        exact List.prefix_append _ _
      · exact ih (suffix_of_suffix_append hno hlater)

/-- A text as HTML has to show it: nothing in it opens or closes a tag, every ampersand begins an
entity, and the text is what the entities stand for. -/
structure ShownVerbatim (text : String) (shown : List Char) : Prop where
  untagged : '<' ∉ shown ∧ '>' ∉ shown
  entities : ∀ behind, '&' :: behind <:+ shown →
    ∃ entity ∈ htmlEntities, entity.toList <+: '&' :: behind
  decoded : decodeEntities shown = text.toList

theorem shownVerbatim_escapeHtml (s : String) : ShownVerbatim s (escapeHtml s).toList where
  untagged := ⟨fun h => (ne_of_mem_escapeHtml h).1 rfl, fun h => (ne_of_mem_escapeHtml h).2 rfl⟩
  entities behind h := by
    rw [toList_escapeHtml] at h
    exact entity_of_suffix h
  decoded := decodeEntities_escapeHtml s

/-! ## HTML pages -/

/-- The start tag and the end tag of the title element. -/
@[irreducible]
def titleTag : List Char := "<title>".toList

@[irreducible]
def titleEndTag : List Char := "</title>".toList

private theorem titleTag_eq : titleTag = ['<', 't', 'i', 't', 'l', 'e', '>'] := by
  unfold titleTag
  exact toList_of_eq rfl

private theorem titleEndTag_eq : titleEndTag = ['<', '/', 't', 'i', 't', 'l', 'e', '>'] := by
  unfold titleEndTag
  exact toList_of_eq rfl

/-- The text of the title element of a page: from its first start tag to the next end tag. -/
def titleText (page : List Char) : Option (List Char) :=
  (cutAt titleTag page).bind fun parts => (cutAt titleEndTag parts.2).map Prod.fst

def htmlFrontLines : List String := ["<html lang=\"en\">", "<head>", "<meta charset=\"UTF-8\" />"]

def htmlFront : List Char := "<!DOCTYPE html>".toList ++ (brokenLines htmlFrontLines ++ ['\n'])

private theorem htmlHead_eq (title : String) : htmlHead title =
    "<!DOCTYPE html>" :: (htmlFrontLines ++ ["<title>" ++ escapeHtml title ++ "</title>"]) := rfl

theorem brokenLines_append (xs ys : List String) :
    brokenLines (xs ++ ys) = brokenLines xs ++ brokenLines ys := List.flatMap_append

private theorem brokenLines_title (title : String) :
    brokenLines ["<title>" ++ escapeHtml title ++ "</title>"] =
      '\n' :: (titleTag ++ ((escapeHtml title).toList ++ titleEndTag)) := by
  unfold titleTag titleEndTag
  simp only [brokenLines, List.flatMap_cons, List.flatMap_nil, String.toList_append,
    List.append_assoc, List.append_nil]

/-- Lines are joined by writing each but the first behind a line break. -/
theorem toList_joinedLines (line : String) (lines : List String) :
    ("\n".intercalate (line :: lines)).toList = line.toList ++ brokenLines lines := by
  have hnewline : "\n".toList = ['\n'] := rfl
  rw [String.toList_intercalate, hnewline, List.map_cons, Json.intercalate_cons, List.flatMap_map]
  rfl

theorem toList_htmlPage (settings : Settings) (title : String) (svgs : List String) :
    (htmlPage settings title svgs).toList =
      htmlFront ++ (titleTag ++ ((escapeHtml title).toList ++ (titleEndTag ++
        (brokenLines (htmlStyle settings) ++ brokenLines (htmlBody title svgs))))) := by
  rw [htmlPage, htmlHead_eq, List.cons_append, List.cons_append, toList_joinedLines,
    brokenLines_append, brokenLines_append, brokenLines_append, brokenLines_title]
  unfold htmlFront
  generalize "<!DOCTYPE html>".toList = first
  simp only [List.append_assoc, List.cons_append, List.nil_append]

/-- The title element of a page holds the escaped title. -/
theorem titleText_htmlPage (settings : Settings) (title : String) (svgs : List String) :
    titleText (htmlPage settings title svgs).toList = some (escapeHtml title).toList := by
  have hfront : ¬ ['<', 't'] <:+: htmlFront := by decide +kernel
  have htitle : ¬ ['<', '/'] <:+: (escapeHtml title).toList := by
    intro h
    exact not_mem_escapeHtml title (h.subset (by simp))
  rw [titleText, toList_htmlPage, titleTag_eq, titleEndTag_eq, cutAt_append (by decide) hfront,
    Option.bind_some, cutAt_append (by decide) htitle, Option.map_some]

/-- All titles but the empty one give a page the same number of each character of a tag. -/
theorem count_htmlPage {c : Char} (hc : c = '<' ∨ c = '>') (settings : Settings)
    {title other : String} (htitle : title ≠ "") (hother : other ≠ "") (svgs : List String) :
    (htmlPage settings title svgs).toList.count c =
      (htmlPage settings other svgs).toList.count c := by
  have hzero (s : String) : (escapeHtml s).toList.count c = 0 := by
    refine List.count_eq_zero.2 fun hmem => ?_
    rcases hc with rfl | rfl
    · exact (ne_of_mem_escapeHtml hmem).1 rfl
    · exact (ne_of_mem_escapeHtml hmem).2 rfl
  have hbody : (brokenLines (htmlBody title svgs)).count c =
      (brokenLines (htmlBody other svgs)).count c := by
    simp only [brokenLines, htmlBody, htmlHeading, if_neg htitle, if_neg hother,
      List.flatMap_cons, String.toList_append, List.count_append, List.count_cons, hzero]
  simp only [toList_htmlPage, List.count_append, hzero, hbody]

theorem renderHtml_eq_ok_iff {settings : Settings} {title page : String} {svgs : List String} :
    renderHtml settings title svgs = .ok page ↔
      (∀ n ∈ [(settings.fontSize : Int), (settings.width : Int)], Text.isWritable n = true) ∧
        htmlPage settings title svgs = page :=
  Text.map_checkNumerals_eq_ok_iff

/-! ## Markdown pages -/

def occurrences (pattern : List Char) : List Char → Nat
  | [] => 0
  | c :: cs => (if pattern.isPrefixOf (c :: cs) then 1 else 0) + occurrences pattern cs

section Occurrences

variable {p q : Char} {x y : List Char}

/-- An occurrence of two characters lies in one of two texts, unless it begins at the end of the
first. -/
theorem occurrences_append (h : x.getLast? ≠ some p ∨ y.head? ≠ some q) :
    occurrences [p, q] (x ++ y) = occurrences [p, q] x + occurrences [p, q] y := by
  induction x with
  | nil => exact (Nat.zero_add _).symm
  | cons c x ih =>
    cases x with
    | nil =>
      have hno (rest : List Char) (hrest : rest = [] ∨ rest = y) :
          ¬ [p, q].isPrefixOf (c :: rest) = true := by
        intro hpre
        obtain ⟨more, heq⟩ := List.isPrefixOf_iff_prefix.1 hpre
        rcases hrest with rfl | rfl
        · simp at heq
        · simp only [List.cons_append, List.nil_append, List.cons.injEq] at heq
          simp [← heq.1, ← heq.2] at h
      rw [List.singleton_append, occurrences, if_neg (hno y (.inr rfl)), occurrences,
        if_neg (hno [] (.inl rfl)), occurrences]
    | cons d x =>
      rw [List.getLast?_cons_cons] at h
      have hsame : [p, q].isPrefixOf (c :: d :: x ++ y) = [p, q].isPrefixOf (c :: d :: x) := by
        simp [List.isPrefixOf]
      rw [List.cons_append, occurrences, ih h, ← List.cons_append, hsame, ← Nat.add_assoc]
      rfl

theorem occurrences_of_not_infix {pattern : List Char} (h : ¬ pattern <:+: x) :
    occurrences pattern x = 0 := by
  induction x with
  | nil => rfl
  | cons c x ih =>
    obtain ⟨hhere, hlater⟩ := not_or.1 (mt List.infix_cons_iff.2 h)
    rw [occurrences, if_neg (mt List.isPrefixOf_iff_prefix.1 hhere), ih hlater]

theorem occurrences_of_not_mem (h : p ∉ x) : occurrences [p, q] x = 0 :=
  occurrences_of_not_infix fun hpart => h (hpart.subset (by simp))

theorem occurrences_brokenLines (hp : p ≠ '\n') (hq : q ≠ '\n') (lines : List String) :
    occurrences [p, q] (brokenLines lines) =
      (lines.map fun line => occurrences [p, q] line.toList).foldr (· + ·) 0 := by
  induction lines with
  | nil => rfl
  | cons line lines ih =>
    have hnext : (brokenLines lines).head? ≠ some q := by
      cases lines with
      | nil => simp [brokenLines]
      | cons next lines => simpa [brokenLines] using Ne.symm hq
    have hbreak : occurrences [p, q] ('\n' :: line.toList) = occurrences [p, q] line.toList := by
      simp [occurrences, hp]
    calc occurrences [p, q] (brokenLines (line :: lines))
        = occurrences [p, q] (('\n' :: line.toList) ++ brokenLines lines) := rfl
      _ = occurrences [p, q] line.toList + occurrences [p, q] (brokenLines lines) := by
        rw [occurrences_append (.inr hnext), hbreak]
      _ = _ := by rw [ih, List.map_cons, List.foldr_cons]

private theorem occurrences_literal {pattern cs : List Char} {s : String} {n : Nat}
    (hs : s = String.ofList cs) (h : occurrences pattern cs = n) :
    occurrences pattern s.toList = n := by
  rw [toList_of_eq hs, h]

end Occurrences

def endTagStart : List Char := ['<', '/']

/-- The style ends one element, and the place of the drawing is an element without content. -/
private theorem occurrences_pageStyle (theme : Theme) :
    occurrences endTagStart (pageStyle theme) = 2 := by
  have hlines : ((markdownHead { theme } "").tail.map fun line =>
      occurrences endTagStart line.toList) = [0, 0, 0, 0, 0, 1, 0, 1] := by
    simp only [markdownHead, List.tail_cons, List.map_cons, List.map_nil, List.cons.injEq, and_true]
    exact ⟨occurrences_literal rfl (by decide), occurrences_literal rfl (by decide),
      occurrences_literal rfl (by decide), occurrences_literal rfl (by decide),
      occurrences_of_not_mem (not_mem_measureRule theme), occurrences_literal rfl (by decide),
      occurrences_literal rfl (by decide), occurrences_literal rfl (by decide)⟩
  have hsum := occurrences_brokenLines (p := '<') (q := '/') (by decide) (by decide)
    (markdownHead { theme } "").tail
  have htotal := congrArg (List.foldr (· + ·) 0) hlines
  have hbreak : occurrences ['<', '/'] ['\n'] = 0 := by decide
  unfold endTagStart at htotal
  rw [pageStyle, endTagStart, occurrences_append (.inr (by decide)), hsum, htotal, hbreak]
  rfl

set_option maxRecDepth 8000 in
private theorem occurrences_drawMeasures : occurrences endTagStart drawMeasures.toList = 0 := by
  unfold drawMeasures
  exact occurrences_literal rfl (by decide +kernel)

/-- The code of the drawing script has no end tag before its own. -/
private theorem occurrences_drawingScript :
    occurrences endTagStart (brokenLines drawingScript) = 1 := by
  have hlines : (drawingScript.map fun line => occurrences endTagStart line.toList) =
      [0, 0, 0, 0, 0, 0, 0, 0, 0, 1, 0] := by
    simp only [drawingScript, List.map_cons, List.map_nil, List.cons.injEq, and_true]
    exact ⟨occurrences_literal rfl (by decide), occurrences_literal rfl (by decide),
      occurrences_literal rfl (by decide), occurrences_literal rfl (by decide),
      occurrences_literal rfl (by decide), occurrences_literal rfl (by decide),
      occurrences_literal rfl (by decide), occurrences_literal rfl (by decide),
      occurrences_drawMeasures, occurrences_literal rfl (by decide),
      occurrences_literal rfl (by decide)⟩
  have hsum := occurrences_brokenLines (p := '<') (q := '/') (by decide) (by decide) drawingScript
  unfold endTagStart at hlines
  rw [endTagStart, hsum, hlines]
  rfl

private theorem dataTag_ends : occurrences endTagStart dataTag = 0 ∧
    dataTag.head? = some '<' ∧ dataTag.getLast? = some '>' := by
  unfold dataTag
  rw [toList_of_eq rfl]
  decide

private theorem endTag_ends : occurrences endTagStart endTag = 1 ∧
    endTag.head? = some '<' ∧ endTag.getLast? = some '>' := by
  unfold endTag
  rw [toList_of_eq rfl]
  decide

/-- The end tags of a Markdown page are those of its style, its empty element and its two scripts,
whatever stands in the page. -/
theorem occurrences_markdownPage (settings : Settings) (title : String) (d : Document) :
    occurrences endTagStart (markdownPage settings title d).toList = 4 := by
  have htitle : '<' ∉ "# ".toList ++ (escapeHtml title).toList := by
    rw [List.mem_append]
    rintro (h | h)
    · exact absurd h (by decide)
    · exact not_mem_escapeHtml title h
  have hlast : ("# ".toList ++ (escapeHtml title).toList).getLast? ≠ some '<' :=
    fun h => htitle (List.mem_of_getLast? h)
  have hstyle := occurrences_pageStyle settings.theme
  have hscript := occurrences_drawingScript
  obtain ⟨hdataTag, hdataHead, hdataLast⟩ := dataTag_ends
  obtain ⟨hendTag, hendHead, hendLast⟩ := endTag_ends
  have hdata := occurrences_of_not_infix (d.not_infix_scriptData settings.width)
  unfold endTagStart at *
  rw [toList_markdownPage, occurrences_append (.inl hlast), occurrences_of_not_mem htitle,
    occurrences_append (.inr (by simp [hdataHead])), hstyle,
    occurrences_append (.inl (by simp [hdataLast])), hdataTag,
    occurrences_append (.inr (by simp [hendHead])), hdata,
    occurrences_append (.inl (by simp [hendLast])), hendTag, hscript]

/-! ## Both pages -/

/-- The pages of a title and of other titles, with the same settings and sheets. -/
structure TitledPages (settings : Settings) (svgs : List String) (title page : String) : Prop where
  /-- The title element shows the title. -/
  shown : ∃ shown, titleText page.toList = some shown ∧ ShownVerbatim title shown
  /-- Another title gives another page. -/
  distinct : ∀ other, other ≠ title → renderHtml settings other svgs ≠ .ok page
  /-- All titles give equally many characters of tags, but for a missing heading. -/
  markup : ∀ other page', renderHtml settings other svgs = .ok page' → title ≠ "" → other ≠ "" →
    page'.toList.count '<' = page.toList.count '<' ∧ page'.toList.count '>' = page.toList.count '>'

theorem titledPages_htmlPage (settings : Settings) (svgs : List String) (title : String) :
    TitledPages settings svgs title (htmlPage settings title svgs) where
  shown := ⟨_, titleText_htmlPage settings title svgs, shownVerbatim_escapeHtml title⟩
  distinct other hother hpage := by
    obtain ⟨-, hpage⟩ := renderHtml_eq_ok_iff.1 hpage
    have hshown : some (escapeHtml other).toList = some (escapeHtml title).toList := by
      rw [← titleText_htmlPage settings other svgs, hpage, titleText_htmlPage]
    have hdecoded := congrArg decodeEntities (Option.some.inj hshown)
    rw [decodeEntities_escapeHtml, decodeEntities_escapeHtml] at hdecoded
    exact hother (String.toList_inj.1 hdecoded)
  markup other page' hpage htitle hother := by
    obtain ⟨-, rfl⟩ := renderHtml_eq_ok_iff.1 hpage
    exact ⟨count_htmlPage (.inl rfl) settings hother htitle svgs,
      count_htmlPage (.inr rfl) settings hother htitle svgs⟩

/-- **Titles are shown verbatim.** Escaping leaves nothing that opens or closes a tag, and decoding
undoes it. If the numbers of the settings can be written, every title gives an HTML page that shows
it in its title element, and pages of two titles differ in no tag; and every title and document with
numbers that can be written gives a Markdown page with four end tags. -/
theorem titles_verbatim (settings : Settings)
    (hsettings : ∀ n ∈ [(settings.fontSize : Int), (settings.width : Int)],
      Text.isWritable n = true) (title : String) (svgs : List String) :
    ShownVerbatim title (escapeHtml title).toList ∧
      (∃ page, renderHtml settings title svgs = .ok page ∧
        TitledPages settings svgs title page) ∧
      ∀ d : Document, (∀ n ∈ d.numerals settings.width, Text.isWritable n = true) →
        ∃ page, renderMarkdown settings title d = .ok page ∧
          occurrences endTagStart page.toList = 4 := by
  refine ⟨shownVerbatim_escapeHtml title, ?_, fun d hd => ?_⟩
  · exact ⟨_, renderHtml_eq_ok_iff.2 ⟨hsettings, rfl⟩, titledPages_htmlPage settings svgs title⟩
  · exact ⟨_, renderMarkdown_of_writable title hd, occurrences_markdownPage settings title d⟩

/-- A title with an entity of its own and with tags. -/
theorem titles_verbatim_of_entity :
    let title := "Q&A &lt; <b>"
    let settings : Settings := {}
    escapeHtml title = "Q&amp;A &amp;lt; &lt;b&gt;" ∧
      (∀ n ∈ [(settings.fontSize : Int), (settings.width : Int)], Text.isWritable n = true) ∧
      (∀ n ∈ thornyDocument.numerals settings.width, Text.isWritable n = true) ∧
      ShownVerbatim title (escapeHtml title).toList ∧
      (∃ page, renderHtml settings title ["<svg/>"] = .ok page ∧
        TitledPages settings ["<svg/>"] title page) ∧
      ∃ page, renderMarkdown settings title thornyDocument = .ok page ∧
        occurrences endTagStart page.toList = 4 := by
  intro title settings
  have hsettings : ∀ n ∈ [(settings.fontSize : Int), (settings.width : Int)],
      Text.isWritable n = true := by decide +kernel
  have hdocument : ∀ n ∈ thornyDocument.numerals settings.width, Text.isWritable n = true := by
    decide +kernel
  obtain ⟨hshown, hpage, hmarkdown⟩ := titles_verbatim settings hsettings title ["<svg/>"]
  exact ⟨by decide +kernel, hsettings, hdocument, hshown, hpage, hmarkdown _ hdocument⟩

end ScoreText
