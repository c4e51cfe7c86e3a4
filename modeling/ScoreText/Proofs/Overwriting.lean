import ScoreText.Proofs.CheckRender
import ScoreText.Proofs.Paths

/-!
Sheets and the files they are made from. A sheet has tags and an accepted text has none, so a
sheet is never the file it was made from (`sheet_ne_source`). A sheet for which no path is given
lands beside its source, under the same stem. So a source is kept exactly when rendering fails or
its extension is not that of the sheet (`read_after_render_iff`).
-/

namespace ScoreText

/-! ## Bytes and characters -/

namespace Text.Utf8

theorem isTail_of_legalTails {first : UInt8} {n : Nat} {rest : List UInt8}
    (h : legalTails first n rest = n) : ∀ b ∈ rest.take n, isTail b = true := by
  fun_cases legalTails first n rest with
  | case1 => simp
  | case2 => simp
  | case3 n b rest hfits =>
    rw [legalTails, if_pos hfits] at h
    have hall : (rest.take n).takeWhile isTail = rest.take n := by
      refine (List.takeWhile_prefix isTail).eq_of_length_le ?_
      rw [List.length_take]
      omega
    intro x hx
    rcases List.mem_cons.1 hx with rfl | hx
    · simp only [fitsSecond, Bool.and_eq_true] at hfits
      exact hfits.1.1.1.1
    · rw [← hall] at hx
      exact List.all_eq_true.1 List.all_takeWhile x hx
  | case4 n b rest hfits =>
    rw [legalTails, if_neg hfits] at h
    cases h

/-- A byte below 0x80 is never part of a longer sequence. -/
theorem mem_of_decodeFrom {start : Nat} {bytes : List UInt8} {cs : List Char}
    (h : decodeFrom start bytes = .ok cs) {b : UInt8} (hb : b ∈ bytes) (hlow : b < 0x80) :
    Char.ofNat b.toNat ∈ cs := by
  fun_induction decodeFrom start bytes generalizing cs with
  | case1 => cases hb
  | case2 => cases h
  | case3 start first rest n hn legal hlegal =>
    rename_i ih
    cases hrest : decodeFrom (start + n + 1) (rest.drop n) with
    | error fault =>
      rw [hrest] at h
      cases h
    | ok ds =>
      rw [hrest] at h
      cases h
      rcases List.mem_cons.1 hb with rfl | hb
      · rw [tailLength?, if_pos hlow] at hn
        cases hn
        exact List.mem_cons_self
      · rw [← List.take_append_drop n rest, List.mem_append] at hb
        rcases hb with htail | hb
        · have hge := isTail_of_legalTails hlegal b htail
          simp only [isTail, Bool.and_eq_true, decide_eq_true_eq] at hge
          exact absurd hlow (UInt8.not_lt.2 hge.1)
        · exact List.mem_cons_of_mem _ (ih hrest hb)
  | case4 => cases h
  | case5 => cases h

end Text.Utf8

theorem Text.mem_unifyNewlines {c : Char} (hc : c ≠ '\r') {cs : List Char} (h : c ∈ cs) :
    c ∈ unifyNewlines cs := by
  fun_induction unifyNewlines cs with
  | case1 => exact h
  | case2 rest ih =>
    simp only [List.mem_cons, hc, false_or] at h
    exact List.mem_cons.2 (h.imp_right ih)
  | case3 rest _ ih =>
    simp only [List.mem_cons, hc, false_or] at h
    exact List.mem_cons_of_mem _ (ih h)
  | case4 d rest _ _ ih => exact List.mem_cons.2 ((List.mem_cons.1 h).imp_right ih)

private theorem toList_loop (bytes : ByteArray) (i : Nat) (read : List UInt8) :
    ByteArray.toList.loop bytes i read = read.reverse ++ bytes.data.toList.drop i := by
  fun_induction ByteArray.toList.loop bytes i read with
  | case1 i read hi ih =>
    have hdrop : bytes.data.toList.drop i =
        bytes.get! i :: bytes.data.toList.drop (i + 1) := by
      rw [List.drop_eq_getElem_cons (by simpa using hi)]
      simp [ByteArray.get!, hi]
    rw [ih, hdrop]
    simp
  | case2 i read hi =>
    rw [List.drop_of_length_le (by simpa using hi), List.append_nil]

/-! ## Sheets have tags -/

private theorem mem_lines {c : Char} (line : String) {lines : List String} (hline : line ∈ lines)
    (hc : c ∈ line.toList) : c ∈ ("\n".intercalate lines).toList := by
  induction lines with
  | nil => cases hline
  | cons first rest ih =>
    cases rest with
    | nil =>
      rw [List.mem_singleton.1 hline] at hc
      simpa using hc
    | cons next rest =>
      rw [String.intercalate_cons_cons, String.toList_append, List.mem_append]
      rcases List.mem_cons.1 hline with rfl | hline
      · exact .inl (by simp [hc])
      · exact .inr (ih hline)

/-- Every sheet has a tag. -/
theorem Exporter.mem_of_render {e : Exporter} {press : Press} {input : Input}
    {content : String} (h : e.render press input = .ok content) : '<' ∈ content.toList := by
  obtain ⟨score, -, hpage⟩ := ok_of_bind h
  obtain ⟨source, -, hsheet⟩ := ok_of_bind hpage
  unfold renderSheet at hsheet
  split at hsheet
  · cases hsheet
  · obtain ⟨svgs, -, hsheet⟩ := ok_of_bind hsheet
    obtain ⟨_, -, hsheet⟩ := ok_of_map (ok_of_mapError hsheet)
    rw [← hsheet]
    exact mem_lines "<!DOCTYPE html>" (by simp [htmlHead]) (by decide)
  · cases hsheet
  · obtain ⟨_, -, hsheet⟩ := ok_of_map (ok_of_mapError hsheet)
    rw [← hsheet]
    exact mem_lines "<style>" (by simp [markdownHead]) (by decide)

private theorem mem_toUTF8 {s : String} (h : '<' ∈ s.toList) : 60 ∈ s.toUTF8.toList := by
  obtain ⟨before, after, hs⟩ := List.append_of_mem h
  rw [ByteArray.toList, toList_loop, String.toUTF8_eq_toByteArray, ← String.utf8Encode_toList, hs,
    List.utf8Encode_append, List.utf8Encode_cons]
  have htag : ['<'].utf8Encode.data.toList = [60] := by decide
  simp [htag]

/-- A sheet is never the file that it was made from: no accepted text has a tag. -/
theorem sheet_ne_source {e : Exporter} {press : Press} {bytes : List UInt8}
    {text content : String} (htext : decodeText bytes = .ok text)
    (h : e.render press (.text text) = .ok content) : content.toUTF8.toList ≠ bytes := by
  intro hsame
  have hbyte : 60 ∈ bytes := hsame ▸ mem_toUTF8 (Exporter.mem_of_render h)
  obtain ⟨cs, hcs, rfl⟩ := ok_of_map htext
  have htag : '<' ∈ Text.unifyNewlines cs :=
    Text.mem_unifyNewlines (by decide) (Text.Utf8.mem_of_decodeFrom hcs hbyte (by decide))
  obtain ⟨score, hscore, -⟩ := ok_of_bind h
  obtain ⟨text, items, htext, hchars, -⟩ := Exporter.sentence_of_score hscore
  cases htext
  rw [String.toList_ofList] at hchars
  exact absurd (hchars '<' htag) (by decide)

/-! ## Rendering beside the source -/

/-- No extension of a sheet has a slash, and none is so short that a name with it is no file
name. -/
private theorem isFileName_append_extension (stem : String) (format : SheetFormat) :
    '/' ∉ format.extension.toList ∧ IsFileName (stem ++ format.extension) ∧
      stem ++ format.extension ≠ "null" := by
  have hlong (name : String) (h : name.length < 3) : stem ++ format.extension ≠ name := by
    intro heq
    have hlength := congrArg String.length heq
    rw [String.length_append] at hlength
    have hextension : 3 ≤ format.extension.length := by cases format <;> decide
    omega
  refine ⟨by cases format <;> decide, ⟨hlong _ (by decide), hlong _ (by decide),
    hlong _ (by decide)⟩, fun heq => ?_⟩
  have hdot : '.' ∈ (stem ++ format.extension).toList := by
    rw [String.toList_append, List.mem_append]
    exact .inr (by cases format <;> decide)
  rw [heq] at hdot
  exact absurd hdot (by decide)

theorem Folder.child_ne_nullDevice {dir : Place} {name : String} (h : name ≠ "null") :
    dir.child name ≠ .nullDevice := by
  intro heq
  have hparts : dir.parts ++ [name] = ["dev"] ++ ["null"] := congrArg Place.parts heq
  exact h (List.singleton_inj.1 (List.append_inj_right' hparts rfl))

/-- The name of a file is its stem with an extension exactly when that is its extension. -/
theorem Path.stem_append_eq_name_iff (p : Path) (extension : String) :
    p.stem ++ extension = p.name ↔ p.extension = extension := by
  rw [← p.stem_append_extension]
  exact ⟨fun h => (String.append_right_inj _ |>.1 h).symm, fun h => by rw [h]⟩

/-- The sheet of a source goes beside it, and in its place if it has the extension of the format. -/
theorem Session.read_run_render_iff (verbose : Bool) {folder : Folder} {path : String}
    {bytes : List UInt8} (hread : folder.read path = .ok bytes) (press : Press)
    (title : Option String) (format : SheetFormat) (theme : Theme) (width : Int) :
    let out := run ⟨verbose, .render path none title format theme width⟩ press folder
    out.folder.read path = folder.read path ↔
      ¬ (out.exitCode = 0 ∧ (Path.ofString path).extension = format.extension) := by
  intro out
  rcases Session.run_render_cases verbose hread press none title format theme width with
    ⟨hcode, hfolder⟩ | ⟨hcode, text, content, place, htext, hcontent, hplace, hfolder⟩
  · simp [out, hcode, hfolder]
  · obtain ⟨dir, name, hfound⟩ := Folder.found_of_read hread
    obtain ⟨hslash, hname, hnull⟩ :=
      isFileName_append_extension (Path.ofString path).stem format
    obtain rfl := Folder.writePlace_withExtension hfound hslash hname hplace
    rw [hfolder, Folder.read_put hfound (Folder.child_ne_nullDevice hnull), hread, hcode,
      ← Folder.name_of_found hfound]
    have hnames := (Path.ofString path).stem_append_eq_name_iff format.extension
    by_cases hsame : (Path.ofString path).extension = format.extension
    · rw [if_pos (hnames.2 hsame)]
      simpa [hsame] using sheet_ne_source htext hcontent
    · rw [if_neg (mt hnames.1 hsame)]
      simp [hsame]

/-- A source survives its sheet under every reader that checks files. -/
theorem read_after_runWith_iff {read : ArgumentReader} (hreader : read.ChecksFile) (press : Press)
    {folder : Folder} {arguments : List String} {verbose : Bool} {path : String}
    {title : Option String} {format : SheetFormat} {theme : Theme} {width : Int}
    (h : read folder arguments = .ok ⟨verbose, .render path none title format theme width⟩) :
    (∃ bytes, folder.read path = .ok bytes) ∧
      ((runWith read press folder arguments).folder.read path = folder.read path ↔
        ¬ ((runWith read press folder arguments).exitCode = 0 ∧
          (Path.ofString path).extension = format.extension)) := by
  obtain ⟨bytes, hbytes⟩ := hreader h rfl
  rw [runWith_of_session h]
  exact ⟨⟨bytes, hbytes⟩,
    Session.read_run_render_iff verbose hbytes press title format theme width⟩

/-- **When a source survives its sheet.** A request to render that gives no path for the sheet names
a file that can be read. Afterwards it reads the same, unless the sheet was made and the file has
the extension of the sheet's format: then the sheet stands in its place. -/
theorem read_after_render_iff (press : Press) {folder : Folder} {arguments : List String}
    {verbose : Bool} {path : String} {title : Option String} {format : SheetFormat} {theme : Theme}
    {width : Int} (h : readSession folder arguments =
      .ok ⟨verbose, .render path none title format theme width⟩) :
    let out := runCommandLine press folder arguments
    (∃ bytes, folder.read path = .ok bytes) ∧
      (out.folder.read path = folder.read path ↔
        ¬ (out.exitCode = 0 ∧ (Path.ofString path).extension = format.extension)) :=
  read_after_runWith_iff checksFile_readSession press h

/-- A notation in a Markdown file is kept when its sheets are engraved, and lost when its Markdown
page is made. -/
theorem read_after_render_iff_at_markdown :
    let folder : Folder := { files := [(.inFolder ["song.md"], [67, 52, 32, 113])] }
    let press : Press :=
      { notator := .constant "<score-partwise/>", engraver := { pages := fun _ => ["<svg/>"] } }
    let engraved := ["render", "song.md"]
    let drawn := ["render", "song.md", "--format", "md-vexflow"]
    (readSession folder engraved = .ok ⟨false, .render "song.md" none none .html .standard 800⟩ ∧
      (runCommandLine press folder engraved).exitCode = 0 ∧
      (runCommandLine press folder engraved).folder.read "song.md" = folder.read "song.md") ∧
    readSession folder drawn = .ok ⟨false, .render "song.md" none none .markdown .standard 800⟩ ∧
      (runCommandLine press folder drawn).exitCode = 0 ∧
      (runCommandLine press folder drawn).folder.read "song.md" ≠ folder.read "song.md" := by
  intro folder press engraved drawn
  have hengraved : readSession folder engraved =
      .ok ⟨false, .render "song.md" none none .html .standard 800⟩ :=
    ok_of_toOption (by decide +kernel)
  have hdrawn : readSession folder drawn =
      .ok ⟨false, .render "song.md" none none .markdown .standard 800⟩ :=
    ok_of_toOption (by decide +kernel)
  have hcode : (runCommandLine press folder drawn).exitCode = 0 := by decide +kernel
  refine ⟨⟨hengraved, by decide +kernel, ?_⟩, hdrawn, hcode, fun hkept => ?_⟩
  · refine (read_after_render_iff press hengraved).2.2 fun hlost => ?_
    exact absurd hlost.2 (by decide +kernel)
  · exact (read_after_render_iff press hdrawn).2.1 hkept ⟨hcode, by decide +kernel⟩

/-- Not every source survives its sheet: the Markdown page of a Markdown file takes its place. -/
theorem not_read_after_render :
    ¬ ∀ (press : Press) (folder : Folder) (arguments : List String) (verbose : Bool)
      (path : String) (title : Option String) (format : SheetFormat) (theme : Theme) (width : Int),
      readSession folder arguments =
        .ok ⟨verbose, .render path none title format theme width⟩ →
      (runCommandLine press folder arguments).folder.read path = folder.read path := by
  intro h
  let folder : Folder := { files := [(.inFolder ["song.md"], [67, 52, 32, 113])] }
  have hsession : readSession folder ["render", "song.md", "--format", "md-vexflow"] =
      .ok ⟨false, .render "song.md" none none .markdown .standard 800⟩ :=
    ok_of_toOption (by decide +kernel)
  have hread : folder.read "song.md" = .ok [67, 52, 32, 113] := ok_of_toOption (by decide +kernel)
  have hkept := h .absent folder _ _ _ _ _ _ _ hsession
  rw [runCommandLine, runWith_of_session hsession] at hkept
  refine (Session.read_run_render_iff false hread _ _ _ _ _).1 hkept ⟨?_, ?_⟩
  · decide +kernel
  · decide +kernel

end ScoreText
