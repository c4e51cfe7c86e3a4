import ScoreText.Proofs.Files

/-!
Where paths lead. A path that can be read leads through directories to one last name, which is the
name of its file (`found_of_read`). Another extension changes that name and nothing else, so the
path with the other extension leads to the same directory (`writePlace_withExtension`). Writing a
file there leaves the way to the first file open (`read_put`).
-/

namespace ScoreText

/-! ## Names and extensions -/

/-- What a file name ends with from its last dot on, if that dot stands neither first nor last. -/
def Path.extension (p : Path) : String := (splitName p.name).2

private theorem splitName_append (name : String) :
    (Path.splitName name).1 ++ (Path.splitName name).2 = name := by
  have hcut : (name.toList.reverse.dropWhile (· ≠ '.')).reverse ++
      (name.toList.reverse.takeWhile (· ≠ '.')).reverse = name.toList := by
    rw [← List.reverse_append, List.takeWhile_append_dropWhile, List.reverse_reverse]
  unfold Path.splitName
  dsimp only
  split
  · exact String.append_empty
  · exact String.append_empty
  · next hstem _ =>
    -- The last dot was left out of the stem and stands in front of the extension.
    have hne : (name.toList.reverse.dropWhile (· ≠ '.')) ≠ [] := by
      intro hnil
      rw [hnil] at hstem
      exact hstem rfl
    obtain ⟨c, cs, hcs⟩ := List.exists_cons_of_ne_nil hne
    have hdot : c = '.' := by
      have hhead := List.head?_dropWhile_not (fun c : Char => decide (c ≠ '.')) name.toList.reverse
      rw [hcs] at hhead
      simpa using hhead
    rw [← String.toList_inj, String.toList_append, String.toList_ofList, String.toList_ofList]
    refine Eq.trans ?_ hcut
    rw [hcs, hdot]
    simp

theorem Path.stem_append_extension (p : Path) : p.stem ++ p.extension = p.name :=
  splitName_append p.name

/-! ## Parts -/

theorem slash_not_mem_slashParts {path part : String} (h : part ∈ slashParts path) :
    '/' ∉ part.toList := by
  obtain ⟨cs, hcs, rfl⟩ := List.mem_map.1 h
  rw [String.toList_ofList]
  exact Text.not_mem_of_mem_splitAtEach hcs

private theorem slashParts_slash (s : String) : slashParts ("/" ++ s) = "" :: slashParts s := by
  simp [slashParts, Text.splitAtEach]

/-- Parts that are joined by slashes come apart again. -/
private theorem slashParts_intercalate {parts : List String} (hne : parts ≠ [])
    (h : ∀ part ∈ parts, '/' ∉ part.toList) : slashParts ("/".intercalate parts) = parts := by
  have hsplit : (['/'].intercalate (parts.map String.toList)).splitOn '/' =
      parts.map String.toList :=
    List.splitOn_intercalate '/' (by simpa using h) (by simpa using hne)
  rw [slashParts, Text.splitAtEach_eq_splitOn, String.toList_intercalate]
  show (((['/'].intercalate (parts.map String.toList)).splitOn '/').map String.ofList) = parts
  rw [hsplit, List.map_map]
  simp [Function.comp_def]

/-! ## Places and directories -/

def Place.child (p : Place) (name : String) : Place := { p with parts := p.parts ++ [name] }

/-- A part of a path that is no step back and no standing still. -/
def IsFileName (part : String) : Prop := part ≠ "" ∧ part ≠ "." ∧ part ≠ ".."

theorem Place.follow_of_isFileName {part : String} (h : IsFileName part) (p : Place) :
    p.follow part = p.child part := by
  unfold follow
  rw [if_neg (by simp [h.1, h.2.1]), if_neg h.2.2]
  rfl

namespace Folder

variable {f : Folder}

theorem locate_eq_ok_iff {path : String} {p : Place} :
    f.locate path = .ok p ↔ checkPath path = .ok () ∧
      (slashParts path).foldlM f.enter (.startOf path) = .ok p := by
  constructor
  · intro h
    obtain ⟨_, hcheck, hway⟩ := ok_of_bind h
    exact ⟨hcheck, hway⟩
  · rintro ⟨hcheck, hway⟩
    rw [locate, hcheck]
    exact hway

theorem locate_of_writePlace {path : String} {p : Place} (h : f.writePlace path = .ok p) :
    f.locate path = .ok p := by
  obtain ⟨-, -, h⟩ := ok_of_bind h
  split at h
  · obtain ⟨_, -, h⟩ := ok_of_bind h
    obtain ⟨_, -, h⟩ := ok_of_bind h
    cases h
  · obtain ⟨q, hq, h⟩ := ok_of_bind h
    split at h
    · cases h
    · cases h
      exact hq

/-- All places on the way to a place are directories. -/
def Grounded (f : Folder) (p : Place) : Prop :=
  ∀ n < p.parts.length, f.isDirectory ⟨p.origin, p.parts.take n⟩ = true

theorem enter_eq_ok_iff {p q : Place} {part : String} :
    f.enter p part = .ok q ↔
      f.isDirectory p = true ∧ part.utf8ByteSize ≤ maxNameBytes ∧ q = p.follow part := by
  unfold enter
  split
  · next hdir =>
    split
    · next hlong => simp [Nat.not_le.2 hlong]
    · next hshort => simp [hdir, Nat.not_lt.1 hshort, eq_comm]
  · next hdir => split <;> simp [hdir]

theorem isDirectory_of_nil (f : Folder) (origin : Origin) : f.isDirectory ⟨origin, []⟩ = true :=
  rfl

/-- From a directory every part of a path leads on through directories. -/
theorem grounded_follow {p : Place} (h : f.Grounded p) (hdir : f.isDirectory p = true)
    (part : String) : f.Grounded (p.follow part) := by
  unfold Place.follow
  split
  · exact h
  split
  · unfold Place.parent
    split
    · exact h
    · intro n hn
      exact absurd hn (Nat.not_lt_zero n)
    · intro n hn
      rw [List.length_dropLast] at hn
      rw [List.dropLast_eq_take, List.take_take, Nat.min_eq_left (by omega)]
      exact h n (by omega)
  · intro n hn
    simp only [List.length_append, List.length_singleton] at hn
    rcases Nat.lt_or_ge n p.parts.length with hlt | hge
    · rw [List.take_append_of_le_length (by omega)]
      exact h n hlt
    · obtain rfl : n = p.parts.length := by omega
      rw [List.take_left]
      exact hdir

/-- A step back and standing still end at a directory. -/
theorem isDirectory_follow {p : Place} (h : f.Grounded p) (hdir : f.isDirectory p = true)
    {part : String} (hpart : ¬ IsFileName part) : f.isDirectory (p.follow part) = true := by
  unfold Place.follow
  split
  · exact hdir
  · next hstep =>
    have hback : part = ".." := Decidable.byContradiction fun hne =>
      hpart ⟨fun he => hstep (.inl he), fun he => hstep (.inr he), hne⟩
    rw [if_pos hback]
    obtain ⟨origin, parts⟩ := p
    cases parts with
    | nil => cases origin <;> exact isDirectory_of_nil f _
    | cons first rest =>
      have hlast := h rest.length (by simp)
      have hparent : Place.parent ⟨origin, first :: rest⟩ =
          ⟨origin, (first :: rest).take rest.length⟩ := by
        rw [show rest.length = (first :: rest).length - 1 from rfl, ← List.dropLast_eq_take]
        cases origin <;> rfl
      rw [hparent]
      exact hlast

theorem grounded_of_foldlM {parts : List String} {p q : Place} (h : f.Grounded p)
    (hway : parts.foldlM f.enter p = .ok q) : f.Grounded q := by
  induction parts generalizing p with
  | nil =>
    cases hway
    exact h
  | cons part parts ih =>
    rw [List.foldlM_cons] at hway
    obtain ⟨r, hr, hway⟩ := ok_of_bind hway
    obtain ⟨hdir, -, rfl⟩ := enter_eq_ok_iff.1 hr
    exact ih (grounded_follow h hdir part) hway

/-- Parts at which a way stands still can be left out. -/
theorem foldlM_steps {parts : List String} {p q : Place}
    (hway : parts.foldlM f.enter p = .ok q) :
    (parts.filter fun part => part ≠ "" ∧ part ≠ ".").foldlM f.enter p = .ok q := by
  induction parts generalizing p with
  | nil => exact hway
  | cons part parts ih =>
    rw [List.foldlM_cons] at hway
    obtain ⟨r, hr, hway⟩ := ok_of_bind hway
    have hrest := ih hway
    by_cases hpart : part = "" ∨ part = "."
    · obtain ⟨-, -, rfl⟩ := enter_eq_ok_iff.1 hr
      have hstill : p.follow part = p := if_pos hpart
      rw [hstill] at hrest
      rwa [List.filter_cons_of_neg (by simpa using fun h => hpart.resolve_left h)]
    · rw [List.filter_cons_of_pos (by simpa using hpart), List.foldlM_cons, hr]
      exact hrest

/-! ## Files -/

/-- `f.Found path dir name bytes`: the path leads through directories to `dir`, where a file with
the given name and bytes stands. -/
structure Found (f : Folder) (path : String) (dir : Place) (name : String) (bytes : List UInt8) :
    Prop where
  way : ∃ front, slashParts path = front ++ [name] ∧
    front.foldlM f.enter (.startOf path) = .ok dir
  located : f.locate path = .ok (dir.child name)
  isFileName : IsFileName name
  grounded : f.Grounded dir
  isDirectory : f.isDirectory dir = true
  notDirectory : f.isDirectory (dir.child name) = false
  file : f.file? (dir.child name) = some bytes

theorem read_of_locate {path : String} {p : Place} {bytes : List UInt8}
    (hlocate : f.locate path = .ok p) (hdir : f.isDirectory p = false)
    (hfile : f.file? p = some bytes) : f.read path = .ok bytes := by
  rw [read, hlocate]
  simp [bind, Except.bind, hdir, hfile]

theorem grounded_startOf (f : Folder) (path : String) : f.Grounded (.startOf path) := by
  intro n hn
  have hnil : (Place.startOf path).parts = [] := by
    unfold Place.startOf
    split <;> rfl
  rw [hnil] at hn
  exact absurd hn (Nat.not_lt_zero n)

/-- A path that can be read ends with the name of its file. -/
theorem found_of_read {path : String} {bytes : List UInt8} (h : f.read path = .ok bytes) :
    ∃ dir name, f.Found path dir name bytes := by
  obtain ⟨p, hlocate, h⟩ := ok_of_bind h
  obtain ⟨hdir, hfile⟩ : f.isDirectory p = false ∧ f.file? p = some bytes := by
    split at h
    · cases h
    · next hnot =>
      split at h
      · next hbytes =>
        cases h
        exact ⟨by simpa using hnot, hbytes⟩
      · cases h
  have hway := (locate_eq_ok_iff.1 hlocate).2
  obtain ⟨front, name, hparts⟩ : ∃ front name, slashParts path = front ++ [name] := by
    rcases List.eq_nil_or_concat (slashParts path) with hnil | hlast
    · rw [hnil] at hway
      cases hway
      have hstart : f.isDirectory (.startOf path) = true := by
        unfold Place.startOf
        split <;> exact isDirectory_of_nil f _
      rw [hstart] at hdir
      cases hdir
    · obtain ⟨front, name, hlast⟩ := hlast
      exact ⟨front, name, by simpa using hlast⟩
  rw [hparts, List.foldlM_append] at hway
  obtain ⟨dir, hfront, hlast⟩ := ok_of_bind hway
  rw [List.foldlM_cons] at hlast
  obtain ⟨q, hq, hlast⟩ := ok_of_bind hlast
  cases hlast
  obtain ⟨hparent, -, rfl⟩ := enter_eq_ok_iff.1 hq
  have hgrounded := grounded_of_foldlM (f.grounded_startOf path) hfront
  have hname : IsFileName name := Classical.byContradiction fun hnot => by
    rw [isDirectory_follow hgrounded hparent hnot] at hdir
    cases hdir
  rw [Place.follow_of_isFileName hname] at hlocate hdir hfile
  exact ⟨dir, name, ⟨front, hparts, hfront⟩, hlocate, hname, hgrounded, hparent, hdir, hfile⟩

theorem name_of_found {path : String} {dir : Place} {name : String} {bytes : List UInt8}
    (h : f.Found path dir name bytes) : (Path.ofString path).name = name := by
  obtain ⟨front, hparts, -⟩ := h.way
  simp [Path.name, Path.ofString, hparts, h.isFileName.1, h.isFileName.2.1]

/-! ## Another extension -/

private theorem rootOf_cases (cs : List Char) :
    Path.rootOf cs = "" ∧ cs.head? ≠ some '/' ∨
      (Path.rootOf cs = "/" ∨ Path.rootOf cs = "//") ∧ cs.head? = some '/' := by
  unfold Path.rootOf
  split
  · exact .inr ⟨.inl rfl, rfl⟩
  · exact .inr ⟨.inr rfl, rfl⟩
  · exact .inr ⟨.inl rfl, rfl⟩
  · next hnot =>
    refine .inl ⟨rfl, fun hhead => ?_⟩
    cases cs with
    | nil => cases hhead
    | cons c cs =>
      cases hhead
      exact hnot cs rfl

private theorem startOf_eq (path : String) :
    Place.startOf path =
      if path.toList.head? = some '/' then ⟨.root, []⟩ else .inFolder [] := by
  unfold Place.startOf
  have hiff : path.startsWith "/" = true ↔ path.toList.head? = some '/' := by
    rw [String.startsWith_string_iff]
    cases path.toList with
    | nil => simp
    | cons c cs => simp [eq_comm]
  simp only [hiff]

/-- A way that begins at a slash stands still there. -/
private theorem foldlM_root (f : Folder) {root : String} (h : root = "/" ∨ root = "//")
    {parts : List String} (hne : parts ≠ []) (hparts : ∀ part ∈ parts, '/' ∉ part.toList) :
    (slashParts (root ++ "/".intercalate parts)).foldlM f.enter ⟨.root, []⟩ =
      parts.foldlM f.enter ⟨.root, []⟩ := by
  have hstill : f.enter ⟨.root, []⟩ "" = .ok ⟨.root, []⟩ :=
    enter_eq_ok_iff.2 ⟨isDirectory_of_nil f _, by decide, rfl⟩
  rcases h with rfl | rfl
  · rw [slashParts_slash, slashParts_intercalate hne hparts, List.foldlM_cons, hstill]
    rfl
  · rw [show "//" ++ "/".intercalate parts = "/" ++ ("/" ++ "/".intercalate parts) by
      rw [← String.append_assoc]; rfl, slashParts_slash, slashParts_slash,
      slashParts_intercalate hne hparts, List.foldlM_cons, hstill]
    show ("" :: parts).foldlM f.enter ⟨.root, []⟩ = _
    rw [List.foldlM_cons, hstill]
    rfl

/-- The text of a path leads where its parts lead from the place where it starts. -/
private theorem foldlM_display (f : Folder) {path : String} {parts : List String} (hne : parts ≠ [])
    (hparts : ∀ part ∈ parts, '/' ∉ part.toList ∧ part ≠ "") :
    let shown := (Path.mk (Path.rootOf path.toList) parts).display
    (slashParts shown).foldlM f.enter (.startOf shown) =
      parts.foldlM f.enter (.startOf path) := by
  intro shown
  have hslashes : ∀ part ∈ parts, '/' ∉ part.toList := fun part h => (hparts part h).1
  obtain ⟨first, rest, rfl⟩ := List.exists_cons_of_ne_nil hne
  obtain ⟨c, cs, hc⟩ : ∃ c cs, first.toList = c :: cs := by
    refine List.exists_cons_of_ne_nil fun hnil => (hparts first (by simp)).2 ?_
    rw [← String.ofList_toList (s := first), hnil]
  have hcslash : c ≠ '/' := by
    rintro rfl
    exact hslashes first (by simp) (by rw [hc]; simp)
  have hjoined : ("/".intercalate (first :: rest)).toList.head? = some c := by
    cases rest with
    | nil => simp [hc]
    | cons next rest => simp [String.intercalate_cons_cons, hc]
  have hnonempty (root : String) : root ++ "/".intercalate (first :: rest) ≠ "" := by
    intro hnil
    have hempty := congrArg String.toList hnil
    rw [String.toList_append, String.toList_empty, List.append_eq_nil_iff] at hempty
    rw [hempty.2] at hjoined
    cases hjoined
  have hshown : shown = Path.rootOf path.toList ++ "/".intercalate (first :: rest) :=
    if_neg (hnonempty _)
  rw [hshown, startOf_eq, startOf_eq]
  rcases rootOf_cases path.toList with ⟨hroot, hhead⟩ | ⟨hroot, hhead⟩
  · rw [hroot, String.empty_append, if_neg hhead, slashParts_intercalate hne hslashes,
      if_neg (by rw [hjoined]; simpa using hcslash)]
  · have hslash : (Path.rootOf path.toList ++ "/".intercalate (first :: rest)).toList.head? =
        some '/' := by
      rcases hroot with hroot | hroot <;> rw [hroot] <;> simp
    rw [if_pos hslash, if_pos hhead]
    exact foldlM_root f hroot hne hslashes

/-- The path with another extension can be written, if at all, in the directory of its file. -/
theorem writePlace_withExtension {path : String} {dir : Place} {name : String}
    {bytes : List UInt8} (h : f.Found path dir name bytes) {extension : String}
    (hslash : '/' ∉ extension.toList)
    (hname : IsFileName ((Path.ofString path).stem ++ extension)) {place : Place}
    (hplace : f.writePlace ((Path.ofString path).withExtension extension).display = .ok place) :
    place = dir.child ((Path.ofString path).stem ++ extension) := by
  obtain ⟨front, hparts, hway⟩ := h.way
  have hstem : '/' ∉ (Path.ofString path).stem.toList := by
    have hmem : (Path.ofString path).name ∈ slashParts path := by
      rw [name_of_found h, hparts]
      simp
    have hnot := slash_not_mem_slashParts hmem
    rw [← Path.stem_append_extension, String.toList_append, List.mem_append] at hnot
    exact fun hs => hnot (.inl hs)
  -- The steps before the last name are those of the path itself.
  have hpath : (Path.ofString path).withExtension extension =
      ⟨Path.rootOf path.toList, (front.filter fun part => part ≠ "" ∧ part ≠ ".") ++
        [(Path.ofString path).stem ++ extension]⟩ := by
    simp [Path.withExtension, Path.ofString, hparts, h.isFileName.1, h.isFileName.2.1]
  have hall : ∀ part ∈ (front.filter fun part => part ≠ "" ∧ part ≠ ".") ++
      [(Path.ofString path).stem ++ extension], '/' ∉ part.toList ∧ part ≠ "" := by
    intro part hpart
    rcases List.mem_append.1 hpart with hpart | hpart
    · obtain ⟨hmem, hstep⟩ := List.mem_filter.1 hpart
      refine ⟨@slash_not_mem_slashParts path part ?_, (of_decide_eq_true hstep).1⟩
      rw [hparts]
      exact List.mem_append_left _ hmem
    · rw [List.mem_singleton.1 hpart]
      exact ⟨by simp [hstem, hslash], hname.1⟩
  have hlocate := (locate_eq_ok_iff.1 (locate_of_writePlace hplace)).2
  rw [hpath, foldlM_display f (by simp) hall, List.foldlM_append, foldlM_steps hway] at hlocate
  obtain ⟨q, hq, hlast⟩ := ok_of_bind hlocate
  cases hq
  rw [List.foldlM_cons] at hlast
  obtain ⟨r, hr, hlast⟩ := ok_of_bind hlast
  cases hlast
  obtain ⟨-, -, hfollow⟩ := enter_eq_ok_iff.1 hr
  rw [hfollow, Place.follow_of_isFileName hname]

/-! ## Reading after writing -/

/-- A file that is written in a directory makes no other directory. -/
theorem isDirectory_put {dir : Place} (hgrounded : f.Grounded dir) (hdir : f.isDirectory dir = true)
    (name : String) (bytes : List UInt8) (p : Place) :
    (f.put (dir.child name) bytes).isDirectory p = f.isDirectory p := by
  unfold put
  split
  · rfl
  split
  · simp only [isDirectory, List.any_map]
    rfl
  · rw [Bool.eq_iff_iff]
    simp only [isDirectory, List.any_append, List.any_cons, List.any_nil, Bool.or_false,
      Bool.or_eq_true]
    constructor
    · rintro (hp | hp | hbelow)
      · exact .inl hp
      · exact .inr hp
      · -- What lies above the file is the directory or on the way to it.
        have hp : f.isDirectory p = true := by
          obtain ⟨origin, parts⟩ := p
          simp only [Place.isBelow, Place.child, Bool.and_eq_true, decide_eq_true_eq,
            List.isPrefixOf_iff_prefix, List.length_append, List.length_singleton] at hbelow
          obtain ⟨⟨horigin, hprefix⟩, hlt⟩ := hbelow
          obtain rfl := of_decide_eq_true horigin
          have hparts : parts = dir.parts.take parts.length := by
            rw [List.prefix_iff_eq_take.1 hprefix, List.take_append_of_le_length (by omega)]
            simp
          rcases Nat.lt_or_ge parts.length dir.parts.length with hshort | hlong
          · rw [hparts]
            exact hgrounded _ hshort
          · rw [List.take_of_length_le hlong] at hparts
            rw [hparts]
            exact hdir
        simpa only [isDirectory, Bool.or_eq_true] using hp
    · rintro (hp | hp)
      · exact .inl hp
      · exact .inr (.inl hp)

theorem locate_of_isDirectory {g : Folder} (h : ∀ p, g.isDirectory p = f.isDirectory p)
    {path : String} {p : Place} (hlocate : f.locate path = .ok p) : g.locate path = .ok p := by
  have hway (parts : List String) (q : Place) (hq : parts.foldlM f.enter q = .ok p) :
      parts.foldlM g.enter q = .ok p := by
    induction parts generalizing q with
    | nil => exact hq
    | cons part parts ih =>
      rw [List.foldlM_cons] at hq ⊢
      obtain ⟨r, hr, hq⟩ := ok_of_bind hq
      have hr' : g.enter q part = .ok r := by
        rw [enter_eq_ok_iff] at hr ⊢
        rwa [h]
      rw [hr']
      exact ih r hq
  obtain ⟨hcheck, hparts⟩ := locate_eq_ok_iff.1 hlocate
  exact locate_eq_ok_iff.2 ⟨hcheck, hway _ _ hparts⟩

/-- A path that can be read reads the same after a file was written in its directory, unless that
file is its own. -/
theorem read_put {path : String} {dir : Place} {name : String} {bytes : List UInt8}
    (h : f.Found path dir name bytes) {other : String} (hdevice : dir.child other ≠ .nullDevice)
    (content : List UInt8) :
    (f.put (dir.child other) content).read path =
      .ok (if other = name then content else bytes) := by
  have hsame := isDirectory_put h.grounded h.isDirectory other content
  have hset := (f.setAt_put (dir.child other) content).files (dir.child name)
  refine read_of_locate (locate_of_isDirectory hsame h.located)
    ((hsame _).trans h.notDirectory) ?_
  rw [hset, h.file]
  by_cases hother : other = name
  · rw [if_pos hother, hother, if_pos ⟨rfl, hother ▸ hdevice⟩]
  · have hne : dir.child name ≠ dir.child other := by
      intro heq
      have hparts := congrArg Place.parts heq
      simp only [Place.child, List.append_cancel_left_eq, List.cons.injEq, and_true] at hparts
      exact hother hparts.symm
    rw [if_neg hother, if_neg fun hboth => hne hboth.1]

end Folder

end ScoreText
