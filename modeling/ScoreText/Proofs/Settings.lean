import Mathlib.Data.List.DropRight
import Mathlib.Data.List.Induction
import ScoreText.Settings

/-!
The holder of the settings over whole sequences of requests. What is held passes every check; a
request is refused for what it asks, whatever is held, although the check is made on the merged
values; and what is held is, setting by setting, the last value that an accepted update gave
since the last reset.
-/

namespace ScoreText

namespace Theme

def names : List String := all.map name

theorem name_mem_names (t : Theme) : t.name ∈ names := by
  cases t <;> decide

theorem ofName?_name (t : Theme) : ofName? t.name = some t := by
  cases t <;> rfl

theorem ofName?_eq_some_iff {name : String} {t : Theme} :
    ofName? name = some t ↔ t.name = name := by
  constructor
  · unfold ofName?
    split <;> simp only [Option.some.injEq, reduceCtorEq, false_implies]
    all_goals
      rintro rfl
      rfl
  · rintro rfl
    exact ofName?_name t

theorem ofName?_eq_none_iff {name : String} : ofName? name = none ↔ name ∉ names := by
  constructor
  · intro h hmem
    obtain ⟨t, -, rfl⟩ := List.mem_map.1 hmem
    rw [ofName?_name] at h
    cases h
  · intro h
    cases ht : ofName? name with
    | none => rfl
    | some t => exact absurd (ofName?_eq_some_iff.1 ht ▸ t.name_mem_names) h

end Theme

/-! ## Checked values -/

/-- Exactly the values of valid settings pass the check, and they come back as they went in. -/
theorem Draft.check_eq_ok_iff {d : Draft} {s : Settings} :
    d.check = .ok s ↔ s.draft = d ∧ s.Valid := by
  constructor
  · intro h
    unfold check at h
    split at h
    · cases h
    · next theme htheme =>
      split at h
      · cases h
      · next hnone =>
        cases h
        have hname : theme.name = d.theme := Theme.ofName?_eq_some_iff.1 htheme
        have hpositive : 0 < d.width ∧ 0 < d.height ∧ 0 < d.fontSize := by
          simpa [sizes] using hnone
        constructor
        · have hcast : ∀ {n : Int}, 0 < n → (n.toNat : Int) = n := by omega
          simp only [Settings.draft, hname, hcast hpositive.1, hcast hpositive.2.1,
            hcast hpositive.2.2]
        · simp only [Settings.Valid]
          omega
  · rintro ⟨rfl, hw, hh, hf⟩
    have htheme : Theme.ofName? s.draft.theme = some s.theme := s.theme.ofName?_name
    have hnone : s.draft.sizes.find? (·.2 ≤ 0) = none := by
      simpa [sizes, Settings.draft] using ⟨hw, hh, hf⟩
    simp only [check, htheme, hnone]
    rfl

/-- The faults of values: an unsupported theme, else the first size that is not positive. -/
theorem Draft.check_eq_error_iff {d : Draft} {fault : SettingsFault} :
    d.check = .error fault ↔
      d.theme ∉ Theme.names ∧ fault = .unsupportedTheme d.theme ∨
      d.theme ∈ Theme.names ∧ ∃ setting value,
        d.sizes.find? (·.2 ≤ 0) = some (setting, value) ∧ fault = .notPositive setting value := by
  unfold check
  cases htheme : Theme.ofName? d.theme with
  | none => simp [Theme.ofName?_eq_none_iff.1 htheme, eq_comm]
  | some theme =>
    have hmem : d.theme ∈ Theme.names := Theme.ofName?_eq_some_iff.1 htheme ▸ theme.name_mem_names
    cases hsize : d.sizes.find? (·.2 ≤ 0) with
    | none => simp [hmem]
    | some size =>
      obtain ⟨setting, value⟩ := size
      simp [hmem, eq_comm]

/-! ## Why changes are refused -/

namespace Changes

/-- A key is unknown exactly if no setting has that name. -/
theorem mem_unknownKeys {c : Changes} {key : String} :
    key ∈ c.unknownKeys ↔ key ∈ c.keys ∧ key ∉ settingNames := by
  simp [unknownKeys]

def sizes (c : Changes) : List (String × Int) :=
  [("width", c.width), ("height", c.height), ("font_size", c.fontSize)].filterMap
    fun (setting, wanted) => wanted.map (setting, ·)

structure Acceptable (c : Changes) : Prop where
  known : c.unknownKeys = []
  themed : ∀ name ∈ c.theme, name ∈ Theme.names
  positive : ∀ size ∈ c.sizes, 0 < size.2

instance (c : Changes) : Decidable c.Acceptable :=
  decidable_of_iff
    (c.unknownKeys = [] ∧ (∀ name ∈ c.theme, name ∈ Theme.names) ∧ ∀ size ∈ c.sizes, 0 < size.2)
    ⟨fun ⟨known, themed, positive⟩ => ⟨known, themed, positive⟩, fun h => ⟨h.1, h.2, h.3⟩⟩

/-- The fault of changes: the unknown keys in order, if there are any; else the theme; else the
first size that is not positive. -/
inductive Refused (c : Changes) : SettingsFault → Prop
  | keys {keys : List String} (unknown : c.unknownKeys ≠ []) (same : keys.Perm c.unknownKeys)
      (sorted : keys.Pairwise (· ≤ ·)) : Refused c (.unknownKeys keys)
  | theme {name : String} (known : c.unknownKeys = []) (wanted : c.theme = some name)
      (unsupported : name ∉ Theme.names) : Refused c (.unsupportedTheme name)
  | size {setting : String} {value : Int} {before after : List (String × Int)}
      (known : c.unknownKeys = []) (themed : ∀ name ∈ c.theme, name ∈ Theme.names)
      (wanted : c.sizes = before ++ (setting, value) :: after)
      (positive : ∀ size ∈ before, 0 < size.2) (nonpositive : value ≤ 0) :
      Refused c (.notPositive setting value)

/-- Unknown keys are reported before anything else, and they have one sorted order. -/
theorem refused_iff_of_unknown {c : Changes} {fault : SettingsFault} (h : c.unknownKeys ≠ []) :
    c.Refused fault ↔
      fault = .unknownKeys (c.unknownKeys.mergeSort fun a b => decide (a ≤ b)) := by
  have hperm := c.unknownKeys.mergeSort_perm fun a b => decide (a ≤ b)
  have hsorted : (c.unknownKeys.mergeSort fun a b => decide (a ≤ b)).Pairwise
      fun a b => decide (a ≤ b) = true := by
    refine List.pairwise_mergeSort ?_ ?_ _
    · intro x y z hxy hyz
      exact decide_eq_true (String.le_trans (of_decide_eq_true hxy) (of_decide_eq_true hyz))
    · intro x y
      simpa using String.le_total x y
  simp only [decide_eq_true_eq] at hsorted
  constructor
  · intro hrefused
    cases hrefused with
    | keys _ same sorted =>
      have hone := (same.trans hperm.symm).eq_of_pairwise (fun _ _ _ _ => String.le_antisymm)
        sorted hsorted
      rw [hone]
    | theme known => exact absurd known h
    | size known => exact absurd known h
  · rintro rfl
    exact .keys h hperm hsorted

/-- Without unknown keys, the theme is reported before the sizes. -/
theorem refused_iff_of_known {c : Changes} {fault : SettingsFault} (h : c.unknownKeys = []) :
    c.Refused fault ↔
      (∃ name, c.theme = some name ∧ name ∉ Theme.names ∧ fault = .unsupportedTheme name) ∨
      (∀ name ∈ c.theme, name ∈ Theme.names) ∧ ∃ setting value,
        c.sizes.find? (·.2 ≤ 0) = some (setting, value) ∧ fault = .notPositive setting value := by
  simp only [List.find?_eq_some_iff_append]
  constructor
  · intro hrefused
    cases hrefused with
    | keys unknown => exact absurd h unknown
    | theme _ wanted unsupported => exact .inl ⟨_, wanted, unsupported, rfl⟩
    | size _ themed wanted positive nonpositive =>
      refine .inr ⟨themed, _, _, ⟨by simpa using nonpositive, _, _, wanted, ?_⟩, rfl⟩
      simpa using positive
  · rintro (⟨name, wanted, unsupported, rfl⟩ |
      ⟨themed, setting, value, ⟨nonpositive, _, _, wanted, positive⟩, rfl⟩)
    · exact .theme h wanted unsupported
    · exact .size h themed wanted (by simpa using positive) (by simpa using nonpositive)

theorem not_acceptable_iff {c : Changes} :
    ¬c.Acceptable ↔ c.unknownKeys ≠ [] ∨ (∃ name ∈ c.theme, name ∉ Theme.names) ∨
      ∃ size ∈ c.sizes, size.2 ≤ 0 := by
  constructor
  · intro hc
    by_contra hnone
    refine hc ⟨?_, fun name wanted => ?_, fun size wanted => ?_⟩
    · by_contra unknown
      exact hnone (.inl unknown)
    · by_contra unsupported
      exact hnone (.inr (.inl ⟨name, wanted, unsupported⟩))
    · by_contra nonpositive
      exact hnone (.inr (.inr ⟨size, wanted, Int.not_lt.1 nonpositive⟩))
  · rintro (unknown | ⟨name, wanted, unsupported⟩ | ⟨size, wanted, nonpositive⟩) hc
    · exact unknown hc.known
    · exact unsupported (hc.themed name wanted)
    · exact absurd (hc.positive size wanted) (Int.not_lt.2 nonpositive)

/-- Changes have a fault exactly if something is amiss with them. -/
theorem exists_refused_iff {c : Changes} : (∃ fault, c.Refused fault) ↔ ¬c.Acceptable := by
  constructor
  · rintro ⟨fault, hrefused⟩
    rw [not_acceptable_iff]
    cases hrefused with
    | keys unknown => exact .inl unknown
    | theme _ wanted unsupported => exact .inr (.inl ⟨_, wanted, unsupported⟩)
    | @size setting value _ _ _ _ wanted _ nonpositive =>
      exact .inr (.inr ⟨(setting, value), by simp [wanted], nonpositive⟩)
  · intro hc
    by_cases known : c.unknownKeys = []
    · simp only [refused_iff_of_known known]
      by_cases themed : ∀ name ∈ c.theme, name ∈ Theme.names
      · cases hsize : c.sizes.find? (·.2 ≤ 0) with
        | some size => exact ⟨_, .inr ⟨themed, size.1, size.2, rfl, rfl⟩⟩
        | none => exact absurd ⟨known, themed, by simpa using hsize⟩ hc
      · push Not at themed
        obtain ⟨name, wanted, unsupported⟩ := themed
        exact ⟨_, .inl ⟨name, wanted, unsupported, rfl⟩⟩
    · exact ⟨_, (refused_iff_of_unknown known).2 rfl⟩

end Changes

/-- Where the present sizes are positive, the first size that is not positive is a wanted one. -/
private theorem find?_merged (rows : List (String × Option Int × Int))
    (h : ∀ row ∈ rows, 0 < row.2.2) :
    (rows.map fun row => (row.1, row.2.1.getD row.2.2)).find? (·.2 ≤ 0) =
      (rows.filterMap fun row => row.2.1.map (row.1, ·)).find? (·.2 ≤ 0) := by
  induction rows with
  | nil => rfl
  | cons row rows ih =>
    obtain ⟨setting, wanted, present⟩ := row
    obtain ⟨hpresent, hrows⟩ := List.forall_mem_cons.1 h
    rw [List.map_cons, List.find?_cons, ih hrows]
    cases wanted with
    | none =>
      have : ¬present ≤ 0 := Int.not_le.2 hpresent
      simp [this]
    | some value => rfl

theorem Settings.find?_sizes_change {s : Settings} (hs : s.Valid) (c : Changes) :
    (s.draft.change c).sizes.find? (·.2 ≤ 0) = c.sizes.find? (·.2 ≤ 0) := by
  obtain ⟨hw, hh, hf⟩ := hs
  refine find?_merged [("width", c.width, s.width), ("height", c.height, s.height),
    ("font_size", c.fontSize, s.fontSize)] ?_
  simpa using ⟨hw, hh, hf⟩

/-- **Whether and why an update is refused** is for the changes alone to say, although it is the
merged values that are checked. -/
theorem Settings.update_eq_error_iff {s : Settings} (hs : s.Valid) {c : Changes}
    {fault : SettingsFault} : s.update c = .error fault ↔ c.Refused fault := by
  by_cases known : c.unknownKeys = []
  · have hupdate : s.update c = (s.draft.change c).check := by simp [update, known]
    rw [hupdate, Draft.check_eq_error_iff, find?_sizes_change hs,
      Changes.refused_iff_of_known known]
    cases wanted : c.theme with
    | none =>
      have hpresent : (s.draft.change c).theme ∈ Theme.names := by
        simpa [Draft.change, draft, wanted] using s.theme.name_mem_names
      simp [hpresent]
    | some name =>
      have hwanted : (s.draft.change c).theme = name := by simp [Draft.change, wanted]
      simp [hwanted]
  · have hupdate : s.update c =
        .error (.unknownKeys (c.unknownKeys.mergeSort fun a b => decide (a ≤ b))) := by
      simp [update, known]
    rw [hupdate, Changes.refused_iff_of_unknown known, Except.error.injEq, eq_comm]

/-- An accepted update puts the wanted values in place of the present ones. -/
theorem Settings.draft_of_update_eq_ok {s u : Settings} {c : Changes} (h : s.update c = .ok u) :
    u.draft = s.draft.change c ∧ u.Valid := by
  unfold update at h
  split at h
  · exact Draft.check_eq_ok_iff.1 h
  · cases h

/-! ## One request -/

namespace Settings

/-- An update is either accepted as a whole or refused as a whole. -/
theorem handle_update_cases {s : Settings} (hs : s.Valid) (c : Changes) :
    (c.Acceptable ∧ ∃ u, s.handle (.update c) = (u, none) ∧ u.draft = s.draft.change c ∧ u.Valid) ∨
    (¬c.Acceptable ∧ ∃ fault, c.Refused fault ∧ s.handle (.update c) = (s, some fault)) := by
  cases h : s.update c with
  | ok u =>
    refine .inl ⟨?_, u, by simp [handle, h], draft_of_update_eq_ok h⟩
    by_contra hc
    obtain ⟨fault, hfault⟩ := Changes.exists_refused_iff.2 hc
    rw [(update_eq_error_iff hs).2 hfault] at h
    cases h
  | error fault =>
    have hfault := (update_eq_error_iff hs).1 h
    exact .inr ⟨Changes.exists_refused_iff.1 ⟨fault, hfault⟩, fault, hfault, by simp [handle, h]⟩

theorem valid_default : ({} : Settings).Valid := by
  unfold Valid
  decide

/-- Whatever is requested, valid settings stay valid. -/
theorem valid_handle {s : Settings} (hs : s.Valid) (r : SettingsRequest) :
    (s.handle r).1.Valid := by
  cases r with
  | update c =>
    obtain ⟨-, u, hu, -, hvalid⟩ | ⟨-, fault, -, hfault⟩ := handle_update_cases hs c
    · rwa [hu]
    · rwa [hfault]
  | reset => exact valid_default
  | get => exact hs

theorem handle_update_eq_some_iff {s : Settings} (hs : s.Valid) (c : Changes)
    (fault : SettingsFault) : (s.handle (.update c)).2 = some fault ↔ c.Refused fault := by
  rw [← update_eq_error_iff hs]
  cases h : s.update c <;> simp [handle, h]

/-- A request that is refused changes nothing. -/
theorem handle_of_refused {s : Settings} {r : SettingsRequest} {fault : SettingsFault}
    (h : (s.handle r).2 = some fault) : (s.handle r).1 = s := by
  unfold handle at h ⊢
  split at h
  · next c =>
    cases hu : s.update c with
    | ok u => simp [hu] at h
    | error fault => rfl
  · cases h
  · rfl

/-! ## A sequence of requests -/

def after (s : Settings) (requests : List SettingsRequest) : Settings :=
  requests.foldl (fun s r => (s.handle r).1) s

theorem after_concat (s : Settings) (requests : List SettingsRequest) (r : SettingsRequest) :
    s.after (requests ++ [r]) = ((s.after requests).handle r).1 := by
  simp [after]

theorem valid_after {s : Settings} (hs : s.Valid) (requests : List SettingsRequest) :
    (s.after requests).Valid := by
  induction requests using List.reverseRecOn with
  | nil => exact hs
  | append_singleton requests r ih =>
    rw [after_concat]
    exact valid_handle ih r

end Settings

/-- The changes of an update that asks for nothing amiss. -/
def SettingsRequest.accepted? : SettingsRequest → Option Changes
  | .update c => if c.Acceptable then some c else none
  | .reset | .get => none

def acceptedSinceReset (requests : List SettingsRequest) : List Changes :=
  (requests.rtakeWhile (· ≠ .reset)).filterMap SettingsRequest.accepted?

section LastGiven

variable {α : Type} (wanted : Changes → Option α) (user : Changes) (standard : α)

/-- The last value that accepted changes gave to a setting since the last reset; without one, the
value from the start, if there was no reset and it was wanted then; else the standard one. -/
def lastGiven (requests : List SettingsRequest) : α :=
  ((acceptedSinceReset requests).filterMap wanted).getLast?.getD
    (if .reset ∈ requests then standard else (wanted user).getD standard)

variable (requests : List SettingsRequest)

theorem lastGiven_reset : lastGiven wanted user standard (requests ++ [.reset]) = standard := by
  simp [lastGiven, acceptedSinceReset]

theorem lastGiven_of_acceptable {c : Changes} (hc : c.Acceptable) :
    lastGiven wanted user standard (requests ++ [.update c]) =
      (wanted c).getD (lastGiven wanted user standard requests) := by
  have haccepted : acceptedSinceReset (requests ++ [.update c]) =
      acceptedSinceReset requests ++ [c] := by
    simp [acceptedSinceReset, SettingsRequest.accepted?, hc]
  unfold lastGiven
  rw [haccepted]
  cases h : wanted c <;> simp [h]

theorem lastGiven_of_not_accepted {r : SettingsRequest} (hr : r ≠ .reset)
    (hc : r.accepted? = none) :
    lastGiven wanted user standard (requests ++ [r]) =
      lastGiven wanted user standard requests := by
  have haccepted : acceptedSinceReset (requests ++ [r]) = acceptedSinceReset requests := by
    simp [acceptedSinceReset, hr, hc]
  unfold lastGiven
  rw [haccepted]
  simp [hr.symm]

end LastGiven

namespace Draft

/-- What a user's settings are after a sequence of requests, setting by setting. -/
def leftBy (user : Changes) (requests : List SettingsRequest) : Draft where
  theme := lastGiven Changes.theme user "default" requests
  width := lastGiven Changes.width user 800 requests
  height := lastGiven Changes.height user 600 requests
  fontSize := lastGiven Changes.fontSize user 14 requests
  fontFamily := lastGiven Changes.fontFamily user "Arial, sans-serif" requests

variable (user : Changes) (requests : List SettingsRequest)

theorem leftBy_nil : leftBy user [] = ({} : Settings).draft.change user := rfl

theorem leftBy_reset : leftBy user (requests ++ [.reset]) = ({} : Settings).draft := by
  simp only [leftBy, lastGiven_reset]
  rfl

theorem leftBy_of_acceptable {c : Changes} (hc : c.Acceptable) :
    leftBy user (requests ++ [.update c]) = (leftBy user requests).change c := by
  simp only [leftBy, lastGiven_of_acceptable _ _ _ _ hc, change]

theorem leftBy_of_not_accepted {r : SettingsRequest} (hr : r ≠ .reset) (hc : r.accepted? = none) :
    leftBy user (requests ++ [r]) = leftBy user requests := by
  simp only [leftBy, lastGiven_of_not_accepted _ _ _ _ hr hc]

end Draft

/-- What is held is what the history of the requests says. -/
theorem Settings.draft_after {user : Changes} {first : Settings} (hvalid : first.Valid)
    (hfirst : first.draft = ({} : Settings).draft.change user) (requests : List SettingsRequest) :
    (first.after requests).draft = .leftBy user requests := by
  induction requests using List.reverseRecOn with
  | nil => exact hfirst.trans (Draft.leftBy_nil user).symm
  | append_singleton requests r ih =>
    rw [after_concat]
    cases r with
    | update c =>
      obtain ⟨hc, u, hu, hdraft, -⟩ | ⟨hc, fault, -, hfault⟩ :=
        handle_update_cases (valid_after hvalid requests) c
      · rw [hu, hdraft, ih, Draft.leftBy_of_acceptable user requests hc]
      · rw [hfault, ih, Draft.leftBy_of_not_accepted]
        · simp
        · simp [SettingsRequest.accepted?, hc]
    | reset => exact (Draft.leftBy_reset user requests).symm
    | get =>
      rw [Draft.leftBy_of_not_accepted user requests (by simp) rfl]
      exact ih

/-- **The settings that are held.** The settings a user starts with are refused for a fault of
what the user wants and for nothing else. If they are not, then after every sequence of requests
the theme is a known one and all sizes are positive; an update is refused exactly if it has an
unknown key, an unsupported theme or a size that is not positive, with the fault that comes first
(`Changes.Refused`); a refused request changes nothing; and every setting has the value that its
history says. -/
theorem settings_held (user : Changes) (requests : List SettingsRequest) :
    (∀ fault, Settings.ofChanges user = .error fault ↔ user.Refused fault) ∧
    ∀ first, Settings.ofChanges user = .ok first →
      ((first.after requests).draft.theme ∈ Theme.names ∧ (first.after requests).Valid) ∧
      (∀ c, (∃ fault, ((first.after requests).handle (.update c)).2 = some fault) ↔
        c.unknownKeys ≠ [] ∨ (∃ name ∈ c.theme, name ∉ Theme.names) ∨
          ∃ size ∈ c.sizes, size.2 ≤ 0) ∧
      (∀ c fault, ((first.after requests).handle (.update c)).2 = some fault ↔ c.Refused fault) ∧
      (∀ r fault, ((first.after requests).handle r).2 = some fault →
        ((first.after requests).handle r).1 = first.after requests) ∧
      (first.after requests).draft = .leftBy user requests := by
  refine ⟨fun fault => Settings.update_eq_error_iff Settings.valid_default, ?_⟩
  intro first hfirst
  obtain ⟨hdraft, hvalid⟩ := Settings.draft_of_update_eq_ok hfirst
  have hafter := Settings.valid_after hvalid requests
  refine ⟨⟨Theme.name_mem_names _, hafter⟩, fun c => ?_, Settings.handle_update_eq_some_iff hafter,
    fun r fault => Settings.handle_of_refused, Settings.draft_after hvalid hdraft requests⟩
  simp only [Settings.handle_update_eq_some_iff hafter]
  exact Changes.exists_refused_iff.trans Changes.not_acceptable_iff

/-- A user with a wide dark sheet asks for impossible sizes and for a font size; asks for the
standard settings and then for a height; and asks for keys that do not exist. -/
theorem settings_held_after_reset :
    ∃ first : Settings,
      Settings.ofChanges { theme := some "dark", width := some 1024 } = .ok first ∧
      (first.after [.update { height := some 300, width := some (-5) },
        .update { fontSize := some 20 }]).draft =
          ⟨"dark", 1024, 600, 20, "Arial, sans-serif"⟩ ∧
      (first.after [.update { fontSize := some 20 }, .reset,
        .update { height := some 300 }]).draft =
          ⟨"default", 800, 300, 14, "Arial, sans-serif"⟩ ∧
      ((first.after [.reset]).handle
        (.update { width := some 0, keys := ["zoom", "width", "colour"] })).2 =
          some (.unknownKeys ["colour", "zoom"]) := by
  have hfirst : Settings.ofChanges { theme := some "dark", width := some 1024 } =
      .ok ⟨.dark, 1024, 600, 14, "Arial, sans-serif"⟩ := rfl
  refine ⟨_, hfirst, ?_, ?_, ?_⟩
  · exact ((settings_held _ _).2 _ hfirst).2.2.2.2
  · exact ((settings_held _ _).2 _ hfirst).2.2.2.2
  · refine (((settings_held _ _).2 _ hfirst).2.2.1 _ _).2 ?_
    exact .keys (by decide) (.swap _ _ _) (by decide)

end ScoreText
