/-!
Settings of the sheet pages. Changes are checked as a whole: either all of them take effect or
none does.
-/

namespace ScoreText

inductive Theme
  | standard
  | dark
  | forest
  | neutral
  deriving DecidableEq, Repr

namespace Theme

def name : Theme → String
  | .standard => "default"
  | .dark => "dark"
  | .forest => "forest"
  | .neutral => "neutral"

/-- Every theme, in the order of the names. -/
def all : List Theme := [.dark, .standard, .forest, .neutral]

def ofName? : String → Option Theme
  | "default" => some .standard
  | "dark" => some .dark
  | "forest" => some .forest
  | "neutral" => some .neutral
  | _ => none

/-- The colour behind the pages. -/
def backdrop : Theme → String
  | .standard => "#f0f0f0"
  | .dark => "#1e1e1e"
  | .forest => "#e8f0e4"
  | .neutral => "#f5f5f5"

/-- The colour of the paper. -/
def card : Theme → String
  | .standard => "#ffffff"
  | .dark => "#2b2b2b"
  | .forest => "#fbfdf9"
  | .neutral => "#ffffff"

def ink : Theme → String
  | .standard => "#222222"
  | .dark => "#e6e6e6"
  | .forest => "#1f3b1a"
  | .neutral => "#444444"

end Theme

structure Settings where
  theme : Theme := .standard
  width : Nat := 800
  height : Nat := 600
  fontSize : Nat := 14
  fontFamily : String := "Arial, sans-serif"
  deriving DecidableEq, Repr

/-- The names of the settings, as they come from outside. -/
def settingNames : List String := ["theme", "width", "height", "font_size", "font_family"]

/-- Wanted changes to the settings, as they come from outside: the values under the names of
settings, and all keys, those that name no setting among them. -/
structure Changes where
  theme : Option String := none
  width : Option Int := none
  height : Option Int := none
  fontSize : Option Int := none
  fontFamily : Option String := none
  keys : List String :=
    (settingNames.zip [theme.isSome, width.isSome, height.isSome, fontSize.isSome,
      fontFamily.isSome]).filterMap fun (name, given) => if given then some name else none
  deriving DecidableEq, Repr

/-- The keys that name no setting. -/
def Changes.unknownKeys (c : Changes) : List String :=
  c.keys.filter fun key => !settingNames.contains key

inductive SettingsFault
  | unknownKeys (keys : List String)
  | unsupportedTheme (name : String)
  | notPositive (setting : String) (value : Int)
  deriving DecidableEq, Repr

def SettingsFault.message : SettingsFault → String
  | .unknownKeys keys => "Unknown configuration key(s): " ++ ", ".intercalate keys
  | .unsupportedTheme name =>
    "Unsupported theme '" ++ name ++ "'. Use one of: " ++
      ", ".intercalate (Theme.all.map Theme.name) ++ "."
  | .notPositive setting value =>
    setting ++ " must be positive, got " ++ toString value ++ "."

/-- Values for all settings that have not been checked. -/
structure Draft where
  theme : String
  width : Int
  height : Int
  fontSize : Int
  fontFamily : String
  deriving DecidableEq, Repr

namespace Draft

/-- The values with the wanted ones in place of the present ones. -/
def change (d : Draft) (c : Changes) : Draft where
  theme := c.theme.getD d.theme
  width := c.width.getD d.width
  height := c.height.getD d.height
  fontSize := c.fontSize.getD d.fontSize
  fontFamily := c.fontFamily.getD d.fontFamily

/-- The sizes under the names that messages give them, in the order in which they are checked. -/
def sizes (d : Draft) : List (String × Int) :=
  [("width", d.width), ("height", d.height), ("font_size", d.fontSize)]

/-- The settings with these values. The theme is checked first, then one size after the other. -/
def check (d : Draft) : Except SettingsFault Settings :=
  match Theme.ofName? d.theme with
  | none => .error (.unsupportedTheme d.theme)
  | some theme =>
    match d.sizes.find? (·.2 ≤ 0) with
    | some (setting, value) => .error (.notPositive setting value)
    | none => .ok ⟨theme, d.width.toNat, d.height.toNat, d.fontSize.toNat, d.fontFamily⟩

end Draft

namespace Settings

/-- Every size is positive. -/
def Valid (s : Settings) : Prop := 0 < s.width ∧ 0 < s.height ∧ 0 < s.fontSize

def draft (s : Settings) : Draft := ⟨s.theme.name, s.width, s.height, s.fontSize, s.fontFamily⟩

/-- The settings after some changes. Unknown keys are reported first. The changes are put over the
present values, and what comes out is checked as a whole. -/
def update (s : Settings) (c : Changes) : Except SettingsFault Settings :=
  if c.unknownKeys.isEmpty then (s.draft.change c).check
  else .error (.unknownKeys (c.unknownKeys.mergeSort fun a b => decide (a ≤ b)))

def ofChanges (c : Changes) : Except SettingsFault Settings := update {} c

end Settings

inductive SettingsRequest
  | update (changes : Changes)
  | reset
  | get
  deriving DecidableEq, Repr

/-- The settings after a request, and why it was refused, if it was. -/
def Settings.handle (s : Settings) : SettingsRequest → Settings × Option SettingsFault
  | .update changes =>
    match s.update changes with
    | .ok updated => (updated, none)
    | .error fault => (s, some fault)
  | .reset => ({}, none)
  | .get => (s, none)

end ScoreText
