import ScoreText.Command.Request
import ScoreText.Text.Case
import ScoreText.Text.Integer
import ScoreText.Text.Similarity

/-!
Command-line arguments: options are told from operands by their dashes. A long option takes its
value after an equals sign or from the next argument; short options may be run together, and the
rest of such a run is the value of an option that wants one. After `--` everything is an operand.
-/

namespace ScoreText

inductive Opt
  | help
  | version
  | verbose
  | keepWhitespace
  | lenient
  | keepGoing
  | maxErrors
  | output
  | title
  | format
  | theme
  | width
  deriving DecidableEq, Repr

def Opt.takesValue : Opt → Bool
  | .maxErrors | .output | .title | .format | .theme | .width => true
  | _ => false

/-- The ways to write options, with what they mean. -/
abbrev Spellings := List (String × Opt)

def helpSpellings : Spellings := [("-h", .help), ("--help", .help)]

def programSpellings : Spellings :=
  [("--version", .version), ("--verbose", .verbose), ("-v", .verbose)] ++ helpSpellings

def Command.spellings : Command → Spellings
  | .tokens => ("--keep-whitespace", .keepWhitespace) :: helpSpellings
  | .check =>
    [("--lenient", .lenient), ("--partial", .keepGoing), ("--max-errors", .maxErrors)] ++
      helpSpellings
  | .render =>
    [("--output", .output), ("-o", .output), ("--title", .title), ("--format", .format),
      ("--theme", .theme), ("--width", .width)] ++ helpSpellings

def Spellings.longNames (spellings : Spellings) : List String :=
  (spellings.map Prod.fst).filter (·.startsWith "--")

structure Arguments where
  options : List (Opt × String)
  operands : List String
  deriving DecidableEq, Repr

namespace Arguments

/-- An option in front of the others. -/
def addOption (opt : Opt) (value : String) (a : Arguments) : Arguments :=
  { a with options := (opt, value) :: a.options }

def addFlags (flags : List Opt) (a : Arguments) : Arguments :=
  { a with options := flags.map (·, "") ++ a.options }

def addOperand (operand : String) (a : Arguments) : Arguments :=
  { a with operands := operand :: a.operands }

def has (a : Arguments) (opt : Opt) : Bool := a.options.any (·.1 = opt)

/-- The last value given for an option. -/
def value? (a : Arguments) (opt : Opt) : Option String :=
  ((a.options.filter (·.1 = opt)).getLast?).map Prod.snd

/-- The given options, each at the place where it comes first. -/
def distinct (a : Arguments) : List Opt := (a.options.map Prod.fst).eraseDups

end Arguments

/-- What one argument says: options without values, and at most one option with a value, which
may still have to come. -/
structure OptionGroup where
  flags : List Opt
  valued : Option (Opt × String × Option String) := none
  deriving DecidableEq, Repr

/-- Reads the letters of a run of short options. -/
def shortOptions (spellings : Spellings) : List Char → Except UsageFault OptionGroup
  | [] => .ok ⟨[], none⟩
  | c :: rest =>
    let name := String.ofList ['-', c]
    match spellings.lookup name with
    | none => .error (.noSuchOption name [])
    | some opt =>
      if opt.takesValue then
        .ok ⟨[], some (opt, name, if rest.isEmpty then none else some (String.ofList rest))⟩
      else
        match shortOptions spellings rest with
        | .error fault => .error fault
        | .ok group => .ok { group with flags := opt :: group.flags }

def longOption (spellings : Spellings) (argument : List Char) : Except UsageFault OptionGroup :=
  let name := String.ofList (argument.takeWhile (· ≠ '='))
  let attached := match argument.dropWhile (· ≠ '=') with
    | [] => none
    | _ :: value => some (String.ofList value)
  match spellings.lookup name with
  | none => .error (.noSuchOption name (Text.closeNames name spellings.longNames))
  | some opt =>
    if opt.takesValue then .ok ⟨[], some (opt, name, attached)⟩
    else if attached.isSome then .error (.unwantedValue name)
    else .ok ⟨[opt], none⟩

/-- Reads the options that an argument holds; none when it is an operand. -/
def optionGroup? (spellings : Spellings) (argument : String) :
    Option (Except UsageFault OptionGroup) :=
  match argument.toList with
  | '-' :: '-' :: rest => some (longOption spellings ('-' :: '-' :: rest))
  | '-' :: c :: rest => some (shortOptions spellings (c :: rest))
  | _ => none

/-- Sorts arguments into options and operands. Where operands end the options, all that follows
the first one is an operand. -/
def sortArguments (spellings : Spellings) (operandsEnd : Bool) :
    List String → Except UsageFault Arguments
  | [] => .ok ⟨[], []⟩
  | argument :: rest =>
    if argument = "--" then .ok ⟨[], rest⟩
    else
      match optionGroup? spellings argument with
      | none =>
        if operandsEnd then .ok ⟨[], argument :: rest⟩
        else (sortArguments spellings operandsEnd rest).map (Arguments.addOperand argument)
      | some (.error fault) => .error fault
      | some (.ok ⟨flags, none⟩) =>
        (sortArguments spellings operandsEnd rest).map (Arguments.addFlags flags)
      | some (.ok ⟨flags, some (opt, _, some value)⟩) =>
        (sortArguments spellings operandsEnd rest).map
          fun a => (a.addOption opt value).addFlags flags
      | some (.ok ⟨flags, some (opt, name, none)⟩) =>
        match rest with
        | [] => .error (.missingValue name)
        | value :: rest =>
          (sortArguments spellings operandsEnd rest).map
            fun a => (a.addOption opt value).addFlags flags

def integerAtLeast (name : String) (least : Int) (value : String) : Except UsageFault Int :=
  match Text.integer? value with
  | none => .error (.notInteger name value)
  | some n => if n < least then .error (.tooSmall name n least) else .ok n

/-- Reads one of several words, compared by a key. -/
def choice (name : String) (choices : List String) (key : String → String) (value : String) :
    Except UsageFault String :=
  match choices.find? fun c => key c == key value with
  | some c => .ok c
  | none => .error (.notOneOf name value choices)

/-- The upper case of a text, by which words are compared where case does not count. -/
def upperKey (s : String) : String := String.ofList (Text.upper s.toList)

end ScoreText
