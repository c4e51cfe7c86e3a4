import ScoreText.Command.Arguments
import ScoreText.Command.Run

/-!
The reader of the program's command lines. Options are checked in the order in which they are
given, then the file, then that nothing is left over.
-/

namespace ScoreText

def readMaxErrors (value : String) : Except UsageFault Int := integerAtLeast "--max-errors" 1 value

def readWidth (value : String) : Except UsageFault Int := integerAtLeast "--width" 100 value

/-- The name of a theme, in its own case. -/
def readTheme (value : String) : Except UsageFault String :=
  choice "--theme" ["default", "dark", "forest", "neutral"] id value

/-- The name of a format, in any case. -/
def readFormat (value : String) : Except UsageFault String :=
  choice "--format" ["html", "md-vexflow"] upperKey value

def checkValue (opt : Opt) (value : String) : Except UsageFault Unit :=
  match opt with
  | .maxErrors => (readMaxErrors value).map fun _ => ()
  | .width => (readWidth value).map fun _ => ()
  | .theme => (readTheme value).map fun _ => ()
  | .format => (readFormat value).map fun _ => ()
  | _ => .ok ()

def checkFile (folder : Folder) (path : String) : Except UsageFault Unit :=
  match folder.read path with
  | .ok _ => .ok ()
  | .error .isDirectory => .error (.fileIsDirectory path)
  | .error .nullCharacter => .error .nullInPath
  | .error _ => .error (.fileAbsent path)

namespace Arguments

/-- The value of an option under a reader, or a value that stands for its absence. -/
def valueOr {α : Type} (a : Arguments) (opt : Opt) (fallback : α)
    (reader : String → Except UsageFault α) : Except UsageFault α :=
  match a.value? opt with
  | some value => reader value
  | none => .ok fallback

/-- Checks the values of all options, in the order in which they are given. -/
def checkValues (a : Arguments) : Except UsageFault Unit :=
  a.distinct.forM fun opt => checkValue opt ((a.value? opt).getD "")

/-- The file among the operands: the only one, and there. -/
def file (a : Arguments) (folder : Folder) : Except UsageFault String := do
  match a.operands with
  | [] => .error .missingFile
  | path :: extra =>
    checkFile folder path
    if extra.isEmpty then return path else .error (.extraArguments extra)

def request (a : Arguments) (folder : Folder) (command : Command) : Except UsageFault Request := do
  if a.has .help then return .help (some command)
  a.checkValues
  let path ← a.file folder
  match command with
  | .tokens => return .tokens path (a.has .keepWhitespace)
  | .check =>
    let maxErrors ← a.valueOr .maxErrors 10 readMaxErrors
    return .check path ⟨!a.has .lenient, a.has .keepGoing, maxErrors⟩
  | .render =>
    let format ← a.valueOr .format "html" readFormat
    let theme ← a.valueOr .theme "default" readTheme
    let width ← a.valueOr .width 800 readWidth
    return .render path (a.value? .output) (a.value? .title)
      ((SheetFormat.ofName? format).getD .html) ((Theme.ofName? theme).getD .standard) width

/-- A request that comes before any command. -/
def early? (a : Arguments) : Option Request :=
  a.distinct.findSome? fun
    | .help => some (.help none)
    | .version => some .version
    | _ => none

end Arguments

def programFault (fault : UsageFault) : WrongUsage := ⟨none, fault⟩

def readCommand (folder : Folder) (command : Command) (arguments : List String) :
    Except WrongUsage Request :=
  ((sortArguments command.spellings false arguments).bind (·.request folder command)).mapError
    fun fault => ⟨some command, fault⟩

/-- Reads a word that is no command. It may be an option that `--` has hidden. -/
def readUnknown (name : String) (rest : List String) : Except WrongUsage Request := do
  let a ← (sortArguments programSpellings true (name :: rest)).mapError programFault
  match a.early? with
  | some request => return request
  | none =>
    .error (programFault (.noSuchCommand name
      (Text.closeNames name (Command.all.map Command.name))))

/-- The reader of the program. -/
def readSession (folder : Folder) (arguments : List String) : Except WrongUsage Session := do
  let a ← (sortArguments programSpellings true arguments).mapError programFault
  let verbose := a.has .verbose
  match a.early?, a.operands with
  | some request, _ => return ⟨verbose, request⟩
  | none, [] => .error (programFault (if arguments.isEmpty then .noArguments else .missingCommand))
  | none, name :: rest =>
    match Command.ofName? name with
    | some command => return ⟨verbose, ← readCommand folder command rest⟩
    | none => return ⟨verbose, ← readUnknown name rest⟩

def runCommandLine (press : Press) (folder : Folder) (arguments : List String) : Outcome :=
  runWith readSession press folder arguments

end ScoreText
