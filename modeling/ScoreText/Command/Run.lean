import ScoreText.Command.Request
import ScoreText.Text.Lines
import ScoreText.Text.Plain
import ScoreText.Token.Scanner

/-!
Running a command line on a folder. Nothing is written unless everything before has succeeded,
so a command that fails leaves the folder as it was.
-/

namespace ScoreText

/-- What ends a command without a message of its own. -/
inductive Uncaught
  | undecodable (fault : Text.Utf8.Fault)
  | nullInPath
  | unexportable (fault : ExportFault)
  deriving DecidableEq, Repr

def Uncaught.message : Uncaught → String
  | .undecodable fault => fault.message
  | .nullInPath => UsageFault.nullInPath.message
  | .unexportable fault => fault.message

/-- What is shown in the end. -/
def Uncaught.display : Uncaught → String
  | .unexportable fault => (fault.library?.map LibraryFault.display).getD fault.message
  | fault => fault.message

structure Outcome where
  exitCode : Nat
  stdout : List String
  stderr : List String
  folder : Folder
  uncaught : Option Uncaught := none

def printed (ls : List String) : String := String.join (ls.map (· ++ "\n"))

/-- A line without terminal control sequences. -/
def plainLine (s : String) : String := String.ofList (Text.plain s.toList)

def versionLine : String := "scoreline, version 0.1.0"

def usage : Option Command → String
  | none => "scoreline [OPTIONS] COMMAND [ARGS]..."
  | some command => "scoreline " ++ command.name ++ " [OPTIONS] NOTATION_FILE"

/-- The first line of the page about a command. The list of options below it is left out. -/
def helpLines (command : Option Command) : List String := ["Usage: " ++ usage command]

def helpHint : Option Command → String
  | none => "scoreline --help"
  | some command => "scoreline " ++ command.name ++ " --help"

namespace WrongUsage

/-- The lines shown for a wrong command line. Without any argument they are those that are shown
for help. -/
def lines (w : WrongUsage) : List String :=
  let error := "Error: " ++ w.fault.message
  if w.fault = .noArguments then helpLines none
  else if w.fault.showsUsage then
    ["Usage: " ++ usage w.command, "Try '" ++ helpHint w.command ++ "' for help.", "", error]
  else [error]

end WrongUsage

def diagnosticLine (d : Diagnostic) : String := "  " ++ d.display

def padded (width : Nat) (s : String) : String :=
  s ++ String.ofList (List.replicate (width - s.length) ' ')

def tokenLine (t : Token) : String :=
  t.position.display ++ "\t" ++ padded 10 t.kind.name ++ " " ++ Text.quoted t.text

def summaryLines (s : Score) : List String := [
  "  Clef     : " ++ (s.clef.map fun c => c.type.name).getD "-",
  "  Time     : " ++ (s.time.map TimeSignature.display).getD "-",
  "  Measures : " ++ toString s.measures.length ++ "  (" ++ toString s.elements.length ++
    " notes/rests)"]

/-- The text of a file, with its line ends unified. -/
def decodeText (bytes : List UInt8) : Except Text.Utf8.Fault String :=
  (Text.Utf8.decode bytes).map fun cs => String.ofList (Text.unifyNewlines cs)

namespace Session

/-- Log entries as lines, if a log is wanted. -/
def log (s : Session) (entries : List Trace) : List String :=
  if s.verbose then entries.map Trace.line else []

def runTokens (s : Session) (folder : Folder) (keepWhitespace : Bool) (text : String) : Outcome :=
  let lexed := tokenize text { ignoreWhitespace := !keepWhitespace }
  let log := s.log [lexed.trace]
  let out := lexed.tokens.map fun t => plainLine (tokenLine t)
  if lexed.diagnostics.isEmpty then ⟨0, out, log, folder, none⟩
  else
    let errors := (toString lexed.diagnostics.length ++ " lexical error(s):") ::
      lexed.diagnostics.map diagnosticLine
    ⟨1, out, log ++ errors.map plainLine, folder, none⟩

def runCheck (s : Session) (folder : Folder) (options : ParserOptions) (text : String) :
    Outcome :=
  let log := s.log (parseTextTrace options text)
  match parseText options text with
  | .error fault => ⟨1, [], log ++ [fault.message], folder, none⟩
  | .ok result =>
    let out := (result.score.map summaryLines).getD []
    if result.success then ⟨0, (out ++ ["OK"]).map plainLine, log, folder, none⟩
    else
      let errors := (toString result.diagnostics.length ++ " error(s):") ::
        result.diagnostics.map diagnosticLine
      ⟨1, out.map plainLine, log ++ errors.map plainLine, folder, none⟩

def exportErrorLines : ExportFault → List String
  | .unparsed ds => "  ERROR: Could not parse notation:" :: ds.map diagnosticLine
  | fault =>
    if fault.library?.any (·.kind = .system) then
      ["  ERROR: Could not write output file: " ++ fault.message]
    else ["  ERROR: Could not render score: " ++ fault.message]

def writeErrorLine (path : String) : FileFault → String
  | .nullCharacter => "  ERROR: Could not render score: " ++ FileFault.nullCharacter.message path
  | fault => "  ERROR: Could not write output file: " ++ fault.message path

/-- Whether a failing export ends the command without a message. -/
def isUncaught : ExportFault → Bool
  | .engraving .scaleTooLarge => true
  | fault => fault.library?.any (·.kind = .other)

def runExport (s : Session) (press : Press) (folder : Folder) (exporter : Exporter)
    (output text : String) : Outcome :=
  let log := s.log (exporter.trace press (.text text))
  match exporter.render press (.text text) with
  | .error fault =>
    if isUncaught fault then ⟨1, [], log, folder, some (.unexportable fault)⟩
    else ⟨1, [], log ++ (exportErrorLines fault).map plainLine, folder, none⟩
  | .ok content =>
    match folder.write output content.toUTF8.toList with
    | .error fault => ⟨1, [], log ++ [plainLine (writeErrorLine output fault)], folder, none⟩
    | .ok written => ⟨0, [plainLine ("Wrote '" ++ output ++ "'.")], log, written, none⟩

/-- The title of a sheet that is given none: the name of its file, with blanks for
underscores. -/
def defaultTitle (path : String) : String :=
  String.ofList ((Path.ofString path).stem.toList.map fun c => if c = '_' then ' ' else c)

def defaultOutput (path : String) (format : SheetFormat) : String :=
  ((Path.ofString path).withExtension format.extension).display

/-- The bytes of a file that has been found before. -/
def bytesOf (folder : Folder) (path : String) : List UInt8 :=
  match folder.read path with
  | .ok bytes => bytes
  | .error _ => []

def run (s : Session) (press : Press) (folder : Folder) : Outcome :=
  match s.request with
  | .help command => ⟨0, helpLines command, [], folder, none⟩
  | .version => ⟨0, [versionLine], [], folder, none⟩
  | .tokens path keepWhitespace =>
    match decodeText (bytesOf folder path) with
    | .ok text => s.runTokens folder keepWhitespace text
    | .error fault => ⟨1, [], [], folder, some (.undecodable fault)⟩
  | .check path options =>
    match decodeText (bytesOf folder path) with
    | .ok text => s.runCheck folder options text
    | .error fault => ⟨1, [], [], folder, some (.undecodable fault)⟩
  | .render path output title format theme width =>
    match decodeText (bytesOf folder path) with
    | .ok text =>
      let settings : Settings := { theme := theme, width := width.toNat }
      let exporter : Exporter :=
        { title := title.getD (defaultTitle path), format := format, settings := settings }
      s.runExport press folder exporter (output.getD (defaultOutput path format)) text
    | .error fault =>
      ⟨1, [], ["  ERROR: Could not render score: " ++ fault.message], folder, none⟩

end Session

/-- Runs a command line as a reader takes it. -/
def runWith (read : ArgumentReader) (press : Press) (folder : Folder) (arguments : List String) :
    Outcome :=
  match read folder arguments with
  | .ok session => session.run press folder
  | .error ⟨_, .nullInPath⟩ => ⟨1, [], [], folder, some .nullInPath⟩
  | .error wrong => ⟨2, [], wrong.lines.map plainLine, folder, none⟩

end ScoreText
