import ScoreText.Command.Folder
import ScoreText.Score.Parse
import ScoreText.Sheet.Export
import ScoreText.Text.Quoted

/-!
Requests: what a command line asks for. A command line is taken apart by a reader, which also
checks the file that it names (`ArgumentReader`).
-/

namespace ScoreText

inductive Command
  | tokens
  | check
  | render
  deriving DecidableEq, Repr

namespace Command

def name : Command → String
  | .tokens => "tokens"
  | .check => "check"
  | .render => "render"

def all : List Command := [.check, .render, .tokens]

def ofName? : String → Option Command
  | "tokens" => some .tokens
  | "check" => some .check
  | "render" => some .render
  | _ => none

end Command

/-- What is wrong with the arguments of a command. An unknown name comes with the names it may be
meant for. -/
inductive UsageFault
  | noSuchOption (name : String) (similar : List String)
  | missingValue (name : String)
  | unwantedValue (name : String)
  | noArguments
  | missingCommand
  | noSuchCommand (name : String) (similar : List String)
  | missingFile
  | fileAbsent (path : String)
  | fileIsDirectory (path : String)
  | nullInPath
  | notInteger (name value : String)
  | tooSmall (name : String) (value least : Int)
  | notOneOf (name value : String) (choices : List String)
  | extraArguments (arguments : List String)
  deriving DecidableEq, Repr

namespace UsageFault

private def invalidValue (name text : String) : String :=
  "Invalid value for '" ++ name ++ "': " ++ text

/-- A question that names what may have been meant. -/
private def question : List String → String
  | [] => ""
  | [name] => " Did you mean " ++ Text.quoted name ++ "?"
  | names =>
    " (Did you mean one of: " ++ ", ".intercalate (names.map Text.quoted) ++ "?)"

def message : UsageFault → String
  | .noSuchOption name similar =>
    "No such option " ++ Text.quoted name ++ "." ++ question similar
  | .missingValue name => "Option " ++ Text.quoted name ++ " requires an argument."
  | .unwantedValue name => "Option " ++ Text.quoted name ++ " does not take a value."
  | .noArguments => ""
  | .missingCommand => "Missing command."
  | .noSuchCommand name similar =>
    "No such command " ++ Text.quoted name ++ "." ++ question similar
  | .missingFile => "Missing argument 'NOTATION_FILE'."
  | .fileAbsent path =>
    invalidValue "NOTATION_FILE" ("File " ++ Text.quoted path ++ " does not exist.")
  | .fileIsDirectory path =>
    invalidValue "NOTATION_FILE" ("File " ++ Text.quoted path ++ " is a directory.")
  | .nullInPath => "embedded null byte"
  | .notInteger name value =>
    invalidValue name (Text.quoted value ++ " is not a valid integer range.")
  | .tooSmall name value least =>
    invalidValue name
      (toString value ++ " is not in the range x>=" ++ toString least ++ ".")
  | .notOneOf name value choices =>
    invalidValue name (Text.quoted value ++ " is not one of " ++
      ", ".intercalate (choices.map Text.quoted) ++ ".")
  | .extraArguments [a] => "Got unexpected extra argument (" ++ a ++ ")"
  | .extraArguments as => "Got unexpected extra arguments (" ++ " ".intercalate as ++ ")"

def showsUsage : UsageFault → Bool
  | .missingValue _ | .unwantedValue _ => false
  | _ => true

end UsageFault

/-- A wrong command line, with the command whose usage it breaks. -/
structure WrongUsage where
  command : Option Command
  fault : UsageFault
  deriving DecidableEq, Repr

inductive Request
  | help (command : Option Command)
  | version
  | tokens (path : String) (keepWhitespace : Bool)
  | check (path : String) (options : ParserOptions)
  | render (path : String) (output title : Option String) (format : SheetFormat)
      (theme : Theme) (width : Int)
  deriving DecidableEq, Repr

/-- What a whole command line asks for, and whether a log is wanted. -/
structure Session where
  verbose : Bool
  request : Request
  deriving DecidableEq, Repr

/-- A reader of command lines: what the arguments ask for in a folder, or what is wrong with
them. -/
abbrev ArgumentReader := Folder → List String → Except WrongUsage Session

def Request.file? : Request → Option String
  | .help _ | .version => none
  | .tokens path _ | .check path _ | .render path _ _ _ _ _ => some path

/-- `read.ChecksFile`: the file that a request is about is there when the request has been read. -/
def ArgumentReader.ChecksFile (read : ArgumentReader) : Prop :=
  ∀ ⦃folder : Folder⦄ ⦃arguments : List String⦄ ⦃session : Session⦄ ⦃path : String⦄,
    read folder arguments = .ok session → session.request.file? = some path →
      ∃ bytes, folder.read path = .ok bytes

end ScoreText
