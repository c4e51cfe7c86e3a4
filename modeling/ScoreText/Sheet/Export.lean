import ScoreText.Fault
import ScoreText.Score.Parse
import ScoreText.Sheet.Engraving
import ScoreText.Sheet.Html
import ScoreText.Sheet.Markdown
import ScoreText.Sheet.Outline
import ScoreText.Text.Blank

/-!
Exporting: notation becomes an HTML page of engraved sheets, or a Markdown page that draws itself.
Any diagnostic stops the export. What writes MusicXML and what engraves it is handed in.
-/

namespace ScoreText

inductive SheetFormat
  | html
  | markdown
  deriving DecidableEq, Repr

namespace SheetFormat

def name : SheetFormat → String
  | .html => "html"
  | .markdown => "md-vexflow"

def extension : SheetFormat → String
  | .html => ".html"
  | .markdown => ".md"

def ofName? : String → Option SheetFormat
  | "html" => some .html
  | "md-vexflow" => some .markdown
  | _ => none

end SheetFormat

inductive ExportFault
  | unsupportedFormat (name : String)
  | unparsed (diagnostics : List Diagnostic)
  | token (fault : TokenFault)
  | musicXml (fault : LibraryFault)
  | engraving (fault : EngravingFault)
  | numeral (fault : Text.NumeralFault)
  | missingMusicXml
  | missingDocument
  deriving DecidableEq, Repr

def ExportFault.message : ExportFault → String
  | .unsupportedFormat name =>
    "Unsupported output format '" ++ name ++ "'. Use one of: html, md-vexflow."
  | .unparsed ds => (NotationFault.mk "Notation could not be parsed" ds).display
  | .token fault => fault.message
  | .musicXml fault => fault.message
  | .engraving fault => fault.message
  | .numeral fault => fault.message
  | .missingMusicXml => "musicxml_bytes is required for HTML rendering."
  | .missingDocument => "score_document is required for md-vexflow rendering."

/-- The fault of a library behind a failing export. -/
def ExportFault.library? : ExportFault → Option LibraryFault
  | .musicXml fault | .engraving (.brokenDown fault) => some fault
  | _ => none

/-- The format that a name asks for; case and blanks around it do not count. -/
def chooseFormat (name : String) : Except ExportFault SheetFormat :=
  match SheetFormat.ofName? (String.ofList (Text.lower (Text.trim name.toList))) with
  | some format => .ok format
  | none => .error (.unsupportedFormat name)

structure Exporter where
  title : String := ""
  format : SheetFormat := .html
  settings : Settings := {}
  options : ParserOptions := {}
  deriving DecidableEq, Repr

/-- What sheets are printed with. -/
structure Press where
  notator : Notator
  engraver : Engraver

/-- A press that prints nothing: its engraver takes no text. -/
def Press.absent : Press where
  notator := .constant ""
  engraver := { pages := fun _ => [], loads := fun _ => false }

/-- What a sheet is made from. Each format asks for one of the two. -/
structure SheetSource where
  musicXml : Option (List UInt8) := none
  document : Option Document := none

def renderSheet (engraver : Engraver) (settings : Settings) (title : String) :
    SheetFormat → SheetSource → Except ExportFault String
  | .html, ⟨none, _⟩ => .error .missingMusicXml
  | .html, ⟨some xml, _⟩ =>
    ((engraver.engrave settings xml).outcome.mapError ExportFault.engraving).bind fun svgs =>
      (renderHtml settings title svgs).mapError ExportFault.numeral
  | .markdown, ⟨_, none⟩ => .error .missingDocument
  | .markdown, ⟨_, some document⟩ =>
    (renderMarkdown settings title document).mapError ExportFault.numeral

namespace Exporter

/-- The score of a notation without any problem, under the title of the export. -/
def score (e : Exporter) (input : Input) : Except ExportFault Score :=
  match parse e.options input with
  | .error fault => .error (.token fault)
  | .ok result =>
    match result.success, result.score with
    | true, some score =>
      if e.title = "" then .ok score
      else .ok { score with metadata := { score.metadata with title := some e.title } }
    | _, _ => .error (.unparsed result.diagnostics)

/-- What the format of the export asks for. -/
def source (e : Exporter) (notator : Notator) (score : Score) : Except ExportFault SheetSource :=
  match e.format with
  | .html =>
    ((score.musicXml notator).mapError ExportFault.musicXml).map fun xml =>
      { musicXml := some xml }
  | .markdown =>
    ((score.document e.title).mapError ExportFault.numeral).map fun document =>
      { document := some document }

def page (e : Exporter) (press : Press) (score : Score) : Except ExportFault String :=
  (e.source press.notator score).bind
    (renderSheet press.engraver e.settings e.title e.format)

def render (e : Exporter) (press : Press) (input : Input) : Except ExportFault String :=
  (e.score input).bind (e.page press)

def pageTrace (e : Exporter) (press : Press) (score : Score) : List Trace :=
  let rendering := Trace.rendering score.measures.length e.format.name
  match e.format, score.musicXml press.notator with
  | .html, .ok xml =>
    rendering :: ((press.engraver.engrave e.settings xml).pageCount.map Trace.engraved).toList
  | _, _ => [rendering]

def trace (e : Exporter) (press : Press) (input : Input) : List Trace :=
  parseTrace e.options input ++
    match e.score input with
    | .ok score => e.pageTrace press score
    | .error _ => []

end Exporter

end ScoreText
