import ScoreText.Settings
import ScoreText.Sheet.Document
import ScoreText.Sheet.Escape

/-!
Markdown pages that draw a score by an embedded script. The score is handed to the script as JSON
inside a script element of its own.
-/

namespace ScoreText

/-- The statement of the script that draws measure after measure. -/
def drawMeasures : String := r#"  score.measures.forEach((measure) => {
    const box = document.createElement("div");
    box.className = "scoreline-measure";
    host.appendChild(box);

    const renderer = new Renderer(box, Renderer.Backends.SVG);
    renderer.resize(width, 140);
    const context = renderer.getContext();

    const stave = new Stave(10, 20, width - 20);
    stave.addClef(score.clef);
    if (measure.number === 1) {
      stave.addTimeSignature(score.time_signature);
    }
    stave.setContext(context).draw();

    const notes = measure.notes.map((entry) => {
      const note = new StaveNote({ clef: score.clef, keys: entry.keys, duration: entry.duration });
      entry.accidentals.forEach((symbol, index) => {
        if (symbol) {
          note.addModifier(new Accidental(symbol), index);
        }
      });
      return note;
    });

    const voice = new Voice({ num_beats: score.beats, beat_value: score.beat_value });
    voice.setMode(Voice.Mode.SOFT);
    voice.addTickables(notes);
    new Formatter().joinVoices([voice]).format([voice], width - 100);
    voice.draw(context, stave);
  });"#

def drawingScript : List String := [
  "<script type=\"module\">",
  "  import { Accidental, Formatter, Renderer, Stave, StaveNote, Voice }",
  "    from \"https://cdn.jsdelivr.net/npm/vexflow@4.2.3/build/esm/entry/vexflow.js\";",
  "",
  "  const host = document.getElementById(\"scoreline-score\");",
  "  const score = JSON.parse(document.getElementById(\"scoreline-score-data\").textContent);",
  "  const width = score.width || 800;",
  "",
  drawMeasures,
  "</script>",
  ""]

/-- The JSON text that a page holds for its script. -/
def Document.scriptData (d : Document) (width : Nat) : String :=
  String.ofList (guardTags (d.toPayload width).json.toList)

def measureRule (theme : Theme) : String :=
  styleRule "  .scoreline-measure" ("background: " ++ theme.card ++ "; color: " ++ theme.ink ++
    "; margin-bottom: 1rem; overflow-x: auto;")

/-- The lines of a page up to the data of its script. -/
def markdownHead (settings : Settings) (title : String) : List String := [
  "# " ++ escapeHtml title,
  "",
  "Rendered with VexFlow. Open this file in a Markdown viewer that runs embedded scripts.",
  "",
  "<style>",
  measureRule settings.theme,
  "</style>",
  "",
  "<div id=\"scoreline-score\"></div>"]

def dataElement (content : String) : String :=
  "<script id=\"scoreline-score-data\" type=\"application/json\">" ++ content ++ "</script>"

def markdownPage (settings : Settings) (title : String) (document : Document) : String :=
  "\n".intercalate (markdownHead settings title ++
    [dataElement (document.scriptData settings.width)] ++ drawingScript)

/-- The numbers that stand in the data of the script. -/
def Document.numerals (d : Document) (width : Nat) : List Int :=
  d.beats :: d.beatValue :: (width : Int) :: d.measures.map StaveMeasure.number

/-- A Markdown page that draws a document whose numbers can be written. -/
def renderMarkdown (settings : Settings) (title : String) (document : Document) :
    Except Text.NumeralFault String :=
  (Text.checkNumerals (document.numerals settings.width)).map fun _ =>
    markdownPage settings title document

end ScoreText
