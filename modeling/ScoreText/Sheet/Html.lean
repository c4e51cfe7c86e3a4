import ScoreText.Settings
import ScoreText.Sheet.Escape
import ScoreText.Text.Integer

/-!
HTML pages that show engraved sheets, one card for each sheet.
-/

namespace ScoreText

def htmlHead (title : String) : List String := [
  "<!DOCTYPE html>",
  "<html lang=\"en\">",
  "<head>",
  "<meta charset=\"UTF-8\" />",
  "<title>" ++ escapeHtml title ++ "</title>"]

def printRules : List String := [
  styleRule "    body" "background: #fff; padding: 0;",
  styleRule "    .page" "max-width: 100%; margin: 0; page-break-after: always;",
  styleRule "    .page:last-child" "page-break-after: avoid;"]

def htmlStyle (settings : Settings) : List String := [
  "<style>",
  styleRule "  body" ("margin: 0; padding: 1.5rem; background: " ++ settings.theme.backdrop ++
    "; color: " ++ settings.theme.ink ++ ";\n          font-family: " ++ settings.fontFamily ++
    "; font-size: " ++ toString settings.fontSize ++ "pt;"),
  styleRule "  h1" "text-align: center;",
  styleRule "  .page" ("background: " ++ settings.theme.card ++ "; max-width: " ++
    toString settings.width ++ "px; margin: 0 auto 2rem; padding: 1rem;"),
  styleRule "  .page svg" "display: block; width: 100%; height: auto;",
  "  @media print " ++ Text.braced ("\n" ++ String.join (printRules.map (· ++ "\n")) ++ "  "),
  "</style>",
  "</head>"]

/-- The heading of a page; a page without a title has none. -/
def htmlHeading (title : String) : String :=
  if title = "" then "" else "<h1>" ++ escapeHtml title ++ "</h1>\n"

def htmlCard (svg : String) : String := "<div class=\"page\">" ++ svg ++ "</div>"

def htmlBody (title : String) (svgs : List String) : List String := [
  "<body>",
  htmlHeading title ++ "\n".intercalate (svgs.map htmlCard),
  "</body>",
  "</html>"]

def htmlPage (settings : Settings) (title : String) (svgs : List String) : String :=
  "\n".intercalate (htmlHead title ++ htmlStyle settings ++ htmlBody title svgs)

/-- A page that shows engraved sheets, if the numbers of its style can be written. -/
def renderHtml (settings : Settings) (title : String) (svgs : List String) :
    Except Text.NumeralFault String :=
  (Text.checkNumerals [settings.fontSize, settings.width]).map fun _ =>
    htmlPage settings title svgs

end ScoreText
