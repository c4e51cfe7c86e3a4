import ScoreText.Detection
import ScoreText.Grammar
import ScoreText.Main
import ScoreText.Proofs.BarLines
import ScoreText.Proofs.RoundTrip
import ScoreText.Proofs.Limits
import ScoreText.Proofs.Tiling
import ScoreText.Proofs.Problems
import ScoreText.Proofs.Coherence
import ScoreText.Proofs.KeepGoing
import ScoreText.Proofs.Blanking
import ScoreText.Proofs.Relocation
import ScoreText.Proofs.Spacing
import ScoreText.Score.Parser
import ScoreText.Proofs.Scanner
import ScoreText.Proofs.Lines
import ScoreText.Proofs.Places
import ScoreText.Proofs.LexerOptions
import ScoreText.Proofs.Anchors
import ScoreText.Proofs.Cursor
import ScoreText.Proofs.Parser
import ScoreText.Proofs.Progress
import ScoreText.Proofs.WellFormed
import ScoreText.Proofs.Json
import ScoreText.Proofs.JsonUnique
import ScoreText.Proofs.Escape
import ScoreText.Proofs.Markdown
import ScoreText.Proofs.ScriptElement
import ScoreText.Proofs.Files
import ScoreText.Proofs.Writable
import ScoreText.Proofs.CheckRender
import ScoreText.Proofs.Paths
import ScoreText.Proofs.Overwriting
import ScoreText.Proofs.SameMusic
import ScoreText.Proofs.Composition
import ScoreText.Proofs.Fragments
import ScoreText.Proofs.Rows
import ScoreText.Proofs.Validators
import ScoreText.Proofs.Settings
import ScoreText.Proofs.MeasureLanguage
import ScoreText.Proofs.TokenTexts
import ScoreText.Proofs.Hints
import ScoreText.Proofs.Documents
import ScoreText.Proofs.Titles
import ScoreText.Proofs.Normalization
import ScoreText.Proofs.Detection
import ScoreText.Proofs.DiagramContent
