import ScoreText.Text.Lines

/-!
File paths: their parts, and the name, stem and extension of the file they lead to.
-/

namespace ScoreText

/-- A path: the slashes that make it absolute, and its parts without empty ones and dots. -/
structure Path where
  root : String
  parts : List String
  deriving DecidableEq, Repr

def slashParts (s : String) : List String :=
  (Text.splitAtEach '/' s.toList).map String.ofList

namespace Path

/-- The slashes that make a path absolute: one, or exactly two. -/
def rootOf : List Char → String
  | '/' :: '/' :: '/' :: _ => "/"
  | '/' :: '/' :: _ => "//"
  | '/' :: _ => "/"
  | _ => ""

def ofString (s : String) : Path :=
  ⟨rootOf s.toList, (slashParts s).filter fun p => p ≠ "" ∧ p ≠ "."⟩

def display (p : Path) : String :=
  let s := p.root ++ "/".intercalate p.parts
  if s = "" then "." else s

def name (p : Path) : String := p.parts.getLastD ""

/-- A file name cut before its last dot, if that dot stands neither first nor last. -/
def splitName (name : String) : String × String :=
  let cs := name.toList
  let tail := (cs.reverse.takeWhile (· ≠ '.')).reverse
  let head := (cs.reverse.dropWhile (· ≠ '.')).reverse
  match head.dropLast, tail with
  | [], _ => (name, "")
  | _, [] => (name, "")
  | stem, extension => (String.ofList stem, String.ofList ('.' :: extension))

def stem (p : Path) : String := (splitName p.name).1

/-- The path with another extension, or with one added where there was none. -/
def withExtension (p : Path) (extension : String) : Path :=
  { p with parts := p.parts.dropLast ++ [p.stem ++ extension] }

end Path

end ScoreText
