import ScoreText.Command.Path

/-!
Places in a file system, seen from the folder that a command works in. A place is counted from the
root of the file system or from some level above the folder; level zero is the folder itself.
-/

namespace ScoreText

inductive Origin
  | root
  | above (levels : Nat)
  deriving DecidableEq, Repr

/-- A place: the names that lead to it from its origin. -/
structure Place where
  origin : Origin
  parts : List String
  deriving DecidableEq, Repr

namespace Place

def inFolder (parts : List String) : Place := ⟨.above 0, parts⟩

/-- The place from which a path is followed. -/
def startOf (path : String) : Place := if path.startsWith "/" then ⟨.root, []⟩ else inFolder []

/-- The place one level higher. Above the root there is only the root. -/
def parent (p : Place) : Place :=
  match p.origin, p.parts with
  | .root, [] => p
  | .above levels, [] => ⟨.above (levels + 1), []⟩
  | _, _ => { p with parts := p.parts.dropLast }

def follow (p : Place) (part : String) : Place :=
  if part = "" ∨ part = "." then p
  else if part = ".." then p.parent
  else { p with parts := p.parts ++ [part] }

def isBelow (p q : Place) : Bool :=
  p.origin = q.origin && q.parts.isPrefixOf p.parts && q.parts.length < p.parts.length

/-- Whether a place is where the counting starts: the root, the folder, or a level above it. -/
def isOrigin (p : Place) : Bool := p.parts.isEmpty

def path (p : Place) : String :=
  match p.origin with
  | .root => "/" ++ "/".intercalate p.parts
  | .above levels => "/".intercalate (List.replicate levels ".." ++ p.parts)

/-- The device that is always empty and keeps nothing. -/
def nullDevice : Place := ⟨.root, ["dev", "null"]⟩

end Place

end ScoreText
