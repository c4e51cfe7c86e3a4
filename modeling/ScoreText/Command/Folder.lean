import ScoreText.Command.Place
import ScoreText.Text.Quoted

/-!
The folder that a command works in, and what is known of its surroundings: files, and directories,
those that hold a file and those named besides.
-/

namespace ScoreText

/-- The known files and directories. -/
structure Folder where
  files : List (Place × List UInt8)
  directories : List Place := []
  deriving DecidableEq, Repr

inductive FileFault
  | absent
  | notDirectory
  | isDirectory
  | nameTooLong
  | nullCharacter
  deriving DecidableEq, Repr

/-- The number and text of a fault, with the path that was asked for. A path with a null character
is not even asked for. -/
def FileFault.message (path : String) : FileFault → String
  | .absent => "[Errno 2] No such file or directory: " ++ Text.quoted path
  | .notDirectory => "[Errno 20] Not a directory: " ++ Text.quoted path
  | .isDirectory => "[Errno 21] Is a directory: " ++ Text.quoted path
  | .nameTooLong => "[Errno 36] File name too long: " ++ Text.quoted path
  | .nullCharacter => "embedded null byte"

def maxNameBytes : Nat := 255

def maxPathBytes : Nat := 4095

def checkPath (path : String) : Except FileFault Unit :=
  if path.toList.any (·.toNat = 0) then .error .nullCharacter
  else if path = "" then .error .absent
  else if maxPathBytes < path.utf8ByteSize then .error .nameTooLong
  else .ok ()

namespace Folder

def file? (f : Folder) (place : Place) : Option (List UInt8) :=
  if place = .nullDevice then some [] else f.files.lookup place

/-- Whether a place is a directory: the folder and what is above it, a place that is known to be
one, or one that holds a file. -/
def isDirectory (f : Folder) (place : Place) : Bool :=
  place.isOrigin || f.directories.contains place || f.files.any fun (p, _) => p.isBelow place

/-- Goes on from a place, which must be a directory. -/
def enter (f : Folder) (place : Place) (part : String) : Except FileFault Place :=
  if f.isDirectory place then
    if maxNameBytes < part.utf8ByteSize then .error .nameTooLong else .ok (place.follow part)
  else if (f.file? place).isSome then .error .notDirectory
  else .error .absent

def locate (f : Folder) (path : String) : Except FileFault Place := do
  checkPath path
  (slashParts path).foldlM f.enter (.startOf path)

def read (f : Folder) (path : String) : Except FileFault (List UInt8) := do
  let place ← f.locate path
  if f.isDirectory place then .error .isDirectory
  else
    match f.file? place with
    | some bytes => .ok bytes
    | none => .error .absent

/-- The directories on the way to the last name of a path that ends with a slash. -/
def partsBeforeLast (path : String) : List String :=
  (((slashParts path).reverse.dropWhile (· = "")).drop 1).reverse

/-- The place at which a path can be written. A slash at its end asks for a directory, whatever
its last name is. -/
def writePlace (f : Folder) (path : String) : Except FileFault Place := do
  checkPath path
  if path.endsWith "/" then
    let place ← (partsBeforeLast path).foldlM f.enter (.startOf path)
    let _ ← f.enter place "."
    .error .isDirectory
  else
    let place ← f.locate path
    if f.isDirectory place then .error .isDirectory else .ok place

def put (f : Folder) (place : Place) (bytes : List UInt8) : Folder :=
  if place = .nullDevice then f
  else if (f.file? place).isSome then
    { f with files := f.files.map fun (p, old) => (p, if p = place then bytes else old) }
  else { f with files := f.files ++ [(place, bytes)] }

def write (f : Folder) (path : String) (bytes : List UInt8) : Except FileFault Folder := do
  let place ← f.writePlace path
  return f.put place bytes

/-- The files that are new or changed since an earlier state. -/
def changesSince (f earlier : Folder) : List (Place × List UInt8) :=
  f.files.filter fun (p, bytes) => earlier.file? p != some bytes

end Folder

end ScoreText
