import ScoreText.Command.Reader

/-!
The command line of the program. The files that the arguments name are read first, and what the
command leaves behind is written at the end. No press is linked in, so only Markdown sheets can be
rendered.
-/

namespace ScoreText

def readBytes? (path : String) : IO (Option (List UInt8)) :=
  try
    return some (← IO.FS.readBinFile path).toList
  catch _ =>
    return none

/-- The paths that an argument may name: all of it, or the value attached to an option. -/
def pathsIn (argument : String) : List String :=
  let cs := argument.toList
  [argument, String.ofList (cs.drop 2), String.ofList ((cs.dropWhile (· ≠ '=')).drop 1)]

def readFolder (arguments : List String) : IO Folder := do
  let here ← IO.currentDir
  let mut files := []
  let mut directories := []
  for path in arguments.flatMap pathsIn do
    let parts := slashParts path
    for n in List.range (parts.length + 1) do
      let place := (parts.take n).foldl Place.follow (.startOf path)
      if ← (here / place.path).isDir then
        directories := directories ++ [place]
    if let some bytes ← readBytes? path then
      files := files ++ [(parts.foldl Place.follow (.startOf path), bytes)]
  return ⟨files, directories⟩

def writeChanges (before after : Folder) : IO Unit := do
  for (place, bytes) in after.changesSince before do
    IO.FS.writeBinFile place.path bytes.toByteArray

end ScoreText

open ScoreText in
/-- Runs the command line. -/
def main (arguments : List String) : IO UInt32 := do
  let folder ← readFolder arguments
  let outcome := runCommandLine .absent folder arguments
  writeChanges folder outcome.folder
  IO.print (printed outcome.stdout)
  IO.eprint (printed outcome.stderr)
  if let some fault := outcome.uncaught then IO.eprintln fault.display
  return outcome.exitCode.toUInt32
