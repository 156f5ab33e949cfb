import ContentModels.Command.Run

/-!
# The command line

Runs a command on the files of the system, prints its answer to standard output and its
failure to standard error.
-/

namespace ContentModels
namespace Main

/-- Whether an action succeeds. -/
def succeeds (action : IO Unit) : IO Bool := do
  try
    action
    return true
  catch _ => return false

/-- A path from the working directory. -/
def below (path : String) := do
  return (← IO.currentDir) / path

/-- The paths of the files below a directory, relative to the outermost one. -/
partial def filesFrom (directory start : String) : IO (List String) := do
  let entries ← (← below directory).readDir
  let names := (entries.map (·.fileName)).qsort (· < ·)
  let mut found := []
  for name in names do
    let path := Command.inDirectory directory name
    if ← (← below path).isDir then
      found := found ++ (← filesFrom path (start ++ name ++ "/"))
    else
      found := found ++ [start ++ name]
  return found

/-- The files of the system. -/
instance : FileAccess IO where
  readText path := do
    try
      return some (← IO.FS.readFile path)
    catch _ => return none
  filesBelow path := do
    let place ← below path
    if ← place.isDir then filesFrom path ""
    else if ← place.pathExists then return [""]
    else return []
  filesIn path := do
    if !(← (← below path).isDir) then return []
    let names := ((← (← below path).readDir).map (·.fileName)).qsort (· < ·)
    names.toList.filterM fun name => do
      return !(← (← below (Command.inDirectory path name)).isDir)
  createDirectories path := succeeds (IO.FS.createDirAll path)
  writeText path text := succeeds (IO.FS.writeFile path text)
  removeFile path := succeeds (IO.FS.removeFile path)

/-- What is printed for an answer. -/
def shown : Command.Answer → String
  | .report r =>
    "Models generated: " ++ toString r.written.length ++ " written, " ++
      toString r.unchanged.length ++ " unchanged, " ++ toString r.removed.length ++ " removed."
  | .text s => s

/-- What is printed for a failure. -/
def complaint (f : Failure) : String :=
  match f, f.message? with
  | _, some message => message
  | .malformedDocument, none => "Serialization Error: the document cannot be read"
  | .fileAccess, none => "IO Error: a file cannot be read or written"
  | _, none => "error: the command line cannot be read"

end Main
end ContentModels

/-- Run the command line. -/
def main (arguments : List String) : IO UInt32 := do
  let environment ← IO.getEnv ContentModels.Command.settingsVariable
  let run := ContentModels.Command.runArguments .standard environment arguments
  match ← run.run with
  | .ok a =>
    IO.println (ContentModels.Main.shown a)
    return 0
  | .error .usage =>
    IO.eprintln (ContentModels.Main.complaint .usage)
    return 2
  | .error f =>
    IO.eprintln (ContentModels.Main.complaint f)
    return 1
