import WrapLint.Program

/-!
# The executable

Takes a picture of the part of the file system that a command looks at, runs the command on
it, and carries out what the run left behind.
-/

namespace WrapLint
namespace Main

/-- The content of a file with these bytes. -/
def contentOf (bytes : ByteArray) : Content :=
  match String.fromUTF8? bytes with
  | none => .bytes
  | some text => .text text

/-- The names from the root to a path, which is taken as it is written. -/
def namesFrom (directory : List String) (path : String) : List String :=
  let start := if Path.isAbsolute path then [] else directory
  (Path.parts path).foldl
    (fun names part =>
      if part = "" ∨ part = "." then names
      else if part = ".." then names.dropLast
      else names ++ [part])
    start

/-- What stands at a path.  Below a directory only documents are read. -/
partial def loadEntry (path : String) : IO (Option Entry) := do
  let place := (← IO.currentDir) / path
  if ← place.isDir then
    let mut entries := []
    for item in ← place.readDir do
      let inner := Path.join path item.fileName
      if ← ((← IO.currentDir) / inner).isDir then
        if let some entry ← loadEntry inner then entries := (item.fileName, entry) :: entries
      else if Path.hasSuffix Scan.documentSuffix item.fileName then
        let content := contentOf (← IO.FS.readBinFile ((← IO.currentDir) / inner))
        entries := (item.fileName, .file content) :: entries
      else entries := (item.fileName, .file .bytes) :: entries
    return some (.directory entries)
  else if ← place.pathExists then return some (.file (contentOf (← IO.FS.readBinFile place)))
  else return none

/-- The directories that a path passes through, as paths. -/
def passedPaths (path : String) : List String :=
  let parts := Path.parts path
  (List.range parts.length).map (fun n => String.intercalate "/" (parts.take n))

/-- The part of the file system that these paths lead to. -/
def takeDisk (paths : List String) : IO Disk := do
  let directory := namesFrom [] (← IO.currentDir).toString
  let mut root := Entry.put (.directory []) directory (.directory [])
  let mut files := []
  for path in paths do
    for passed in passedPaths path do
      let names := namesFrom directory passed
      if (root.at? names).isNone then
        let place := (← IO.currentDir) / passed
        if ← place.isDir then root := Entry.put (.directory []) names root
        else if ← place.pathExists then root := Entry.put (.file .bytes) names root
    match ← loadEntry path with
    | some (.directory entries) =>
      root := Entry.put (.directory entries) (namesFrom directory path) root
    | some (.file content) => files := (namesFrom directory path, content) :: files
    | none => pure ()
  for (names, content) in files do
    root := Entry.put (.file content) names root
  return ⟨root, directory⟩

/-- Writes the file that a run has changed, if it has. -/
def carryOut (before after : Disk) (path : String) : IO Unit := do
  match after.read path with
  | .ok text =>
    if (before.read path).toOption ≠ some text then
      IO.FS.writeFile ((← IO.currentDir) / path) text
  | .error _ => pure ()

/-- Runs the program. -/
def run (args : List String) : IO UInt32 := do
  let command := (CommandLine.parse args).toOption.map Invocation.command
  let touched := (command.map Command.touchedPaths).getD []
  let disk ← takeDisk (if command.isSome then touched ++ [Settings.localName] else [])
  let environment : Environment :=
    ⟨(← IO.getEnv "NO_COLOR").isSome, ← (← IO.getStdout).isTty⟩
  let outcome := Program.run environment disk args
  for note in outcome.notes do
    IO.eprintln s!"[{note.level.label}] {note.message}"
  if let some path := command.bind Command.writtenPath? then
    try carryOut disk outcome.disk path
    catch fault =>
      IO.eprint (Problem.io (.other (toString fault))).report
      return 2
  IO.print outcome.stdout
  IO.eprint outcome.stderr
  return outcome.exitCode.toUInt32

end Main
end WrapLint

/-- The entry point. -/
def main (args : List String) : IO UInt32 :=
  WrapLint.Main.run args
