import WrapLint.Files.Path
import WrapLint.Problem

/-!
# Disks

**Contents.**  A disk is a tree of directories and files together with a working directory.
A path is followed through it part by part: a relative one from the working directory, an
absolute one from the root.  Reading, looking whether something is there, and writing follow a
path in the same way and fail for the same reasons.

**Rules.**  The empty path leads nowhere, nor does one that is too long or has a part that is
too long.  Every part of a path is looked up in a directory,
also an empty part, a dot and two dots, so a slash after the name of a file makes the path
fail.  Two dots lead to the parent, and at the root stay there.  Writing makes a file that is
missing, but no directory.
-/

namespace WrapLint

/-- The content of a file. -/
inductive Content where
  | text (text : String)
  /-- Bytes that are no UTF-8 text. -/
  | bytes
  deriving DecidableEq

/-- A file or a directory.  The entries of a directory have distinct names, in no particular
order. -/
inductive Entry where
  | file (content : Content)
  | directory (entries : List (String × Entry))

/-- A tree of files, with the place of the working directory in it. -/
structure Disk where
  root : Entry
  workingDirectory : List String

namespace Entry

/-- The entry that these names lead to. -/
def at? : List String → Entry → Option Entry
  | [], entry => some entry
  | _ :: _, .file _ => none
  | name :: names, .directory entries => do at? names (← entries.lookup name)

/-- Whether the entry is a directory. -/
def isDirectory : Entry → Bool
  | .directory _ => true
  | .file _ => false

/-- The entries with this one in the place of the one with its name, or at the end. -/
def putEntry (name : String) (entry : Entry) : List (String × Entry) → List (String × Entry)
  | [] => [(name, entry)]
  | other :: entries =>
    if other.1 = name then (name, entry) :: entries else other :: putEntry name entry entries

/-- The entry with this one at the place that the names lead to.  Directories on the way are
made where they are missing. -/
def put (new : Entry) : List String → Entry → Entry
  | [], _ => new
  | name :: names, .directory entries =>
    let below := (entries.lookup name).getD (.directory [])
    .directory (putEntry name (put new names below) entries)
  | name :: names, .file _ => .directory [(name, put new names (.directory []))]

end Entry

namespace Disk

/-- The entry that these names lead to, from the root. -/
def at? (disk : Disk) (names : List String) : Option Entry :=
  disk.root.at? names

/-- The place that one part of a path leads to from another place. -/
def follow (disk : Disk) (here : List String) (part : String) :
    Except FileFault (List String) :=
  match disk.at? here with
  | none => .error .notFound
  | some (.file _) => .error .notADirectory
  | some (.directory entries) =>
    if part = "" ∨ part = "." then .ok here
    else if part = ".." then .ok here.dropLast
    else if Path.maxNameBytes < part.utf8ByteSize then .error .nameTooLong
    else if (entries.lookup part).isSome then .ok (here ++ [part])
    else .error .notFound

/-- Refuses a path that cannot be followed at all, whatever the disk holds. -/
def checkPath (path : String) : Except FileFault Unit :=
  if path.toList.contains '\x00' then .error .nullInPath
  else if path = "" then .error .notFound
  else if Path.isTooLong path then .error .nameTooLong
  else .ok ()

/-- The place where following a path begins. -/
def origin (disk : Disk) (path : String) : List String :=
  if Path.isAbsolute path then [] else disk.workingDirectory

/-- The place that a path leads to. -/
def resolve (disk : Disk) (path : String) : Except FileFault (List String) := do
  checkPath path
  (Path.parts path).foldlM disk.follow (disk.origin path)

/-- The entry that a path leads to. -/
def entry (disk : Disk) (path : String) : Except FileFault Entry := do
  let place ← disk.resolve path
  match disk.at? place with
  | none => .error .notFound
  | some entry => .ok entry

/-- Whether a path leads to anything. -/
def isPresent (disk : Disk) (path : String) : Bool :=
  (disk.entry path).toOption.isSome

/-- The text of the file at a path. -/
def read (disk : Disk) (path : String) : Except FileFault String := do
  match ← disk.entry path with
  | .file (.text text) => .ok text
  | .file .bytes => .error .notText
  | .directory _ => .error .isADirectory

/-- Where a file that is written to a path goes.  The directory it goes to must be there, and
a path that names a directory, or could only name one, is refused. -/
def writePlace (disk : Disk) (path : String) : Except FileFault (List String) := do
  checkPath path
  let named := ((Path.parts path).reverse.dropWhile (fun part => part == "")).reverse
  match named.getLast? with
  | none => .error .isADirectory
  | some last =>
    let directory ← named.dropLast.foldlM disk.follow (disk.origin path)
    let directory ← disk.follow directory "."
    if last = "." ∨ last = ".." ∨ named.length < (Path.parts path).length then
      .error .isADirectory
    else if Path.maxNameBytes < last.utf8ByteSize then .error .nameTooLong
    else
      match disk.at? (directory ++ [last]) with
      | some (.directory _) => .error .isADirectory
      | _ => .ok (directory ++ [last])

/-- The disk after a text is written to a path. -/
def write (disk : Disk) (path text : String) : Except FileFault Disk := do
  let place ← disk.writePlace path
  .ok { disk with root := Entry.put (.file (.text text)) place disk.root }

/-- The path of the working directory. -/
def workingPath (disk : Disk) : String :=
  "/" ++ String.intercalate "/" disk.workingDirectory

end Disk
end WrapLint
