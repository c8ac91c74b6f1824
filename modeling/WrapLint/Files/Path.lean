/-!
# Paths

A path is kept as the text that a user wrote or that a scan put together; messages show it so.

**Contents.**  `join`, the components of a path, and when two texts are one path.
-/

namespace WrapLint
namespace Path

/-- The number of bytes that one part of a path may have. -/
def maxNameBytes : Nat := 255

/-- The number of bytes that a path may have. -/
def maxPathBytes : Nat := 4095

/-- Whether the path has too many bytes to be followed. -/
def isTooLong (path : String) : Bool :=
  maxPathBytes < path.utf8ByteSize

/-- Whether a path is taken from the root and not from the working directory. -/
def isAbsolute (path : String) : Bool :=
  path.toList.head? == some '/'

/-- The path of an entry of a directory: a slash in between, unless the directory's path is
empty or ends in one. -/
def join (directory name : String) : String :=
  match directory.toList.getLast? with
  | none => name
  | some '/' => directory ++ name
  | some _ => directory ++ "/" ++ name

/-- The parts of a path between its slashes, empty ones included. -/
def parts (path : String) : List String :=
  (path.toList.splitOn '/').map String.ofList

/-- The components of a path.  Empty parts and single dots say nothing, except a dot in
front. -/
def components (path : String) : List String :=
  match parts path with
  | [] => []
  | first :: rest =>
    let rest := rest.filter (fun part => part != "" && part != ".")
    if first = "" then rest else first :: rest

/-- Whether two texts are one path. -/
def same (x y : String) : Bool :=
  isAbsolute x == isAbsolute y && components x == components y

/-- Whether a file name ends in this suffix. -/
def hasSuffix (suffix name : String) : Bool :=
  suffix.toList.isSuffixOf name.toList

end Path
end WrapLint
