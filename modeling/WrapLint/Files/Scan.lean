import WrapLint.Files.Disk

/-!
# Scanning for documents

**Input.**  A disk, the path to start at, and the suffix of the names that are looked for.

**Output.**  A file is its own result, whatever its name.  From a directory come the paths of
all files below it whose names have the suffix: depth first, the entries of each directory in
the order of their names.  Names are compared by code points, which for UTF-8 is the order of
their bytes.  A directory is entered whatever its name.  It is entered by its path, so one whose
path is too long makes the scan fail; the paths of files are only put together.
-/

namespace WrapLint
namespace Scan

/-- The end of the names of documents. -/
def documentSuffix : String :=
  ".slim.json"

mutual

/-- The files with the suffix at an entry with this name and path, and below it. -/
def below (suffix name path : String) : Entry → Except FileFault (List String)
  | .file _ => .ok (if Path.hasSuffix suffix name then [path] else [])
  | .directory entries =>
    if Path.isTooLong path then .error .nameTooLong
    else do
      let found ← belowEach suffix path entries
      .ok ((found.mergeSort (fun x y => x.1 ≤ y.1)).flatMap Prod.snd)

/-- For each entry of the directory at a path, its name and what it contributes. -/
def belowEach (suffix path : String) :
    List (String × Entry) → Except FileFault (List (String × List String))
  | [] => .ok []
  | (name, entry) :: entries => do
    let found ← below suffix name (Path.join path name) entry
    let others ← belowEach suffix path entries
    .ok ((name, found) :: others)

end

/-- The documents at a path. -/
def files (suffix : String) (disk : Disk) (path : String) : Except FileFault (List String) := do
  match ← disk.entry path with
  | .file _ => .ok [path]
  | .directory entries => below suffix "" path (.directory entries)

end Scan
end WrapLint
