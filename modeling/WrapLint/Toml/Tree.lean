import WrapLint.Toml.Value

/-!
# Tables under construction

The headers and assignments of a TOML document, one after another, build a tree of tables.

**Rules.**  A table that a header or a dotted key has to pass through is created where it is
missing.  What is written as a value, also an array or an inline table, is closed.  A header
may open a table that exists only because a longer header passed through it; the table then
moves to the end of its parent.  A dotted key may pass through tables that no header opened,
and its last table must be one that a dotted key made.  A key is never written twice.
A header in double brackets adds a table to an array, and a path that meets such an array
goes on in its last table.

**Contents.**  `openTable`, `openItem` and `assign`, the three steps, each of which may fail,
and `Tree.toValue`, the result.
-/

namespace WrapLint
namespace Toml

/-- How a table came to be. -/
inductive Origin where
  /-- A header opened it. -/
  | opened
  /-- A header passed through it. -/
  | passed
  /-- A dotted key passed through it. -/
  | dotted
  deriving DecidableEq

/-- What stands at a key. -/
inductive Tree where
  /-- A value, which nothing can be added to. -/
  | closed (value : Value)
  | table (origin : Origin) (entries : List (String × Tree))
  /-- An array of tables, each opened by a header of its own. -/
  | items (tables : List (List (String × Tree)))

/-- The entries of a table. -/
abbrev Entries := List (String × Tree)

/-- The entries with this tree at a key that is there already. -/
def replace (key : String) (tree : Tree) : Entries → Entries
  | [] => []
  | entry :: entries =>
    if entry.1 = key then (key, tree) :: entries else entry :: replace key tree entries

/-- The entries after a change to the table that a path leads to.  The path belongs to a
dotted key (`byDots`) or to a header, and the change is told how the table it works on came
to be. -/
def updateAt (byDots : Bool) (change : Origin → Entries → Option Entries) :
    Origin → List String → Entries → Option Entries
  | origin, [], entries => change origin entries
  | _, key :: path, entries =>
    match entries.lookup key with
    | none => do
      let origin := if byDots then .dotted else .passed
      let below ← updateAt byDots change origin path []
      some (entries ++ [(key, .table origin below)])
    | some (.closed _) => none
    | some (.table origin below) =>
      if byDots ∧ origin = .opened then none
      else do
        let below ← updateAt byDots change origin path below
        some (replace key (.table origin below) entries)
    | some (.items tables) => do
      let below ← updateAt byDots change .opened path (← tables.getLast?)
      some (replace key (.items (tables.dropLast ++ [below])) entries)

/-- The step of a header in single brackets: the path and the key of the table. -/
def openTable (path : List String) (key : String) (root : Entries) : Option Entries :=
  let change : Origin → Entries → Option Entries := fun _ entries =>
    match entries.lookup key with
    | none => some (entries ++ [(key, .table .opened [])])
    | some (.table .passed below) =>
      some (entries.filter (fun entry => entry.1 != key) ++ [(key, .table .opened below)])
    | some _ => none
  updateAt false change .opened path root

/-- The step of a header in double brackets: the path and the key of the array. -/
def openItem (path : List String) (key : String) (root : Entries) : Option Entries :=
  let change : Origin → Entries → Option Entries := fun _ entries =>
    match entries.lookup key with
    | none => some (entries ++ [(key, .items [[]])])
    | some (.items tables) => some (replace key (.items (tables ++ [[]])) entries)
    | some _ => none
  updateAt false change .opened path root

/-- The step of an assignment inside one table: the dotted path, the last key and the value. -/
def assignIn (path : List String) (key : String) (value : Value) :
    Origin → Entries → Option Entries :=
  let change : Origin → Entries → Option Entries := fun origin entries =>
    if (origin == .dotted) == path.isEmpty then none
    else if (entries.lookup key).isSome then none
    else some (entries ++ [(key, .closed value)])
  fun origin entries => updateAt true change origin path entries

/-- The step of an assignment under a header. -/
def assign (header path : List String) (key : String) (value : Value) (root : Entries) :
    Option Entries :=
  updateAt false (assignIn path key value) .opened header root

mutual

/-- The value of a finished tree. -/
def Tree.toValue : Tree → Value
  | .closed value => value
  | .table _ entries => .table (Tree.toEntries entries)
  | .items tables => .array (Tree.toTables tables)

/-- The entries of a finished table. -/
def Tree.toEntries : List (String × Tree) → List (String × Value)
  | [] => []
  | (key, tree) :: entries => (key, Tree.toValue tree) :: Tree.toEntries entries

/-- The items of a finished array of tables. -/
def Tree.toTables : List (List (String × Tree)) → List Value
  | [] => []
  | entries :: tables => .table (Tree.toEntries entries) :: Tree.toTables tables

end

end Toml
end WrapLint
