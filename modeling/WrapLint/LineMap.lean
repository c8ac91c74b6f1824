/-!
# Maps from line numbers

A finite map whose keys are line numbers, kept as a list of entries with increasing keys.
The order is part of the type, so the values of a map always come out from the first line to
the last.

**Results.**
* `get?_insert`: an insertion changes what is found at its own line and nowhere else.
-/

namespace WrapLint

/-- A map from line numbers to `α`, its entries in increasing order. -/
structure LineMap (α : Type) where
  entries : List (Nat × α)
  increasing : entries.Pairwise (fun x y => x.1 < y.1)

namespace LineMap

variable {α : Type}

/-- The map with no entry. -/
def empty : LineMap α :=
  ⟨[], .nil⟩

/-- The entries with one more, which takes the place of an entry on the same line. -/
def insertEntry (line : Nat) (value : α) : List (Nat × α) → List (Nat × α)
  | [] => [(line, value)]
  | (n, a) :: entries =>
    if line < n then (line, value) :: (n, a) :: entries
    else if line = n then (line, value) :: entries
    else (n, a) :: insertEntry line value entries

theorem fst_of_mem_insertEntry {line : Nat} {value : α} {entries : List (Nat × α)}
    {entry : Nat × α} (h : entry ∈ insertEntry line value entries) :
    entry.1 = line ∨ entry ∈ entries := by
  fun_induction insertEntry line value entries <;> grind

theorem increasing_insertEntry (line : Nat) (value : α) {entries : List (Nat × α)}
    (h : entries.Pairwise (fun x y => x.1 < y.1)) :
    (insertEntry line value entries).Pairwise (fun x y => x.1 < y.1) := by
  have bound := @fst_of_mem_insertEntry α
  fun_induction insertEntry line value entries <;> grind [List.pairwise_cons]

/-- The map with this value on this line. -/
def insert (map : LineMap α) (line : Nat) (value : α) : LineMap α :=
  ⟨insertEntry line value map.entries, increasing_insertEntry line value map.increasing⟩

/-- The value on this line. -/
def get? (map : LineMap α) (line : Nat) : Option α :=
  map.entries.lookup line

/-- Whether there is a value on this line. -/
def contains (map : LineMap α) (line : Nat) : Bool :=
  (map.get? line).isSome

/-- The values from the first line to the last. -/
def values (map : LineMap α) : List α :=
  map.entries.map Prod.snd

theorem lookup_insertEntry (line : Nat) (value : α) (entries : List (Nat × α)) (n : Nat) :
    (insertEntry line value entries).lookup n =
      if n = line then some value else entries.lookup n := by
  fun_induction insertEntry line value entries <;> grind

@[simp] theorem get?_empty (n : Nat) : (empty : LineMap α).get? n = none :=
  rfl

theorem get?_insert (map : LineMap α) (line : Nat) (value : α) (n : Nat) :
    (map.insert line value).get? n = if n = line then some value else map.get? n :=
  lookup_insertEntry line value map.entries n

end LineMap
end WrapLint
