import Mathlib.Data.List.DropRight
import WrapLint.Files.Disk
import WrapLint.Proofs.Traversal

/-!
# Writing a file

Writing puts one file into a directory that is there.

**Results.**
* `Entry.map_content?_at?_put`: no other place is touched: where there was nothing, a directory,
  or a file, there still is, the file with its content.
* `Disk.writesTo_of_writePlace`: what is known of the place that a path may be written to.
* `Disk.read_write`: the text that is written to a path is read from it.
* `Disk.wrote_of_write`: what writing does to a disk (`Disk.Wrote`).
-/

namespace WrapLint

namespace Entry

/-- The content of a file; a directory has none. -/
def content? : Entry → Option Content
  | .file content => some content
  | .directory _ => none

theorem at?_append (xs ys : List String) (entry : Entry) :
    at? (xs ++ ys) entry = (at? xs entry).bind (at? ys) := by
  induction xs generalizing entry with
  | nil => rfl
  | cons x xs ih =>
      cases entry with
      | file content => rfl
      | directory entries =>
          rw [List.cons_append, at?, at?]
          cases entries.lookup x with
          | none => rfl
          | some below => exact ih below

theorem lookup_putEntry (name : String) (entry : Entry) (entries : List (String × Entry))
    (other : String) :
    (putEntry name entry entries).lookup other =
      if other = name then some entry else entries.lookup other := by
  fun_induction putEntry name entry entries <;> grind

theorem at?_put (new : Entry) (names : List String) (root : Entry) :
    at? names (put new names root) = some new := by
  induction names generalizing root with
  | nil => rfl
  | cons name names ih =>
      cases root with
      | file content => simp [put, at?, ih]
      | directory entries => simp [put, at?, lookup_putEntry, ih]

/-- A file that is put into a directory, in no directory's place, changes no other place. -/
theorem map_content?_at?_put {content : Content} {name : String} {directory : List String} :
    ∀ {root : Entry} {entries : List (String × Entry)} {other : List String},
      root.at? directory = some (.directory entries) →
      (∀ inner, root.at? (directory ++ [name]) ≠ some (.directory inner)) →
      other ≠ directory ++ [name] →
      ((put (.file content) (directory ++ [name]) root).at? other).map content? =
        (root.at? other).map content? := by
  induction directory with
  | nil =>
      intro root entries other hdirectory hname hother
      obtain rfl : root = .directory entries := Option.some.inj hdirectory
      match other with
      | [] => rfl
      | first :: rest =>
          simp only [List.nil_append, put, at?, lookup_putEntry]
          split
          · rename_i hfirst
            subst hfirst
            -- The place itself is left out, so this is below it, where there is nothing.
            obtain ⟨second, rest, rfl⟩ : ∃ second others, rest = second :: others :=
              List.exists_cons_of_ne_nil fun hnil => hother (by simp [hnil])
            cases hlookup : entries.lookup first with
            | none => rfl
            | some entry =>
                cases entry with
                | file old => rfl
                | directory inner =>
                    exact absurd (by simp [at?, hlookup]) (hname inner)
          · rfl
  | cons first directory ih =>
      intro root entries other hdirectory hname hother
      cases root with
      | file old => cases hdirectory
      | directory outer =>
          rw [List.cons_append, at?] at hname
          rw [at?] at hdirectory
          cases hlookup : outer.lookup first with
          | none =>
              rw [hlookup] at hdirectory
              cases hdirectory
          | some below =>
              rw [hlookup] at hdirectory hname
              match other with
              | [] => rfl
              | start :: rest =>
                  simp only [List.cons_append, put, at?, lookup_putEntry, hlookup]
                  split
                  · rename_i hstart
                    subst hstart
                    have hrest : rest ≠ directory ++ [name] := fun heq => hother (by simp [heq])
                    rw [hlookup]
                    exact ih hdirectory hname hrest
                  · rfl

end Entry

namespace Disk

variable {disk : Disk} {path : String}

/-- A file that is written to a path goes into this directory under this name. -/
structure WritesTo (disk : Disk) (path : String) (directory : List String) (name : String) :
    Prop where
  checked : checkPath path = .ok ()
  parts : ∃ way, Path.parts path = way ++ [name] ∧
    way.foldlM disk.follow (disk.origin path) = .ok directory
  is_directory : ∃ entries, disk.at? directory = some (.directory entries)
  is_name : name ≠ "" ∧ name ≠ "." ∧ name ≠ ".."
  is_short : name.utf8ByteSize ≤ Path.maxNameBytes
  not_directory : ∀ entries, disk.at? (directory ++ [name]) ≠ some (.directory entries)

theorem follow_of_directory {here : List String} {name : String}
    {entries : List (String × Entry)} (hhere : disk.at? here = some (.directory entries))
    (hname : name ≠ "" ∧ name ≠ "." ∧ name ≠ "..")
    (hshort : name.utf8ByteSize ≤ Path.maxNameBytes)
    (hpresent : (disk.at? (here ++ [name])).isSome = true) :
    disk.follow here name = .ok (here ++ [name]) := by
  have hlookup : (entries.lookup name).isSome = true := by
    rw [at?] at hhere hpresent
    rw [Entry.at?_append, hhere] at hpresent
    cases hentry : entries.lookup name with
    | none => simp [Entry.at?, hentry] at hpresent
    | some entry => rfl
  simp [follow, hhere, hname, hshort, hlookup]

/-- What can be followed is a path from directory to directory, and still can be when things are
added. -/
theorem follow_mono {after : Disk} {here place : List String} {part : String}
    (hdirectory : ∀ names entries, disk.at? names = some (.directory entries) →
      ∃ inner, after.at? names = some (.directory inner))
    (hpresent : ∀ names, (disk.at? names).isSome = true → (after.at? names).isSome = true)
    (h : disk.follow here part = .ok place) : after.follow here part = .ok place := by
  unfold follow at h
  split at h
  · cases h
  · cases h
  · rename_i entries hhere
    obtain ⟨inner, hinner⟩ := hdirectory here entries hhere
    split_ifs at h with hdot hdots hlong hlookup
    · simpa [follow, hinner, hdot] using h
    · simpa [follow, hinner, hdot, hdots] using h
    · obtain rfl := Except.ok.inj h
      refine follow_of_directory hinner ?_ (Nat.le_of_not_lt hlong) (hpresent _ ?_)
      · rw [not_or] at hdot
        exact ⟨hdot.1, hdot.2, hdots⟩
      · rw [at?] at hhere ⊢
        rw [Entry.at?_append, hhere]
        obtain ⟨entry, hentry⟩ := Option.isSome_iff_exists.1 hlookup
        simp [Entry.at?, hentry]

theorem follow_dot {here place : List String} (h : disk.follow here "." = .ok place) :
    place = here ∧ ∃ entries, disk.at? here = some (.directory entries) := by
  unfold follow at h
  split at h
  · cases h
  · cases h
  · rename_i entries hhere
    simp only [or_true, if_true, Except.ok.injEq] at h
    exact ⟨h.symm, entries, hhere⟩

/-- If a list is no longer than what is left of it without the empty names at its end, it ends
in a name that is not empty. -/
theorem eq_dropLast_append_of_getLast? {parts : List String} {name : String}
    (hlast : (parts.rdropWhile (fun part => part == "")).getLast? = some name)
    (hlength : parts.length ≤ (parts.rdropWhile (fun part => part == "")).length) :
    parts = (parts.rdropWhile (fun part => part == "")).dropLast ++ [name] ∧ name ≠ "" := by
  have hparts : parts.rdropWhile (fun part => part == "") = parts :=
    (List.rdropWhile_prefix _ parts).eq_of_length_le hlength
  rw [hparts] at hlast ⊢
  refine ⟨(List.dropLast_append_getLast? name hlast).symm, ?_⟩
  have hne : parts ≠ [] := List.ne_nil_of_mem (List.mem_of_getLast? hlast)
  have hnot := List.rdropWhile_eq_self_iff.1 hparts hne
  rw [List.getLast?_eq_some_getLast hne, Option.some.injEq] at hlast
  simpa [hlast] using hnot

theorem writesTo_of_writePlace {place : List String} (h : disk.writePlace path = .ok place) :
    ∃ directory name, place = directory ++ [name] ∧ disk.WritesTo path directory name := by
  unfold writePlace at h
  simp only [bind, Except.bind] at h
  split at h
  · cases h
  rename_i hchecked
  split at h
  · cases h
  rename_i name hlast
  split at h
  · cases h
  rename_i way hway
  split at h
  · cases h
  rename_i directory hdot
  split_ifs at h with hname hlong
  split at h
  · cases h
  rename_i hplace
  obtain rfl := Except.ok.inj h
  obtain ⟨rfl, hdirectory⟩ := follow_dot hdot
  simp only [not_or, Nat.not_lt] at hname
  obtain ⟨hparts, hempty⟩ := eq_dropLast_append_of_getLast? hlast hname.2.2
  exact ⟨directory, name, rfl, hchecked, ⟨_, hparts, hway⟩, hdirectory,
    ⟨hempty, hname.1, hname.2.1⟩, Nat.le_of_not_lt hlong, fun entries => hplace entries⟩

theorem write_eq_ok_iff {text : String} {after : Disk} :
    disk.write path text = .ok after ↔
      ∃ place, disk.writePlace path = .ok place ∧
        after = { disk with root := Entry.put (.file (.text text)) place disk.root } := by
  unfold write
  cases disk.writePlace path with
  | error fault => simp [bind, Except.bind]
  | ok place => simp [bind, Except.bind, eq_comm]

section Written

variable {after : Disk} {text : String}

/-- What is written is at the place of the path, and no other place is touched. -/
theorem at?_of_write {place : List String} (hplace : disk.writePlace path = .ok place)
    (hwrite : disk.write path text = .ok after) :
    after.at? place = some (.file (.text text)) ∧
      ∀ names, names ≠ place →
        (after.at? names).map Entry.content? = (disk.at? names).map Entry.content? := by
  obtain ⟨other, hother, rfl⟩ := write_eq_ok_iff.1 hwrite
  rw [hplace, Except.ok.injEq] at hother
  subst hother
  obtain ⟨directory, name, rfl, hwrites⟩ := writesTo_of_writePlace hplace
  obtain ⟨entries, hdirectory⟩ := hwrites.is_directory
  exact ⟨Entry.at?_put _ _ _, fun names hnames =>
    Entry.map_content?_at?_put hdirectory hwrites.not_directory hnames⟩

theorem exists_directory_of_write {names : List String} {entries : List (String × Entry)}
    (hwrite : disk.write path text = .ok after)
    (hnames : disk.at? names = some (.directory entries)) :
    ∃ inner, after.at? names = some (.directory inner) := by
  obtain ⟨place, hplace, -⟩ := write_eq_ok_iff.1 hwrite
  obtain ⟨directory, name, rfl, hwrites⟩ := writesTo_of_writePlace hplace
  have hne : names ≠ directory ++ [name] := by
    rintro rfl
    exact hwrites.not_directory entries hnames
  have hkept := (at?_of_write hplace hwrite).2 names hne
  rw [hnames] at hkept
  cases hentry : after.at? names with
  | none => simp [hentry] at hkept
  | some entry =>
      cases entry with
      | directory inner => exact ⟨inner, rfl⟩
      | file content => simp [hentry, Entry.content?] at hkept

theorem isSome_at?_of_write {names : List String} (hwrite : disk.write path text = .ok after)
    (hnames : (disk.at? names).isSome = true) : (after.at? names).isSome = true := by
  obtain ⟨place, hplace, -⟩ := write_eq_ok_iff.1 hwrite
  obtain ⟨hat, hothers⟩ := at?_of_write hplace hwrite
  by_cases hne : names = place
  · rw [hne, hat]
    rfl
  · have hkept := congrArg Option.isSome (hothers names hne)
    rwa [Option.isSome_map, Option.isSome_map, hnames] at hkept

theorem resolve_of_write {place : List String} (hplace : disk.writePlace path = .ok place)
    (hwrite : disk.write path text = .ok after) : after.resolve path = .ok place := by
  obtain ⟨hat, -⟩ := at?_of_write hplace hwrite
  obtain ⟨directory, name, rfl, hwrites⟩ := writesTo_of_writePlace hplace
  obtain ⟨way, hparts, hway⟩ := hwrites.parts
  obtain ⟨entries, hentries⟩ := hwrites.is_directory
  obtain ⟨inner, hinner⟩ := exists_directory_of_write hwrite hentries
  have horigin : after.origin path = disk.origin path := by
    obtain ⟨other, -, rfl⟩ := write_eq_ok_iff.1 hwrite
    rfl
  have hdirectory : way.foldlM after.follow (disk.origin path) = .ok directory :=
    foldlM_of_imp (fun _ _ _ => follow_mono (fun _ _ => exists_directory_of_write hwrite)
      (fun _ => isSome_at?_of_write hwrite)) hway
  have hname : after.follow directory name = .ok (directory ++ [name]) :=
    follow_of_directory hinner hwrites.is_name hwrites.is_short (by rw [hat]; rfl)
  rw [resolve, hwrites.checked, hparts, horigin]
  simp [bind, Except.bind, List.foldlM_append, hdirectory, hname, pure, Except.pure]

theorem read_write (hwrite : disk.write path text = .ok after) : after.read path = .ok text := by
  obtain ⟨place, hplace, -⟩ := write_eq_ok_iff.1 hwrite
  obtain ⟨hat, -⟩ := at?_of_write hplace hwrite
  simp [read, entry, resolve_of_write hplace hwrite, hat, bind, Except.bind]

/-- Between two disks a text was written to a path, and nothing else was done: the text is read
from the path, it is at the place of the path, and no other place is touched. -/
structure Wrote (disk after : Disk) (path text : String) : Prop where
  read : after.read path = .ok text
  workingDirectory : after.workingDirectory = disk.workingDirectory
  place : ∃ place, disk.writePlace path = .ok place ∧
    after.at? place = some (.file (.text text)) ∧
    ∀ names, names ≠ place →
      (after.at? names).map Entry.content? = (disk.at? names).map Entry.content?

theorem wrote_of_write (hwrite : disk.write path text = .ok after) :
    disk.Wrote after path text := by
  obtain ⟨place, hplace, rfl⟩ := write_eq_ok_iff.1 hwrite
  obtain ⟨hat, hothers⟩ := at?_of_write hplace hwrite
  exact ⟨read_write hwrite, rfl, place, hplace, hat, hothers⟩

end Written

end Disk
end WrapLint
