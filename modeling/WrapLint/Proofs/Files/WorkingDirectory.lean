import Mathlib.Tactic.Common
import WrapLint.Proofs.Files.Writing

/-!
# Two paths of one entry

An entry of the working directory can be named by its name alone, and by its path from the root.
The name is always short enough to be followed, but in a deep directory the path from the root is
not.

**Results.**
* `Path.parts_intercalate`: the parts of a path that was put together from names.
* `Disk.join_workingPath`: the path from the root, as the names on the way to the entry.
* `Disk.entry_join_workingPath`: where the name leads, the path from the root leads as well, unless
  it is too long.
* `Disk.isPresent_of_isTooLong`: a path that is too long leads nowhere.
-/

namespace WrapLint

namespace Path

/-- A text that can be the name of an entry: it is not empty, no dots, and has no slash. -/
def IsName (name : String) : Prop :=
  name ≠ "" ∧ name ≠ "." ∧ name ≠ ".." ∧ '/' ∉ name.toList

instance (name : String) : Decidable (IsName name) :=
  inferInstanceAs (Decidable (name ≠ "" ∧ name ≠ "." ∧ name ≠ ".." ∧ '/' ∉ name.toList))

/-- A text that an entry on a disk can have as its name: it is not too long either, and has no null
character. -/
structure IsEntryName (name : String) : Prop where
  is_name : IsName name
  not_null : '\x00' ∉ name.toList
  is_short : name.utf8ByteSize ≤ maxNameBytes

instance (name : String) : Decidable (IsEntryName name) :=
  decidable_of_iff (IsName name ∧ '\x00' ∉ name.toList ∧ name.utf8ByteSize ≤ maxNameBytes)
    ⟨fun h => ⟨h.1, h.2.1, h.2.2⟩, fun h => ⟨h.is_name, h.not_null, h.is_short⟩⟩

theorem parts_intercalate {names : List String} (hne : names ≠ [])
    (hnames : ∀ name ∈ names, '/' ∉ name.toList) :
    parts (String.intercalate "/" names) = names := by
  have hsplit : (['/'].intercalate (names.map String.toList)).splitOn '/'
      = names.map String.toList := by
    refine List.splitOn_intercalate '/' ?_ (by simp [hne])
    intro text htext
    obtain ⟨name, hname, rfl⟩ := List.mem_map.1 htext
    exact hnames name hname
  rw [parts, String.toList_intercalate]
  change List.map String.ofList ((['/'].intercalate (names.map String.toList)).splitOn '/') = names
  rw [hsplit, List.map_map]
  simp [Function.comp_def]

theorem not_mem_intercalate {names : List String} {c : Char} (hc : c ≠ '/')
    (hnames : ∀ name ∈ names, c ∉ name.toList) : c ∉ (String.intercalate "/" names).toList := by
  induction names with
  | nil => simp
  | cons name names ih =>
      rw [List.forall_mem_cons] at hnames
      rcases eq_or_ne names [] with rfl | hne
      · simpa using hnames.1
      · rw [String.intercalate_cons_of_ne_nil hne]
        simp only [String.toList_append, List.mem_append, not_or]
        exact ⟨⟨hnames.1, by simpa using hc⟩, ih hnames.2⟩

theorem join_eq_of_getLast? {directory name : String} {c : Char}
    (hlast : directory.toList.getLast? = some c) (hc : c ≠ '/') :
    join directory name = directory ++ "/" ++ name := by
  unfold join
  rw [hlast]
  split
  · contradiction
  · rename_i heq
    exact absurd (Option.some.inj heq) hc
  · rfl

/-- After a name there is a slash before the next one. -/
theorem join_append_name (front : String) {name : String} (hname : IsName name) (next : String) :
    join (front ++ name) next = front ++ name ++ "/" ++ next := by
  obtain ⟨hempty, -, -, hslash⟩ := hname
  have htext : name.toList ≠ [] := by simpa using hempty
  have hlast : (front ++ name).toList.getLast? = some (name.toList.getLast htext) := by
    rw [String.toList_append, List.getLast?_append_of_ne_nil _ htext,
      List.getLast?_eq_some_getLast htext]
  exact join_eq_of_getLast? hlast fun heq => hslash (heq ▸ List.getLast_mem htext)

end Path

namespace Disk

variable {disk : Disk}

theorem workingPath_eq_intercalate (h : disk.workingDirectory ≠ []) :
    disk.workingPath = String.intercalate "/" ("" :: disk.workingDirectory) := by
  rw [workingPath, String.intercalate_cons_of_ne_nil h, String.empty_append]

theorem join_workingPath (hnames : ∀ name ∈ disk.workingDirectory, Path.IsName name)
    (name : String) :
    Path.join disk.workingPath name
      = String.intercalate "/" ("" :: disk.workingDirectory ++ [name]) := by
  rcases List.eq_nil_or_concat disk.workingDirectory with hnil | ⟨names, last, hconcat⟩
  · rw [workingPath, hnil]
    simp [Path.join]
  · have hne : disk.workingDirectory ≠ [] := by simp [hconcat]
    have hpath : disk.workingPath = String.intercalate "/" ("" :: names) ++ "/" ++ last := by
      rw [workingPath_eq_intercalate hne, hconcat, List.concat_eq_append, ← List.cons_append,
        String.intercalate_append_of_ne_nil (by simp) (by simp), String.intercalate_singleton]
    rw [hpath, Path.join_append_name _ (hnames last (by simp [hconcat])), ← hpath,
      workingPath_eq_intercalate hne,
      String.intercalate_append_of_ne_nil (by simp) (by simp), String.intercalate_singleton]

theorem exists_directory_of_append {front back : List String} {entries : List (String × Entry)}
    (h : disk.at? (front ++ back) = some (.directory entries)) :
    ∃ inner, disk.at? front = some (.directory inner) := by
  rw [at?, Entry.at?_append] at h
  cases hfront : disk.root.at? front with
  | none => simp [hfront] at h
  | some entry =>
      cases entry with
      | directory inner => exact ⟨inner, hfront⟩
      | file content => cases back <;> simp [hfront, Entry.at?] at h

/-- The names on the way to a directory lead there. -/
theorem foldlM_follow_names {here names : List String} {entries : List (String × Entry)}
    (hnames : ∀ name ∈ names, Path.IsEntryName name)
    (h : disk.at? (here ++ names) = some (.directory entries)) :
    names.foldlM disk.follow here = .ok (here ++ names) := by
  induction names generalizing here with
  | nil => simp [pure, Except.pure]
  | cons name names ih =>
      rw [List.forall_mem_cons] at hnames
      obtain ⟨inner, hhere⟩ := exists_directory_of_append h
      rw [List.append_cons] at h
      obtain ⟨next, hnext⟩ := exists_directory_of_append h
      obtain ⟨⟨hempty, hdot, hdots, -⟩, -, hshort⟩ := hnames.1
      have hstep := follow_of_directory hhere ⟨hempty, hdot, hdots⟩ hshort (by rw [hnext]; rfl)
      rw [foldlM_cons_eq_ok_iff, List.append_cons]
      exact ⟨here ++ [name], hstep, ih hnames.2 h⟩

theorem exists_directory_of_follow {here place : List String} {part : String}
    (h : disk.follow here part = .ok place) :
    ∃ entries, disk.at? here = some (.directory entries) := by
  unfold follow at h
  split at h
  · cases h
  · cases h
  · rename_i entries hhere
    exact ⟨entries, hhere⟩

theorem isAbsolute_intercalate {names : List String} (h : names ≠ []) :
    Path.isAbsolute (String.intercalate "/" ("" :: names)) = true := by
  rw [String.intercalate_cons_of_ne_nil h, String.empty_append]
  simp [Path.isAbsolute]

theorem isPresent_of_isTooLong {path : String} (h : Path.isTooLong path = true) :
    disk.isPresent path = false := by
  unfold isPresent entry resolve checkPath
  split_ifs <;> rfl

section Entry

variable {name : String} (hname : Path.IsEntryName name)
include hname

/-- A name is looked up in the working directory. -/
theorem resolve_name : disk.resolve name = disk.follow disk.workingDirectory name := by
  have hparts : Path.parts name = [name] := by
    rw [← Path.parts_intercalate (List.cons_ne_nil name [])
      (List.forall_mem_singleton.2 hname.is_name.2.2.2), String.intercalate_singleton]
  have hrelative : Path.isAbsolute name = false := by
    rw [Path.isAbsolute, beq_eq_false_iff_ne]
    exact fun hhead => hname.is_name.2.2.2 (List.mem_of_head? hhead)
  have hfits : Path.isTooLong name = false :=
    decide_eq_false (Nat.not_lt.2 (hname.is_short.trans (by decide)))
  have hchecked : checkPath name = .ok () := by
    simp [checkPath, hname.not_null, hname.is_name.1, hfits]
  rw [resolve, hchecked, hparts, origin, hrelative]
  change [name].foldlM disk.follow disk.workingDirectory = _
  rw [List.foldlM_cons]
  exact bind_pure _

variable (hnames : ∀ part ∈ disk.workingDirectory, Path.IsEntryName part)
  (hshort : Path.isTooLong (Path.join disk.workingPath name) = false)
include hnames hshort

theorem checkPath_join_workingPath :
    checkPath (Path.join disk.workingPath name) = .ok () := by
  have hnull : '\x00' ∉ (Path.join disk.workingPath name).toList := by
    rw [join_workingPath fun part hpart => (hnames part hpart).is_name]
    refine Path.not_mem_intercalate (by decide) ?_
    simp only [List.cons_append, List.forall_mem_cons, List.forall_mem_append]
    exact ⟨by simp, fun part hpart => (hnames part hpart).not_null, hname.not_null, by simp⟩
  have hempty : Path.join disk.workingPath name ≠ "" := by
    intro hjoin
    have hne : disk.workingDirectory ++ [name] ≠ [] := by simp
    have habsolute := isAbsolute_intercalate hne
    rw [← List.cons_append, ← join_workingPath fun part hpart => (hnames part hpart).is_name,
      hjoin] at habsolute
    cases habsolute
  simp [checkPath, hnull, hempty, hshort]

/-- The path from the root leads where the name does. -/
theorem resolve_join_workingPath {place : List String} (h : disk.resolve name = .ok place) :
    disk.resolve (Path.join disk.workingPath name) = .ok place := by
  rw [resolve_name hname] at h
  obtain ⟨entries, hdirectory⟩ := exists_directory_of_follow h
  have hslashes : ∀ part ∈ "" :: disk.workingDirectory ++ [name], '/' ∉ part.toList := by
    simp only [List.cons_append, List.forall_mem_cons, List.forall_mem_append]
    exact ⟨by simp, fun part hpart => (hnames part hpart).is_name.2.2.2, hname.is_name.2.2.2,
      by simp⟩
  -- The empty part in front stays at the root, and the names lead to the working directory.
  have hway : ("" :: disk.workingDirectory ++ [name]).foldlM disk.follow [] = .ok place := by
    obtain ⟨top, hroot⟩ : ∃ top, disk.at? [] = some (.directory top) :=
      exists_directory_of_append hdirectory
    have hstart : disk.follow [] "" = .ok [] := by simp [follow, hroot]
    have hnamed : disk.workingDirectory.foldlM disk.follow [] = .ok disk.workingDirectory :=
      foldlM_follow_names hnames hdirectory
    exact foldlM_append_eq_ok_iff.2 ⟨_, foldlM_cons_eq_ok_iff.2 ⟨_, hstart, hnamed⟩,
      foldlM_cons_eq_ok_iff.2 ⟨_, h, rfl⟩⟩
  rw [resolve, checkPath_join_workingPath hname hnames hshort,
    join_workingPath fun part hpart => (hnames part hpart).is_name,
    Path.parts_intercalate (by simp) hslashes, origin, List.cons_append,
    isAbsolute_intercalate (by simp)]
  exact hway

theorem entry_join_workingPath (h : disk.isPresent name = true) :
    disk.entry (Path.join disk.workingPath name) = disk.entry name := by
  unfold isPresent at h
  cases hresolve : disk.resolve name with
  | error fault => simp [entry, hresolve, bind, Except.bind, Except.toOption] at h
  | ok place =>
      rw [entry, entry, hresolve, resolve_join_workingPath hname hnames hshort hresolve]

end Entry

end Disk
end WrapLint
