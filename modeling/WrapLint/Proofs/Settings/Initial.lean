import WrapLint.Command.Init
import WrapLint.Lint.AttributesWrapper
import WrapLint.Proofs.Toml.Statements
import WrapLint.Settings.Decode

/-!
# The settings that `init` writes

The settings file is read one statement after another: comments and empty lines, the header of the
only section, and its two assignments.

**Results.**
* `statements?_template`: the tables that the statements of the file build.
* `read?_template`: the settings that the file holds, for every style.
-/

namespace WrapLint
namespace Init

open Toml

section Lines

/-- The lines in front of the header. -/
def titleLines : List (List Char) :=
  ["# wrap-guard configuration file".toList, []]

/-- The lines between the two assignments. -/
def explanationLines : List (List Char) :=
  [[],
    "# How element attributes must be wrapped:".toList,
    "#   none   - div data-foo=\"bar\"".toList,
    "#   round  - div(data-foo=\"bar\")".toList,
    "#   curly  - div\x7bdata-foo=\"bar\"\x7d".toList,
    "#   square - div[data-foo=\"bar\"]".toList,
    "#   any    - any of round, curly or square".toList]

/-- The line of the second assignment. -/
def styleLine (style : Style) : List Char :=
  "style = \"".toList ++ (style.keyword.toList ++ ['"'])

theorem styleLine_append (style : Style) (rest : List Char) :
    styleLine style ++ '\n' :: rest
      = "style = \"".toList ++ (style.keyword.toList ++ '"' :: '\n' :: rest) := by
  have hword : style.keyword.toList ++ ['"'] ++ '\n' :: rest
      = style.keyword.toList ++ '"' :: '\n' :: rest := by simp
  exact (List.append_assoc _ _ _).trans (congrArg ("style = \"".toList ++ ·) hword)

theorem toList_template (style : Style) :
    (template style).toList =
      textOfLines (titleLines ++ "[linters.AttributesWrapper]".toList
        :: "enabled = true".toList :: (explanationLines ++ [styleLine style])) := by
  rw [template, String.toList_intercalate, textOfLines_eq_intercalate]
  simp only [List.map_cons, List.map_nil, String.toList_append, List.append_assoc]
  rfl

end Lines

section Statements

/-- The header that is in force in the file. -/
def header : List String :=
  ["linters", AttributesWrapper.name]

/-- The tables of the file, with these entries in its only section. -/
def sectionWith (entries : Entries) : Entries :=
  [("linters", .table .passed [(AttributesWrapper.name, .table .opened entries)])]

/-- The entries of the section. -/
def entriesOf (style : Style) : Entries :=
  [("enabled", .closed (.boolean true)), ("style", .closed (.string style.keyword))]

theorem statements?_header (fuel : Nat) (rest : List Char) :
    statements? (fuel + 1) [] [] ("[linters.AttributesWrapper]".toList ++ '\n' :: rest)
      = statements? fuel header (sectionWith []) rest := by
  have hkey : dottedKey? (skipBlanks ("linters.AttributesWrapper]".toList ++ '\n' :: rest))
      = some (["linters"], AttributesWrapper.name, ']' :: '\n' :: rest) := rfl
  have hopen : openTable ["linters"] AttributesWrapper.name [] = some (sectionWith []) := rfl
  exact statements?_openTable fuel [] (c := 'l') rfl (by decide) hkey hopen rfl

theorem statements?_enabled (fuel : Nat) (rest : List Char) :
    statements? (fuel + 2) header (sectionWith []) ("enabled = true".toList ++ '\n' :: rest)
      = statements? (fuel + 1) header (sectionWith [("enabled", .closed (.boolean true))])
          rest := by
  have hkey : dottedKey? ("enabled = true".toList ++ '\n' :: rest)
      = some ([], "enabled", '=' :: (" true".toList ++ '\n' :: rest)) := rfl
  have hvalue : value? (fuel + 1) nestingLimit ("true".toList ++ '\n' :: rest)
      = some (.boolean true, '\n' :: rest) := rfl
  exact statements?_assign (fuel + 1) (c := 'e') rfl (by decide) hkey hvalue rfl rfl

theorem isOrdinary_of_mem_keyword (style : Style) : ∀ c ∈ style.keyword.toList, IsOrdinary c := by
  have hall : (style.keyword.toList.all fun c => decide (IsOrdinary c)) = true := by
    cases style <;> rfl
  simpa only [List.all_eq_true, decide_eq_true_eq] using hall

theorem statements?_style (style : Style) (fuel : Nat) (rest : List Char) :
    statements? (fuel + 2) header (sectionWith [("enabled", .closed (.boolean true))])
        (styleLine style ++ '\n' :: rest)
      = statements? (fuel + 1) header (sectionWith (entriesOf style)) rest := by
  have hkey : dottedKey? ("style = \"".toList ++ (style.keyword.toList ++ '"' :: '\n' :: rest))
      = some ([], "style", '=' :: ' ' :: '"' :: (style.keyword.toList ++ '"' :: '\n' :: rest)) :=
    rfl
  have hne : style.keyword.toList ≠ [] := by cases style <;> decide
  have hvalue := value?_basic fuel nestingLimit hne (isOrdinary_of_mem_keyword style)
    ('\n' :: rest)
  rw [String.ofList_toList] at hvalue
  rw [styleLine_append]
  exact statements?_assign (fuel + 1) (c := 's') rfl (by decide) hkey hvalue rfl rfl

theorem statements?_template (style : Style) (fuel : Nat) :
    statements? (fuel + 4) [] [] (template style).toList
      = some (sectionWith (entriesOf style)) := by
  -- Only the header and the two assignments take fuel, and so does the end.
  rw [toList_template, statements?_gapLines _ _ _ (by decide), textOfLines_cons,
    statements?_header, textOfLines_cons, statements?_enabled,
    statements?_gapLines _ _ _ (by decide), textOfLines_cons, statements?_style]
  exact statements?_nil fuel header _ rfl

end Statements

/-- The settings in the file: one section, switched on, with the style. -/
theorem read?_template (style : Style) :
    Settings.read? (template style)
      = some ⟨[(AttributesWrapper.name, ⟨true, [("style", .string style.keyword)]⟩)]⟩ := by
  have hmark : dropByteOrderMark (template style).toList = (template style).toList := by
    rw [toList_template]
    rfl
  obtain ⟨fuel, hfuel⟩ : ∃ fuel, fuelFor (template style).toList = fuel + 4 := ⟨_, rfl⟩
  have hread : Toml.read? (template style)
      = some (Tree.toEntries (sectionWith (entriesOf style))) := by
    rw [Toml.read?, hmark, hfuel, statements?_template]
    rfl
  rw [Settings.read?, hread]
  rfl

end Init
end WrapLint
