import Mathlib.Tactic.Common
import WrapLint.Toml.Reader

/-!
# Reading a TOML document statement by statement

A document is read in steps.  Before a statement stand empty lines and comments, which change
nothing; a header in single brackets opens a table; an assignment puts a value into the table that
is open.  Each step says what is left of the text and of the fuel, whatever comes behind it.

**Results.**
* `statements?_gapLines`: empty lines and comments.
* `statements?_openTable`, `statements?_assign`, `statements?_nil`: a header, an assignment, and
  the end of the document.
* `value?_basic`: a word between double quotes is read as itself.
-/

namespace WrapLint
namespace Toml

section Gaps

variable {line : List Char}

/-- Lines with no statement: empty ones and comments. -/
def isGapLine : List Char → Bool
  | [] => true
  | c :: text => c == '#' && text.all isPlain

theorem skipGap?_plain (hline : line.all isPlain = true) (rest : List Char) :
    skipGap? true (line ++ '\n' :: rest) = skipGap? false rest := by
  induction line with
  | nil => rw [List.nil_append, skipGap?]
  | cons c line ih =>
      rw [List.all_cons, Bool.and_eq_true] at hline
      rw [List.cons_append, skipGap?, if_pos rfl, if_pos hline.1, ih hline.2]
      · rintro rfl
        cases hline.1
      · rintro _ rfl
        cases hline.1

theorem skipGap?_gapLine (hline : isGapLine line = true) (rest : List Char) :
    skipGap? false (line ++ '\n' :: rest) = skipGap? false rest := by
  cases line with
  | nil => rw [List.nil_append, skipGap?]
  | cons c text =>
      rw [isGapLine, Bool.and_eq_true, beq_iff_eq] at hline
      obtain ⟨rfl, htext⟩ := hline
      exact skipGap?_plain htext rest

theorem statements?_gapLine (fuel : Nat) (header : List String) (root : Entries)
    (hline : isGapLine line = true) (rest : List Char) :
    statements? fuel header root (line ++ '\n' :: rest) = statements? fuel header root rest := by
  cases fuel with
  | zero => rfl
  | succ fuel => rw [statements?, statements?, skipGap?_gapLine hline]

/-- The text of these lines, each with its ending. -/
def textOfLines (lines : List (List Char)) : List Char :=
  lines.flatMap (fun line => line ++ ['\n'])

theorem textOfLines_cons (line : List Char) (lines : List (List Char)) :
    textOfLines (line :: lines) = line ++ '\n' :: textOfLines lines := by
  simp [textOfLines]

theorem textOfLines_eq_intercalate (lines : List (List Char)) :
    textOfLines lines = ['\n'].intercalate (lines ++ [[]]) := by
  induction lines with
  | nil => rfl
  | cons line lines ih =>
      rw [textOfLines_cons, ih]
      cases lines <;> simp [List.intercalate]

theorem statements?_gapLines (fuel : Nat) (header : List String) (root : Entries)
    {lines : List (List Char)} (hlines : lines.all isGapLine = true) (rest : List (List Char)) :
    statements? fuel header root (textOfLines (lines ++ rest))
      = statements? fuel header root (textOfLines rest) := by
  induction lines with
  | nil => rfl
  | cons line lines ih =>
      rw [List.all_cons, Bool.and_eq_true] at hlines
      rw [List.cons_append, textOfLines_cons, statements?_gapLine fuel header root hlines.1,
        ih hlines.2]

end Gaps

section Words

variable {word : List Char}

/-- The characters that stand for themselves in a basic string. -/
def IsOrdinary (c : Char) : Prop :=
  isPlain c = true ∧ c ≠ '"' ∧ c ≠ '\\'

instance (c : Char) : Decidable (IsOrdinary c) :=
  inferInstanceAs (Decidable (isPlain c = true ∧ c ≠ '"' ∧ c ≠ '\\'))

theorem basic?_quote (done rest : List Char) :
    basic? false .no done ('"' :: rest) = some (textOf done, rest) := by
  rw [basic?.eq_def]
  rfl

theorem basic?_ordinary {c : Char} (hc : IsOrdinary c) (done rest : List Char) :
    basic? false .no done (c :: rest) = basic? false .no (c :: done) rest := by
  obtain ⟨hplain, hquote, hbackslash⟩ := hc
  rw [basic?.eq_def]
  -- The text does not end here, and a line ending is not plain.
  split
  · rename_i heq
    cases heq
  · rename_i heq
    cases heq
    cases hplain
  · rename_i heq
    cases heq
    simp [hquote, hbackslash, hplain]

theorem basic?_word (done rest : List Char) (hword : ∀ c ∈ word, IsOrdinary c) :
    basic? false .no done (word ++ '"' :: rest)
      = some (String.ofList (done.reverse ++ word), rest) := by
  induction word generalizing done with
  | nil => rw [List.nil_append, basic?_quote, textOf, List.append_nil]
  | cons c word ih =>
      rw [List.forall_mem_cons] at hword
      rw [List.cons_append, basic?_ordinary hword.1, ih _ hword.2, List.reverse_cons,
        List.append_assoc, List.singleton_append]

/-- A word between double quotes, which must not be empty: two quotes might begin a third one. -/
theorem quoted?_word (hne : word ≠ []) (hword : ∀ c ∈ word, IsOrdinary c) (rest : List Char) :
    quoted? ('"' :: (word ++ '"' :: rest)) = some (String.ofList word, rest) := by
  have hread := basic?_word [] rest hword
  cases word with
  | nil => exact absurd rfl hne
  | cons c word =>
      have hquote : c ≠ '"' := (hword c List.mem_cons_self).2.1
      rw [List.cons_append] at hread ⊢
      rw [quoted?]
      · exact hread
      · rintro _ heq
        exact hquote (List.cons.inj heq).1

theorem value?_basic (fuel depth : Nat) (hne : word ≠ []) (hword : ∀ c ∈ word, IsOrdinary c)
    (rest : List Char) :
    value? (fuel + 1) depth ('"' :: (word ++ '"' :: rest))
      = some (.string (String.ofList word), rest) := by
  rw [value?, quoted?_word hne hword]
  rfl

end Words

section Steps

variable {header path : List String} {key : String} {root next : Entries}
  {text start rest after : List Char}

theorem statements?_nil (fuel : Nat) (header : List String) (root : Entries)
    (hgap : skipGap? false text = some []) :
    statements? (fuel + 1) header root text = some root := by
  rw [statements?, hgap, Option.bind_eq_bind, Option.bind_some]

/-- A header in single brackets. -/
theorem statements?_openTable (fuel : Nat) (header : List String) {c : Char}
    (hgap : skipGap? false text = some ('[' :: c :: start)) (hc : c ≠ '[')
    (hkey : dottedKey? (skipBlanks (c :: start)) = some (path, key, ']' :: rest))
    (hopen : openTable path key root = some next) (hend : endLine? false rest = some after) :
    statements? (fuel + 1) header root text = statements? fuel (path ++ [key]) next after := by
  rw [statements?, hgap, Option.bind_eq_bind, Option.bind_some]
  -- The document does not end here, and a second bracket would be the next character.
  split
  · rename_i heq
    cases heq
  · rename_i heq
    cases heq
    exact absurd rfl hc
  · rename_i heq
    cases heq
    simp [hkey, hopen, hend]
  · rename_i heq
    exact (heq _ rfl).elim

/-- An assignment under a header. -/
theorem statements?_assign (fuel : Nat) {c : Char} {value : Value} {tail : List Char}
    (hgap : skipGap? false text = some (c :: start)) (hc : c ≠ '[')
    (hkey : dottedKey? (c :: start) = some (path, key, '=' :: rest))
    (hvalue : value? fuel nestingLimit (skipBlanks rest) = some (value, tail))
    (hassign : assign header path key value root = some next)
    (hend : endLine? false tail = some after) :
    statements? (fuel + 1) header root text = statements? fuel header next after := by
  rw [statements?, hgap, Option.bind_eq_bind, Option.bind_some]
  -- Neither of the two kinds of header begins here.
  split
  · rename_i heq
    cases heq
  · rename_i heq
    cases heq
    exact absurd rfl hc
  · rename_i heq
    cases heq
    exact absurd rfl hc
  · simp [hkey, hvalue, hassign, hend]

end Steps

end Toml
end WrapLint
