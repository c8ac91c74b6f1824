import Mathlib.Data.List.TakeWhile
import Mathlib.Tactic.Common
import WrapLint.Line

/-!
# The one place where a selector ends

A line is read as blanks, a selector and the rest.  Many splits of a line have this form: a
shorter run of blanks will not do, but a selector may be cut short anywhere.  What follows a
selector in the interesting lines is a space or a bracket, and no selector character is one of
these.  So there is only one split that matters, the one found by `afterSelector`.

**Results.**
* `afterSelector_of_split`: from any split, the scan of the line skips what is left of the
  selector and nothing else.
* `afterSelector_eq_some_iff`: the scan finds `rest` iff some split has this rest and the
  selector cannot be continued.
* `hasAssignment_iff`: an assignment, as a split of the text after the space.
* `hasAttributes_iff`, `conforms_iff`: what the matchers ask of the rest.
-/

namespace WrapLint
namespace Line

section Characters

theorem isBlank_iff (c : Char) :
    isBlank c = true ↔ c.toNat = 32 ∨ 9 ≤ c.toNat ∧ c.toNat ≤ 13 := by
  simp only [isBlank, Bool.or_eq_true, Bool.and_eq_true, beq_iff_eq, decide_eq_true_eq,
    Char.le_def, UInt32.le_iff_toNat_le, Char.ext_iff, ← UInt32.toNat_inj]
  rfl

theorem isWordChar_iff (c : Char) :
    isWordChar c = true ↔
      65 ≤ c.toNat ∧ c.toNat ≤ 90 ∨ 97 ≤ c.toNat ∧ c.toNat ≤ 122 ∨
        48 ≤ c.toNat ∧ c.toNat ≤ 57 ∨ c.toNat = 95 := by
  have hranges : isWordChar c
      = (decide (c.val ≥ 'A'.val ∧ c.val ≤ 'Z'.val) || (c.val ≥ 'a'.val && c.val ≤ 'z'.val)
        || (c.val ≥ '0'.val && c.val ≤ '9'.val) || c == '_') :=
    rfl
  rw [hranges]
  simp only [Bool.or_eq_true, Bool.and_eq_true, beq_iff_eq, decide_eq_true_eq, ge_iff_le,
    UInt32.le_iff_toNat_le, Char.ext_iff, ← UInt32.toNat_inj, or_assoc]
  rfl

theorem isSelectorStart_iff (c : Char) :
    isSelectorStart c = true ↔
      isWordChar c = true ∨ c.toNat = 46 ∨ c.toNat = 35 := by
  simp only [isSelectorStart, isWordChar, Bool.or_eq_true, beq_iff_eq, Char.ext_iff,
    ← UInt32.toNat_inj, or_assoc]
  rfl

theorem isSelectorChar_iff (c : Char) :
    isSelectorChar c = true ↔ isSelectorStart c = true ∨ c.toNat = 45 := by
  simp only [isSelectorChar, Bool.or_eq_true, beq_iff_eq, Char.ext_iff, ← UInt32.toNat_inj]
  rfl

/-- A selector does not begin with a blank. -/
theorem isBlank_of_isSelectorStart {c : Char}
    (h : isSelectorStart c = true) : isBlank c = false := by
  rw [isSelectorStart_iff, isWordChar_iff] at h
  rw [← Bool.not_eq_true, isBlank_iff]
  omega

/-- A space does not continue a selector. -/
theorem isSelectorChar_space : isSelectorChar ' ' = false := by
  decide

/-- An opening bracket does not continue a selector. -/
theorem isSelectorChar_of_isOpening {c : Char}
    (h : isOpening c = true) : isSelectorChar c = false := by
  simp only [isOpening, Bool.or_eq_true, beq_iff_eq] at h
  rcases h with (rfl | rfl) | rfl <;> decide

/-- No style opens with a character that could continue a selector. -/
theorem isSelectorChar_of_opens {style : Style} {c : Char}
    (h : opens style c = true) : isSelectorChar c = false := by
  cases style with
  | unwrapped =>
      rw [eq_of_beq h]
      exact isSelectorChar_space
  | any =>
      exact isSelectorChar_of_isOpening h
  | round | curly | square =>
      rw [eq_of_beq h]
      decide

end Characters

/-- A nonempty run of selector characters with a character in front that may begin one. -/
def IsSelector : List Char → Prop
  | [] => False
  | c :: cs => isSelectorStart c = true ∧ ∀ d ∈ cs, isSelectorChar d = true

/-- One way to read a line as blanks, a selector and the rest. -/
structure Split (line blanks selector rest : List Char) : Prop where
  text : line = blanks ++ selector ++ rest
  blank : ∀ c ∈ blanks, isBlank c = true
  isSelector : IsSelector selector

section Scan

variable {line blanks selector rest : List Char}

/-- Blanks in front of a text that begins with none are all skipped. -/
theorem dropWhile_isBlank_append {text : List Char} {c : Char}
    (hblank : ∀ d ∈ blanks, isBlank d = true) (hc : isBlank c = false) :
    (blanks ++ c :: text).dropWhile isBlank = c :: text := by
  rw [List.dropWhile_append_of_pos hblank, List.dropWhile_cons_of_neg (by simp [hc])]

/-- From any split, the scan skips what is left of the selector and nothing else. -/
theorem afterSelector_of_split (h : Split line blanks selector rest) :
    afterSelector line = some (rest.dropWhile isSelectorChar) := by
  obtain ⟨rfl, hblank, hsel⟩ := h
  cases selector with
  | nil => exact hsel.elim
  | cons c cs =>
      obtain ⟨hstart, hcs⟩ := hsel
      have hskip : (blanks ++ c :: cs ++ rest).dropWhile isBlank = c :: (cs ++ rest) := by
        rw [List.append_assoc]
        exact dropWhile_isBlank_append hblank (isBlank_of_isSelectorStart hstart)
      have htake : (cs ++ rest).dropWhile isSelectorChar = rest.dropWhile isSelectorChar :=
        List.dropWhile_append_of_pos hcs
      simp only [afterSelector, hskip, hstart, if_true, htake]

/-- What the scan finds is the rest of a split. -/
theorem exists_split_of_afterSelector (h : afterSelector line = some rest) :
    ∃ blanks selector, Split line blanks selector rest := by
  unfold afterSelector at h
  split at h
  · cases h
  · rename_i c text hdrop
    split_ifs at h with hstart
    obtain rfl := Option.some.inj h
    refine ⟨line.takeWhile isBlank, c :: text.takeWhile isSelectorChar, ?_, ?_, hstart, ?_⟩
    · rw [List.append_assoc, List.cons_append, List.takeWhile_append_dropWhile, ← hdrop,
        List.takeWhile_append_dropWhile]
    · exact fun d hd => List.mem_takeWhile_imp hd
    · exact fun d hd => List.mem_takeWhile_imp hd

/-- The scan stops where the selector cannot be continued. -/
theorem isSelectorChar_of_afterSelector {c : Char}
    (h : afterSelector line = some (c :: rest)) : isSelectorChar c = false := by
  obtain ⟨blanks, selector, hsplit⟩ := exists_split_of_afterSelector h
  have hdrop : (c :: rest).dropWhile isSelectorChar = c :: rest := by
    have := afterSelector_of_split hsplit
    rw [h] at this
    exact (Option.some.inj this).symm
  by_contra hc
  rw [Bool.not_eq_false] at hc
  have hlen := (List.dropWhile_sublist (l := rest) isSelectorChar).length_le
  rw [List.dropWhile_cons_of_pos hc] at hdrop
  rw [hdrop, List.length_cons] at hlen
  omega

/-- The scan finds a rest iff some split has it and the selector cannot be continued there. -/
theorem afterSelector_eq_some_iff {c : Char} :
    afterSelector line = some (c :: rest) ↔
      isSelectorChar c = false ∧ ∃ blanks selector, Split line blanks selector (c :: rest) := by
  constructor
  · intro h
    exact ⟨isSelectorChar_of_afterSelector h, exists_split_of_afterSelector h⟩
  · rintro ⟨hc, blanks, selector, hsplit⟩
    rw [afterSelector_of_split hsplit, List.dropWhile_cons_of_neg (by simp [hc])]

end Scan

section Assignment

/-- The characters before the first line feed, as a split. -/
theorem untilLineFeed_append {text : List Char} (h : '\n' ∉ text) (after : List Char) :
    untilLineFeed (text ++ after) = text ++ untilLineFeed after := by
  refine List.takeWhile_append_of_pos fun c hc => ?_
  simp only [bne_iff_ne, ne_eq]
  rintro rfl
  exact h hc

theorem not_mem_untilLineFeed (text : List Char) : '\n' ∉ untilLineFeed text := by
  intro h
  have := List.mem_takeWhile_imp h
  simp at this

theorem exists_append_untilLineFeed (text : List Char) :
    ∃ after, text = untilLineFeed text ++ after :=
  ⟨_, (List.takeWhile_append_dropWhile (p := fun c => c != '\n')).symm⟩

/-- What a list has before its last element, as a split with one more element after it. -/
theorem mem_dropLast_iff {c : Char} {text : List Char} :
    c ∈ text.dropLast ↔ ∃ before value after, text = before ++ c :: value :: after := by
  constructor
  · intro h
    have hne : text ≠ [] := by
      rintro rfl
      simp at h
    obtain ⟨before, middle, hbefore⟩ := List.append_of_mem h
    obtain ⟨value, after, hvalue⟩ :=
      List.exists_cons_of_ne_nil (List.concat_ne_nil (text.getLast hne) middle)
    refine ⟨before, value, after, ?_⟩
    rw [← hvalue, ← List.cons_append, ← List.append_assoc, ← hbefore,
      List.dropLast_concat_getLast]
  · rintro ⟨before, value, after, rfl⟩
    rw [List.dropLast_append_of_ne_nil (by simp), List.dropLast_cons_of_ne_nil (by simp)]
    simp

/-- An assignment is an equals sign on the first line with one more character of that line
after it. -/
theorem hasAssignment_iff (text : List Char) :
    hasAssignment text = true ↔
      ∃ before value after, text = before ++ '=' :: value :: after ∧
        '\n' ∉ before ∧ value ≠ '\n' := by
  unfold hasAssignment
  rw [List.contains_iff_mem, mem_dropLast_iff]
  constructor
  · rintro ⟨before, value, rest, hline⟩
    obtain ⟨after, hafter⟩ := exists_append_untilLineFeed text
    have hfeed := not_mem_untilLineFeed text
    rw [hline] at hfeed hafter
    simp only [List.mem_append, List.mem_cons, not_or] at hfeed
    refine ⟨before, value, rest ++ after, ?_, hfeed.1, Ne.symm hfeed.2.2.1⟩
    rw [hafter]
    simp
  · rintro ⟨before, value, after, rfl, hbefore, hvalue⟩
    refine ⟨before, value, untilLineFeed after, ?_⟩
    have hfeed : '\n' ∉ before ++ ['=', value] := by
      simp [hbefore, Ne.symm hvalue]
    have huntil := untilLineFeed_append hfeed
    simpa using huntil after

end Assignment

section Matchers

theorem untilLineFeed_ne_nil_iff (text : List Char) :
    (untilLineFeed text).isEmpty = false ↔
      ∃ value after, text = value :: after ∧ value ≠ '\n' := by
  cases text with
  | nil => simp [untilLineFeed]
  | cons c text =>
      by_cases hc : c = '\n'
      · simp [untilLineFeed, hc]
      · simp [untilLineFeed, hc]

/-- A line has attributes by what stands after its selector. -/
theorem hasAttributes_iff (line : List Char) :
    hasAttributes line = true ↔
      ∃ c rest, afterSelector line = some (c :: rest) ∧
        (c = ' ' ∧ hasAssignment rest = true ∨
          isOpening c = true ∧ (untilLineFeed rest).isEmpty = false) := by
  unfold hasAttributes
  split
  · rename_i c rest hscan
    simp only [Bool.or_eq_true, Bool.and_eq_true, beq_iff_eq, Bool.not_eq_true']
    constructor
    · intro h
      exact ⟨c, rest, hscan, h⟩
    · rintro ⟨d, text, hd, h⟩
      rw [hscan, Option.some.injEq, List.cons.injEq] at hd
      obtain ⟨rfl, rfl⟩ := hd
      exact h
  · rename_i hnone
    constructor
    · intro h
      cases h
    · rintro ⟨c, rest, hscan, -⟩
      exact absurd hscan (hnone c rest)

/-- A line conforms to a style by what stands after its selector. -/
theorem conforms_iff (style : Style) (line : List Char) :
    conforms style line = true ↔
      ∃ c rest, afterSelector line = some (c :: rest) ∧ opens style c = true ∧
        '\n' ∉ rest ∧ closes style rest = true := by
  unfold conforms
  split
  · rename_i c rest hscan
    simp only [Bool.and_eq_true, Bool.not_eq_true', ← Bool.not_eq_true, List.contains_iff_mem]
    constructor
    · rintro ⟨⟨hopen, hfeed⟩, hclose⟩
      exact ⟨c, rest, hscan, hopen, hfeed, hclose⟩
    · rintro ⟨d, text, hd, hopen, hfeed, hclose⟩
      rw [hscan, Option.some.injEq, List.cons.injEq] at hd
      obtain ⟨rfl, rfl⟩ := hd
      exact ⟨⟨hopen, hfeed⟩, hclose⟩
  · rename_i hnone
    constructor
    · intro h
      cases h
    · rintro ⟨c, rest, hscan, -⟩
      exact absurd hscan (hnone c rest)

end Matchers

end Line
end WrapLint
