import WrapLint.Proofs.Line.Selector

/-!
# Indentation and trailing text

The matchers skip the blanks a line begins with, so one blank more or less changes no answer; that
the blanks hold the line feed and the space does not matter, since none of them begins a selector.
At the other end, text that is put behind a line comes after the character that ended the selector.
It can neither lengthen the selector nor move it, and what was found there stays where it was.

**Results.**
* `afterSelector_append_of_blank`, `afterSelector_append`: the scan of a longer line.
* `hasAttributes_append`, `conforms_append`: what a line has, a longer line has.
* `matchers_of_longer_line`: indentation and trailing text, for all matchers.
-/

namespace WrapLint
namespace Line

variable {line blanks rest tail : List Char} {c : Char}

section Indentation

/-- Blanks in front of a line are skipped with those it begins with. -/
theorem afterSelector_append_of_blank (h : ∀ d ∈ blanks, isBlank d = true) :
    afterSelector (blanks ++ line) = afterSelector line := by
  rw [afterSelector, afterSelector, List.dropWhile_append_of_pos h]

theorem hasAttributes_append_of_blank (h : ∀ d ∈ blanks, isBlank d = true) :
    hasAttributes (blanks ++ line) = hasAttributes line := by
  rw [hasAttributes, hasAttributes, afterSelector_append_of_blank h]

theorem isDoctype_append_of_blank (h : ∀ d ∈ blanks, isBlank d = true) :
    isDoctype (blanks ++ line) = isDoctype line := by
  rw [isDoctype, isDoctype, List.dropWhile_append_of_pos h]

theorem conforms_append_of_blank (style : Style) (h : ∀ d ∈ blanks, isBlank d = true) :
    conforms style (blanks ++ line) = conforms style line := by
  rw [conforms, conforms, afterSelector_append_of_blank h]

theorem violates_append_of_blank (style : Style) (h : ∀ d ∈ blanks, isBlank d = true) :
    violates style (blanks ++ line) = violates style line := by
  rw [violates, violates, hasAttributes_append_of_blank h, isDoctype_append_of_blank h,
    conforms_append_of_blank style h]

end Indentation

section TrailingText

/-- Where a character ended the selector, it still does with more text at the end of the line. -/
theorem afterSelector_append (h : afterSelector line = some (c :: rest)) (tail : List Char) :
    afterSelector (line ++ tail) = some (c :: (rest ++ tail)) := by
  obtain ⟨hc, blanks, selector, hsplit⟩ := afterSelector_eq_some_iff.1 h
  refine afterSelector_eq_some_iff.2 ⟨hc, blanks, selector, ?_, hsplit.blank, hsplit.isSelector⟩
  rw [hsplit.text, List.append_assoc, List.cons_append]

theorem hasAssignment_append (h : hasAssignment rest = true) (tail : List Char) :
    hasAssignment (rest ++ tail) = true := by
  obtain ⟨before, value, after, rfl, hbefore, hvalue⟩ := (hasAssignment_iff rest).1 h
  refine (hasAssignment_iff _).2 ⟨before, value, after ++ tail, ?_, hbefore, hvalue⟩
  rw [List.append_assoc, List.cons_append, List.cons_append]

theorem isEmpty_untilLineFeed_append (h : (untilLineFeed rest).isEmpty = false)
    (tail : List Char) : (untilLineFeed (rest ++ tail)).isEmpty = false := by
  obtain ⟨value, after, rfl, hvalue⟩ := (untilLineFeed_ne_nil_iff rest).1 h
  exact (untilLineFeed_ne_nil_iff _).2 ⟨value, after ++ tail, List.cons_append, hvalue⟩

theorem closes_append {style : Style} (h : closes style rest = true) (tail : List Char) :
    closes style (rest ++ tail) = true := by
  cases style with
  | unwrapped => rfl
  | round | curly | square =>
      rw [closes, List.contains_iff_mem] at h ⊢
      exact List.mem_append_left tail h
  | any =>
      rw [closes] at h ⊢
      rw [List.any_append, h, Bool.true_or]

/-- Attributes are not lost when text of any kind is put behind the line. -/
theorem hasAttributes_append (h : hasAttributes line = true) (tail : List Char) :
    hasAttributes (line ++ tail) = true := by
  obtain ⟨c, rest, hscan, hfound⟩ := (hasAttributes_iff line).1 h
  refine (hasAttributes_iff _).2 ⟨c, rest ++ tail, afterSelector_append hscan tail, ?_⟩
  rcases hfound with ⟨hspace, hassign⟩ | ⟨hopen, hmore⟩
  · exact Or.inl ⟨hspace, hasAssignment_append hassign tail⟩
  · exact Or.inr ⟨hopen, isEmpty_untilLineFeed_append hmore tail⟩

/-- A line still conforms with more text behind it, as long as it stays one line. -/
theorem conforms_append {style : Style} (h : conforms style line = true) (htail : '\n' ∉ tail) :
    conforms style (line ++ tail) = true := by
  obtain ⟨c, rest, hscan, hopen, hfeed, hclose⟩ := (conforms_iff style line).1 h
  have hone : '\n' ∉ rest ++ tail := by
    rw [List.mem_append]
    exact not_or.2 ⟨hfeed, htail⟩
  exact (conforms_iff style _).2
    ⟨c, rest ++ tail, afterSelector_append hscan tail, hopen, hone, closes_append hclose tail⟩

end TrailingText

/-- What the matchers say of a line they say of it behind more indentation.  Text at its end takes
no attributes away, and on the same line it makes no line violate that conformed. -/
theorem matchers_of_longer_line (style : Style) (line : List Char) :
    (∀ blanks, (∀ c ∈ blanks, isBlank c = true) →
        hasAttributes (blanks ++ line) = hasAttributes line ∧
          isDoctype (blanks ++ line) = isDoctype line ∧
          conforms style (blanks ++ line) = conforms style line ∧
          violates style (blanks ++ line) = violates style line) ∧
      (∀ tail, hasAttributes line = true → hasAttributes (line ++ tail) = true) ∧
      ∀ tail, '\n' ∉ tail → conforms style line = true →
        conforms style (line ++ tail) = true ∧ violates style (line ++ tail) = false := by
  refine ⟨fun blanks hblank => ?_, fun tail h => hasAttributes_append h tail, ?_⟩
  · exact ⟨hasAttributes_append_of_blank hblank, isDoctype_append_of_blank hblank,
      conforms_append_of_blank style hblank, violates_append_of_blank style hblank⟩
  · intro tail htail h
    have hconforms := conforms_append h htail
    refine ⟨hconforms, ?_⟩
    rw [violates, hconforms, Bool.not_true, Bool.and_false]

/-- A line in square brackets with a line feed in its indentation, and with text at its end that
would open another wrapper. -/
theorem matchers_of_longer_line_square :
    (∀ c ∈ " \n\t".toList, isBlank c = true) ∧ '\n' ∉ " (b=2".toList ∧
      hasAttributes "li[a=1]".toList = true ∧ conforms .square "li[a=1]".toList = true ∧
      hasAttributes (" \n\t".toList ++ "li[a=1]".toList) = hasAttributes "li[a=1]".toList ∧
      violates .round (" \n\t".toList ++ "li[a=1]".toList) = violates .round "li[a=1]".toList ∧
      hasAttributes ("li[a=1]".toList ++ "\n=".toList) = true ∧
      violates .square ("li[a=1]".toList ++ " (b=2".toList) = false := by
  have hblank : ∀ c ∈ " \n\t".toList, isBlank c = true := List.all_eq_true.1 rfl
  have htail : '\n' ∉ " (b=2".toList := by decide
  have hattributes : hasAttributes "li[a=1]".toList = true := by decide
  have hconforms : conforms .square "li[a=1]".toList = true := by decide
  obtain ⟨hindent, hmore, hline⟩ := matchers_of_longer_line .square "li[a=1]".toList
  obtain ⟨-, -, -, hviolates⟩ := (matchers_of_longer_line .round "li[a=1]".toList).1 _ hblank
  exact ⟨hblank, htail, hattributes, hconforms, (hindent _ hblank).1, hviolates,
    hmore _ hattributes, (hline _ htail hconforms).2⟩

end Line
end WrapLint
