import WrapLint.Proofs.Line.Selector

/-!
# How the styles share out the lines

Which style a line conforms to is decided by the character after its selector, and then by a
closing bracket later on the line.  So the four styles that ask for one form exclude each other,
and the lenient style takes every line that one of the bracket styles takes.

**Results.**
* `countP_conforms_le_one`: a line conforms to at most one of the four.
* `conforms_any_of_conforms`: a line that conforms to a bracket style conforms to `any`.
* `conforms_unwrapped_iff`: bare attributes are those after a space.
* `hasAttributes_of_conforms`: a line that conforms to a style with brackets has attributes.
-/

namespace WrapLint
namespace Style

/-- The styles that ask for one pair of brackets. -/
def bracketed : List Style :=
  [.round, .curly, .square]

/-- The styles that ask for one form. -/
def single : List Style :=
  .unwrapped :: bracketed

end Style

namespace Line

variable {line rest : List Char} {c : Char}

/-- After the selector of a line with attributes stands a space or an opening bracket. -/
theorem exists_afterSelector_of_hasAttributes (h : hasAttributes line = true) :
    ∃ c rest, afterSelector line = some (c :: rest) ∧ (c = ' ' ∨ isOpening c = true) := by
  obtain ⟨c, rest, hscan, ⟨hspace, -⟩ | ⟨hopen, -⟩⟩ := (hasAttributes_iff line).1 h
  · exact ⟨c, rest, hscan, Or.inl hspace⟩
  · exact ⟨c, rest, hscan, Or.inr hopen⟩

/-- What follows the selector is part of the line. -/
theorem lineFeed_not_mem_afterSelector (hline : '\n' ∉ line)
    (h : afterSelector line = some rest) : '\n' ∉ rest := by
  obtain ⟨blanks, selector, hsplit⟩ := exists_split_of_afterSelector h
  intro hmem
  rw [hsplit.text] at hline
  exact hline (List.mem_append_right _ hmem)

/-- At most one of the four styles opens with this character. -/
theorem countP_opens_le_one (c : Char) : Style.single.countP (fun style => opens style c) ≤ 1 := by
  by_cases hmem : c = ' ' ∨ c = '(' ∨ c = '{' ∨ c = '['
  · rcases hmem with rfl | rfl | rfl | rfl <;> decide
  · simp only [not_or] at hmem
    obtain ⟨hspace, hround, hcurly, hsquare⟩ := hmem
    simp [Style.single, Style.bracketed, opens, hspace, hround, hcurly, hsquare]

/-- A line conforms to at most one of the four styles that ask for one form. -/
theorem countP_conforms_le_one (line : List Char) :
    Style.single.countP (fun style => conforms style line) ≤ 1 := by
  by_cases hscan : ∃ c rest, afterSelector line = some (c :: rest)
  · obtain ⟨c, rest, hscan⟩ := hscan
    refine le_trans (List.countP_mono_left fun style _ h => ?_) (countP_opens_le_one c)
    obtain ⟨d, text, hd, hopen, -⟩ := (conforms_iff style line).1 h
    rw [hscan, Option.some.injEq, List.cons.injEq] at hd
    rwa [hd.1]
  · have hnone : ∀ style ∈ Style.single, ¬ conforms style line = true := by
      intro style _ h
      obtain ⟨c, rest, hc, -⟩ := (conforms_iff style line).1 h
      exact hscan ⟨c, rest, hc⟩
    rw [List.countP_eq_zero.2 hnone]
    exact Nat.zero_le 1

/-- The lenient style takes every line that a bracket style takes. -/
theorem conforms_any_of_conforms {style : Style} (hstyle : style ∈ Style.bracketed)
    (h : conforms style line = true) : conforms .any line = true := by
  obtain ⟨c, rest, hscan, hopen, hfeed, hclose⟩ := (conforms_iff style line).1 h
  refine (conforms_iff .any line).2 ⟨c, rest, hscan, ?_, hfeed, ?_⟩
  · cases style <;> simp_all [Style.bracketed, opens, isOpening]
  · have hclosing : ∀ d, d ∈ rest → isClosing d = true → closes .any rest = true :=
      fun d hd hisClosing => List.any_eq_true.2 ⟨d, hd, hisClosing⟩
    cases style with
    | round => exact hclosing ')' (List.contains_iff_mem.1 hclose) (by decide)
    | curly => exact hclosing '}' (List.contains_iff_mem.1 hclose) (by decide)
    | square => exact hclosing ']' (List.contains_iff_mem.1 hclose) (by decide)
    | unwrapped | any => simp [Style.bracketed] at hstyle

/-- On one line, bare attributes are those after a space. -/
theorem conforms_unwrapped_iff (hline : '\n' ∉ line) :
    conforms .unwrapped line = true ↔ ∃ rest, afterSelector line = some (' ' :: rest) := by
  rw [conforms_iff]
  constructor
  · rintro ⟨c, rest, hscan, hopen, -⟩
    rw [eq_of_beq hopen] at hscan
    exact ⟨rest, hscan⟩
  · rintro ⟨rest, hscan⟩
    have hfeed := lineFeed_not_mem_afterSelector hline hscan
    exact ⟨' ', rest, hscan, rfl, fun hmem => hfeed (List.mem_cons_of_mem _ hmem), rfl⟩

/-- A line with a space after its selector conforms to no style with brackets. -/
theorem conforms_eq_false_of_space {style : Style} (hstyle : style ∈ .any :: Style.bracketed)
    (h : afterSelector line = some (' ' :: rest)) : conforms style line = false := by
  rw [← Bool.not_eq_true, conforms_iff]
  rintro ⟨c, text, hscan, hopen, -⟩
  rw [h, Option.some.injEq, List.cons.injEq] at hscan
  rw [← hscan.1] at hopen
  have hall : ∀ style ∈ Style.any :: Style.bracketed, ¬ opens style ' ' = true := by decide
  exact hall style hstyle hopen

/-- Attributes that are closed hold at least the closing bracket. -/
theorem hasAttributes_of_conforms {style : Style} (hstyle : style ∈ .any :: Style.bracketed)
    (h : conforms style line = true) : hasAttributes line = true := by
  obtain ⟨c, rest, hscan, hopen, hfeed, hclose⟩ := (conforms_iff style line).1 h
  have hbracket : isOpening c = true := by
    cases style <;> simp_all [Style.bracketed, opens, isOpening]
  have hmore : (untilLineFeed rest).isEmpty = false := by
    cases rest with
    | nil =>
        have hall : ∀ style ∈ Style.any :: Style.bracketed, ¬ closes style [] = true := by
          decide
        exact absurd hclose (hall style hstyle)
    | cons d rest =>
        have hd : d ≠ '\n' := fun heq => hfeed (by simp [heq])
        exact (untilLineFeed_ne_nil_iff _).2 ⟨d, rest, rfl, hd⟩
  exact (hasAttributes_iff line).2 ⟨c, rest, hscan, Or.inr ⟨hbracket, hmore⟩⟩

end Line
end WrapLint
