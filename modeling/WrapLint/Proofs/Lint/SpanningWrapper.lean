import WrapLint.Proofs.Lint.StylePartition

/-!
# Wrappers over several lines

A wrapper may be opened on one line and closed on a later one.  The check looks at each line
alone, so it does not see the closing bracket.  It takes the opening line for a line with
attributes as soon as anything follows the bracket, and then misses the closing bracket there.

**Results.**
* `violates_iff_of_open`: a line that leaves its bracket open breaks the style iff something
  follows the bracket and the line is no document type declaration.
* `spanning_wrapper_reported`: a wrapper that is closed on a later line may be reported.
* `reports_eq_false_iff_of_spanning`: the opening line is left alone iff nothing follows the
  bracket, or the line is a document type declaration or exempt.
-/

namespace WrapLint

open Template (Document Node)

namespace Line

variable {style : Style} {line rest : List Char} {opening closing : Char}

theorem isOpening_of_brackets (h : style.brackets = some (opening, closing)) :
    isOpening opening = true := by
  cases style <;> cases h <;> rfl

/-- A style with one pair of brackets asks for its closing bracket. -/
theorem closes_iff_of_brackets (h : style.brackets = some (opening, closing))
    (text : List Char) : closes style text = true ↔ closing ∈ text := by
  cases style <;> cases h <;> exact List.contains_iff_mem

/-- A line that leaves its bracket open breaks the style iff something follows the bracket and
the line is no document type declaration. -/
theorem violates_iff_of_open (hbrackets : style.brackets = some (opening, closing))
    (hline : '\n' ∉ line) (hscan : afterSelector line = some (opening :: rest))
    (hopen : closing ∉ rest) :
    violates style line = true ↔ rest ≠ [] ∧ isDoctype line = false := by
  have hbracket := isOpening_of_brackets hbrackets
  have hfeed := lineFeed_not_mem_afterSelector hline hscan
  have hattributes : hasAttributes line = true ↔ rest ≠ [] := by
    rw [hasAttributes_iff]
    constructor
    · rintro ⟨c, text, hc, ⟨rfl, -⟩ | ⟨-, hmore⟩⟩
      · rw [hscan, Option.some.injEq, List.cons.injEq] at hc
        rw [hc.1] at hbracket
        cases hbracket
      · rw [hscan, Option.some.injEq, List.cons.injEq] at hc
        obtain ⟨value, after, htext, -⟩ := (untilLineFeed_ne_nil_iff text).1 hmore
        rw [hc.2, htext]
        exact List.cons_ne_nil value after
    · intro hne
      obtain ⟨value, after, rfl⟩ := List.exists_cons_of_ne_nil hne
      have hvalue : value ≠ '\n' := fun heq => hfeed (by simp [heq])
      exact ⟨opening, value :: after, hscan,
        Or.inr ⟨hbracket, (untilLineFeed_ne_nil_iff _).2 ⟨value, after, rfl, hvalue⟩⟩⟩
  have hconforms : conforms style line = false := by
    rw [← Bool.not_eq_true, conforms_iff]
    rintro ⟨c, text, hc, -, -, hclose⟩
    rw [hscan, Option.some.injEq, List.cons.injEq] at hc
    rw [closes_iff_of_brackets hbrackets, ← hc.2] at hclose
    exact hopen hclose
  simp [violates, hattributes, hconforms]

end Line

namespace AttributesWrapper

/-- A wrapper of the style is opened on line `n`, in this text and with `rest` behind the
bracket, is not closed there, and a closing bracket stands on some later line. -/
def SpansFrom (style : Style) (document : Document) (n : Nat) (text : String)
    (rest : List Char) : Prop :=
  ∃ opening closing blanks selector, style.brackets = some (opening, closing) ∧
    document.line? n = some text ∧ Line.Split text.toList blanks selector (opening :: rest) ∧
    closing ∉ rest ∧
    ∃ m later, n < m ∧ document.line? m = some later ∧ closing ∈ later.toList

/-- A wrapper that is opened on one line and closed on a later one may be reported. -/
theorem spanning_wrapper_reported :
    ¬ ∀ style ∈ Style.bracketed, ∀ source root n text rest,
      SpansFrom style (.ofSource source root) n text rest →
        reports style (.ofSource source root) n = false := by
  intro h
  have hreported : reports .round (.ofSource "div(a=1\n  b=2)\n" (.other ⟨1, none⟩ [])) 1 = false :=
    h .round (by decide) _ _ 1 "div(a=1" "a=1".toList
      ⟨'(', ')', [], "div".toList, rfl, by decide,
        ⟨rfl, List.all_eq_true.1 rfl, by decide, List.all_eq_true.1 rfl⟩, by decide, 2, "  b=2)",
        by decide, by decide, by decide⟩
  exact absurd hreported (by decide)

/-- The opening line of a wrapper over several lines is left alone iff nothing follows the
bracket, or the line is a document type declaration, or it is exempt. -/
theorem reports_eq_false_iff_of_spanning {style : Style} {source : String} {root : Node} {n : Nat}
    {text : String} {rest : List Char}
    (h : SpansFrom style (.ofSource source root) n text rest) :
    reports style (.ofSource source root) n = false ↔
      rest = [] ∨ Line.isDoctype text.toList = true ∨
        (Document.ofSource source root).Exempt n := by
  obtain ⟨opening, closing, blanks, selector, hbrackets, hline, hsplit, hopen, -⟩ := h
  have hscan : Line.afterSelector text.toList = some (opening :: rest) :=
    Line.afterSelector_eq_some_iff.2
      ⟨Line.isSelectorChar_of_isOpening (Line.isOpening_of_brackets hbrackets),
        blanks, selector, hsplit⟩
  have hviolates := Line.violates_iff_of_open hbrackets
    (Document.lineFeed_not_mem_of_line? hline) hscan hopen
  rw [← Bool.not_eq_true, reports_eq_true_iff, Reported]
  simp only [hline, Option.mem_def, Option.some.injEq, exists_eq_left', hviolates]
  rw [not_and_or, not_and_or, not_not, not_not, Bool.not_eq_false, or_assoc]

/-- The opening line holds an attribute that is more than shorthand, and is reported; with only
shorthand on it, it is not. -/
theorem reports_eq_false_iff_of_spanning_square :
    (∀ root, SpansFrom .square (.ofSource "ul\n  li.a[data-x=(1)\n  ]\n" root) 2
        "  li.a[data-x=(1)" "data-x=(1)".toList) ∧
      reports .square (.ofSource "ul\n  li.a[data-x=(1)\n  ]\n"
        (.element "li" ⟨2, some 3⟩ ⟨⟨2, none⟩, [⟨"class", .static "a", ⟨2, none⟩⟩,
          ⟨"data-x", .expression "(1)", ⟨2, some 8⟩⟩]⟩ [])) 2 = true ∧
      reports .square (.ofSource "ul\n  li.a[data-x=(1)\n  ]\n"
        (.element "li" ⟨2, some 3⟩ ⟨⟨2, none⟩, [⟨"class", .static "a", ⟨2, none⟩⟩]⟩ [])) 2
          = false := by
  have hspans : ∀ root, SpansFrom .square (.ofSource "ul\n  li.a[data-x=(1)\n  ]\n" root) 2
      "  li.a[data-x=(1)" "data-x=(1)".toList := fun root =>
    ⟨'[', ']', "  ".toList, "li.a".toList, rfl, rfl,
      ⟨rfl, List.all_eq_true.1 rfl, by decide, List.all_eq_true.1 rfl⟩, by decide, 3, "  ]",
      by decide, rfl, by decide⟩
  refine ⟨hspans, ?_, ?_⟩
  · rw [← Bool.not_eq_false, reports_eq_false_iff_of_spanning (hspans _)]
    decide
  · rw [reports_eq_false_iff_of_spanning (hspans _)]
    decide

end AttributesWrapper
end WrapLint
