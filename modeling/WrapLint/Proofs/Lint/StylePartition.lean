import WrapLint.Proofs.Line.Styles
import WrapLint.Proofs.Lint.Reference

/-!
# One document under all styles

The check is run on one document under each of the five styles.  Which lines are exempt has
nothing to do with the style, so on a line that is not exempt the runs differ only in the
conformance of its text.

**Results.**
* `reports_iff`: a style reports a line with attributes, no document type declaration and not
  exempt, iff the line does not conform to it.
* `styles_share_out_lines`: how the five runs on a document are related.
-/

namespace WrapLint

open Template (Document Node)

namespace AttributesWrapper

/-- Whether the check reports this line. -/
def reports (style : Style) (document : Document) (n : Nat) : Bool :=
  ((run style document).map Lint.line).contains n

section Reports

variable {style : Style} {document : Document} {n : Nat} {text : String}

theorem reports_eq_true_iff : reports style document n = true ↔ Reported style document n := by
  rw [reports, List.contains_iff_mem, mem_map_line_run_iff]

/-- A line that may be reported is reported iff it does not conform to the style. -/
theorem reports_iff (hline : document.line? n = some text) (hexempt : ¬ document.Exempt n)
    (hattributes : Line.hasAttributes text.toList = true)
    (hdoctype : Line.isDoctype text.toList = false) :
    reports style document n = !Line.conforms style text.toList := by
  rw [Bool.eq_iff_iff, reports_eq_true_iff, Reported]
  simp [hline, hexempt, Line.violates, hattributes, hdoctype]

theorem reports_eq_false_of_exempt (h : document.Exempt n) : reports style document n = false := by
  rw [← Bool.not_eq_true, reports_eq_true_iff]
  exact fun hreported => hreported.2 h

theorem reports_eq_false_of_not_violates (hline : document.line? n = some text)
    (h : Line.violates style text.toList = false) : reports style document n = false := by
  rw [← Bool.not_eq_true, reports_eq_true_iff]
  rintro ⟨⟨other, hother, hviolates⟩, -⟩
  rw [Option.mem_def, hline, Option.some.injEq] at hother
  rw [← hother, h] at hviolates
  cases hviolates

end Reports

/-- How the styles share out a line: `reported` are the styles under which it is reported. -/
structure SharedOut (text : List Char) (reported : Style → Bool) : Prop where
  conforms_to_one : Style.single.countP (fun style => Line.conforms style text) ≤ 1
  three_of_four : 3 ≤ Style.single.countP reported
  each_if_any : reported .any = true → ∀ style ∈ Style.bracketed, reported style = true
  unwrapped_iff : reported .unwrapped = true ↔
    ∃ c rest, Line.afterSelector text = some (c :: rest) ∧ Line.isOpening c = true
  all_if_space : ∀ rest, Line.afterSelector text = some (' ' :: rest) →
    ∀ style ∈ .any :: Style.bracketed, reported style = true

/-- A line of text with attributes is shared out in this way by the styles it breaks. -/
theorem sharedOut_not_conforms {text : List Char} (hline : '\n' ∉ text)
    (hattributes : Line.hasAttributes text = true) :
    SharedOut text (fun style => !Line.conforms style text) where
  conforms_to_one := Line.countP_conforms_le_one text
  three_of_four := by
    have hlength : Style.single.length
        = Style.single.countP (fun style => Line.conforms style text)
          + Style.single.countP (fun style => !Line.conforms style text) := by
      rw [List.length_eq_countP_add_countP (fun style => Line.conforms style text)]
      simp
    have hone := Line.countP_conforms_le_one text
    have hfour : Style.single.length = 4 := rfl
    omega
  each_if_any := by
    intro hany style hstyle
    rw [Bool.not_eq_true'] at hany ⊢
    rw [← Bool.not_eq_true] at hany ⊢
    exact fun h => hany (Line.conforms_any_of_conforms hstyle h)
  unwrapped_iff := by
    rw [Bool.not_eq_true', ← Bool.not_eq_true, Line.conforms_unwrapped_iff hline]
    obtain ⟨c, rest, hscan, hc⟩ := Line.exists_afterSelector_of_hasAttributes hattributes
    constructor
    · intro hspace
      rcases hc with rfl | hopen
      · exact absurd ⟨rest, hscan⟩ hspace
      · exact ⟨c, rest, hscan, hopen⟩
    · rintro ⟨d, after, hd, hopen⟩ ⟨other, hspace⟩
      rw [hd, Option.some.injEq, List.cons.injEq] at hspace
      rw [hspace.1] at hopen
      cases hopen
  all_if_space := by
    intro rest hscan style hstyle
    rw [Bool.not_eq_true']
    exact Line.conforms_eq_false_of_space hstyle hscan

/-- The five runs on one document.  The exempt lines are the same for all; a line that is not
exempt and has attributes is shared out by the styles; no other line is reported under any. -/
theorem styles_share_out_lines (source : String) (root : Node) :
    (∀ style n, (Scan.ofDocument style (.ofSource source root)).loose.get? n = some false ↔
        (Document.ofSource source root).Exempt n) ∧
      (∀ n text, (Document.ofSource source root).line? n = some text →
        ¬ (Document.ofSource source root).Exempt n →
        Line.hasAttributes text.toList = true → Line.isDoctype text.toList = false →
        SharedOut text.toList (fun style => reports style (.ofSource source root) n)) ∧
      (∀ style n, ((Document.ofSource source root).Exempt n ∨
          ∃ text, (Document.ofSource source root).line? n = some text ∧
            (Line.isDoctype text.toList = true ∨ Line.hasAttributes text.toList = false)) →
        reports style (.ofSource source root) n = false) ∧
      ∀ style ∈ .any :: Style.bracketed, ∀ text,
        Line.conforms style text = true → Line.hasAttributes text = true := by
  refine ⟨fun style n => Scan.get?_loose_eq_false_iff style _ n, ?_, ?_, ?_⟩
  · intro n text hline hexempt hattributes hdoctype
    have hreports : (fun style => reports style (.ofSource source root) n)
        = fun style => !Line.conforms style text.toList :=
      funext fun style => reports_iff hline hexempt hattributes hdoctype
    rw [hreports]
    exact sharedOut_not_conforms (Document.lineFeed_not_mem_of_line? hline) hattributes
  · rintro style n (hexempt | ⟨text, hline, hdoctype | hattributes⟩)
    · exact reports_eq_false_of_exempt hexempt
    · exact reports_eq_false_of_not_violates hline (by simp [Line.violates, hdoctype])
    · exact reports_eq_false_of_not_violates hline (by simp [Line.violates, hattributes])
  · exact fun style hstyle text => Line.hasAttributes_of_conforms hstyle

/-- A line in round brackets with a bracket of another kind in a value, a line with an element
on it, and a document type declaration. -/
def threeLines : Document :=
  .ofSource "div(a=\"]\")\np\ndoctype html\n" (.element "p" ⟨2, none⟩ .absent [])

theorem styles_share_out_three_lines :
    (threeLines.line? 1 = some "div(a=\"]\")" ∧ ¬ threeLines.Exempt 1 ∧
        Line.hasAttributes "div(a=\"]\")".toList = true ∧
        Line.isDoctype "div(a=\"]\")".toList = false ∧
        SharedOut "div(a=\"]\")".toList (fun style => reports style threeLines 1)) ∧
      (threeLines.Exempt 2 ∧ reports .any threeLines 2 = false) ∧
      (threeLines.line? 3 = some "doctype html" ∧
        Line.isDoctype "doctype html".toList = true ∧ reports .any threeLines 3 = false) ∧
      (Line.conforms .round "div(a=\"]\")".toList = true ∧
        Line.hasAttributes "div(a=\"]\")".toList = true) := by
  obtain ⟨-, hshared, hnone, hconforms⟩ := styles_share_out_lines
    "div(a=\"]\")\np\ndoctype html\n" (.element "p" ⟨2, none⟩ .absent [])
  have hfirst : threeLines.line? 1 = some "div(a=\"]\")" := by decide
  have hloose : ¬ threeLines.Exempt 1 := by decide
  have htight : threeLines.Exempt 2 := by decide
  have hthird : threeLines.line? 3 = some "doctype html" := by decide
  have hdoctype : Line.isDoctype "doctype html".toList = true := by decide
  have hround : Line.conforms .round "div(a=\"]\")".toList = true := by decide
  have hattributes := hconforms .round (by decide) _ hround
  refine ⟨⟨hfirst, hloose, hattributes, by decide, ?_⟩, ⟨htight, ?_⟩, ⟨hthird, hdoctype, ?_⟩,
    hround, hattributes⟩
  · exact hshared 1 _ hfirst hloose hattributes (by decide)
  · exact hnone .any 2 (Or.inl htight)
  · exact hnone .any 3 (Or.inr ⟨_, hthird, Or.inl hdoctype⟩)

end AttributesWrapper
end WrapLint
