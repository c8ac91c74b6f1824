import Mathlib.Data.List.Chain
import WrapLint.CommandLine.Basic
import WrapLint.Report.Text

/-!
# Colours are decoration

A coloured report is the uncoloured one with codes put into it.  To say so, a text is cut into codes
and characters, from left to right.  Every code begins with an escape character and has no other
one, so no two of them overlap, and a text without escape characters neither completes a code that
stands in front of it nor begins one.

**Results.**
* `cut_append_of_noEscape`, `cut_code`: how a text is cut that is put together from such pieces.
* `Decorates.append`, `decorates_paint`: a text with colours and what it is without them.
* `text_coloured_decorates`: without its codes the coloured text is the uncoloured one, and the
  codes switch colours on and off in turn.
-/

namespace WrapLint
namespace Report

section Codes

/-- What a terminal is told inside a text. -/
inductive Code where
  | on (colour : Colour)
  | off

/-- The characters of a code. -/
def Code.letters : Code → List Char
  | .on colour => colour.code.toList
  | .off => colourOff.toList

/-- All codes of reports. -/
def Code.all : List Code :=
  [.on .red, .on .green, .on .cyan, .off]

/-- Whether a code switches a colour on. -/
def Code.isOn : Code → Bool
  | .on _ => true
  | .off => false

/-- The code at the beginning of a text. -/
def codeAt? (text : List Char) : Option Code :=
  Code.all.find? fun code => code.letters.isPrefixOf text

/-- A code in a text, or a character that belongs to none. -/
inductive Piece where
  | code (which : Code)
  | char (c : Char)

/-- A text in pieces, from left to right. -/
def cut : List Char → List Piece
  | [] => []
  | c :: text =>
    match codeAt? (c :: text) with
    | some code => .code code :: cut (text.drop (code.letters.length - 1))
    | none => .char c :: cut text
termination_by text => text.length
decreasing_by all_goals grind

/-- The code of a piece. -/
def Piece.code? : Piece → Option Code
  | .code which => some which
  | .char _ => none

/-- The character of a piece. -/
def Piece.char? : Piece → Option Char
  | .code _ => none
  | .char c => some c

/-- The codes in a text, in order. -/
def codesIn (text : String) : List Code :=
  (cut text.toList).filterMap Piece.code?

/-- A text with every code deleted. -/
def withoutCodes (text : String) : String :=
  String.ofList ((cut text.toList).filterMap Piece.char?)

/-- Colours are switched on and off in turn, and none stays on. -/
structure Alternating (codes : List Code) : Prop where
  first : ∃ colour, codes.head? = some (.on colour)
  inTurn : codes.IsChain fun before after => before.isOn ≠ after.isOn
  last : codes.getLast? = some .off

/-- No character of a text begins a code. -/
def NoEscape (text : String) : Prop :=
  '\x1b' ∉ text.toList

instance (text : String) : Decidable (NoEscape text) :=
  inferInstanceAs (Decidable ('\x1b' ∉ text.toList))

/-- Neither the path nor a text of a lint has an escape character. -/
structure EscapeFree (report : FileReport) : Prop where
  path : NoEscape report.path
  linter : ∀ lint ∈ report.lints, NoEscape lint.linter
  message : ∀ lint ∈ report.lints, NoEscape lint.message

end Codes

section Cutting

/-- A code in front of a text is cut off. -/
theorem cut_code (code : Code) (rest : List Char) :
    cut (code.letters ++ rest) = .code code :: cut rest := by
  obtain ⟨colour⟩ | _ := code
  · cases colour <;> simp [cut, Code.letters, Colour.code, codeAt?, Code.all, colourOff]
  · simp [cut, Code.letters, Colour.code, codeAt?, Code.all, colourOff]

/-- Every code begins with the escape character. -/
theorem codeAt?_eq_none {c : Char} (hc : c ≠ '\x1b') (text : List Char) :
    codeAt? (c :: text) = none := by
  simp [codeAt?, Code.all, Code.letters, Colour.code, colourOff, Ne.symm hc]

/-- A text without escape characters is cut into its characters. -/
theorem cut_append_of_noEscape {text : List Char} (h : '\x1b' ∉ text) (rest : List Char) :
    cut (text ++ rest) = text.map Piece.char ++ cut rest := by
  induction text with
  | nil => rfl
  | cons c text ih =>
      simp only [List.mem_cons, not_or] at h
      rw [List.cons_append, cut, codeAt?_eq_none (Ne.symm h.1)]
      simp only [List.map_cons, List.cons_append, ih h.2]

end Cutting

section Decoration

/-- Whatever follows, the first text without its codes is the second one, and these are its
codes. -/
structure Decorates (coloured plain : String) (codes : List Code) : Prop where
  chars : ∀ rest, (cut (coloured.toList ++ rest)).filterMap Piece.char?
    = plain.toList ++ (cut rest).filterMap Piece.char?
  codes : ∀ rest, (cut (coloured.toList ++ rest)).filterMap Piece.code?
    = codes ++ (cut rest).filterMap Piece.code?

theorem decorates_of_noEscape {text : String} (h : NoEscape text) : Decorates text text [] where
  chars rest := by
    have hchars : Piece.char? ∘ Piece.char = some := rfl
    rw [cut_append_of_noEscape h, List.filterMap_append, List.filterMap_map, hchars,
      List.filterMap_some]
  codes rest := by
    have hcodes : Piece.code? ∘ Piece.char = fun _ => none := rfl
    rw [cut_append_of_noEscape h, List.filterMap_append, List.filterMap_map, hcodes,
      List.filterMap_none]

theorem decorates_code (code : Code) : Decorates (String.ofList code.letters) "" [code] where
  chars rest := by
    rw [String.toList_ofList, cut_code]
    rfl
  codes rest := by
    rw [String.toList_ofList, cut_code]
    rfl

theorem Decorates.append {first second first' second' : String} {codes codes' : List Code}
    (h : Decorates first second codes) (h' : Decorates first' second' codes') :
    Decorates (first ++ first') (second ++ second') (codes ++ codes') where
  chars rest := by
    simp only [String.toList_append, List.append_assoc, h.chars, h'.chars]
  codes rest := by
    simp only [String.toList_append, List.append_assoc, h.codes, h'.codes]

theorem Decorates.join {α : Type} {items : List α} {first second : α → String}
    {codes : α → List Code}
    (h : ∀ item ∈ items, Decorates (first item) (second item) (codes item)) :
    Decorates (String.join (items.map first)) (String.join (items.map second))
      (items.flatMap codes) := by
  induction items with
  | nil => exact ⟨fun _ => rfl, fun _ => rfl⟩
  | cons item items ih =>
      rw [List.map_cons, List.map_cons, List.flatMap_cons, String.join_cons, String.join_cons]
      rw [List.forall_mem_cons] at h
      exact h.1.append (ih h.2)

/-- A colour is switched on, and off again. -/
def Colour.switched (colour : Colour) : List Code :=
  [.on colour, .off]

/-- A colour is switched on right before a painted text, and off right after it. -/
theorem decorates_paint (colour : Colour) {text : String} (h : NoEscape text) :
    Decorates (paint true colour text) (paint false colour text) colour.switched := by
  have hon := decorates_code (.on colour)
  have hoff := decorates_code .off
  have hpainted := (hon.append (decorates_of_noEscape h)).append hoff
  simpa [Code.letters, paint, Colour.switched] using hpainted

/-- Of a text that decorates another one, nothing is left without its codes but that one. -/
theorem Decorates.withoutCodes_eq {coloured plain : String} {codes : List Code}
    (h : Decorates coloured plain codes) : withoutCodes coloured = plain := by
  have hchars := h.chars []
  have hend : cut [] = [] := by rw [cut]
  rw [List.append_nil, hend, List.filterMap_nil, List.append_nil] at hchars
  rw [withoutCodes, hchars, String.ofList_toList]

theorem Decorates.codesIn_eq {coloured plain : String} {codes : List Code}
    (h : Decorates coloured plain codes) : codesIn coloured = codes := by
  have hcodes := h.codes []
  have hend : cut [] = [] := by rw [cut]
  rwa [List.append_nil, hend, List.filterMap_nil, List.append_nil] at hcodes

/-- Colours that are switched on and off one after the other. -/
theorem alternating_flatMap_switched {colours : List Colour} (h : colours ≠ []) :
    Alternating (colours.flatMap Colour.switched) := by
  induction colours with
  | nil => exact absurd rfl h
  | cons colour colours ih =>
      rcases eq_or_ne colours [] with rfl | hne
      · exact ⟨⟨colour, rfl⟩, by simp [Colour.switched, Code.isOn], rfl⟩
      · obtain ⟨⟨next, hnext⟩, hturn, hlast⟩ := ih hne
        refine ⟨⟨colour, rfl⟩, ?_, ?_⟩
        · rw [List.flatMap_cons, List.isChain_append]
          refine ⟨by simp [Colour.switched, Code.isOn], hturn, ?_⟩
          simp [Colour.switched, hnext, Code.isOn]
        · rw [List.flatMap_cons, List.getLast?_append, hlast]
          rfl

end Decoration

section Reports

theorem NoEscape.append {first second : String} (h : NoEscape first) (h' : NoEscape second) :
    NoEscape (first ++ second) := by
  rw [NoEscape, String.toList_append, List.mem_append]
  exact not_or.2 ⟨h, h'⟩

/-- Decimal digits are no escape characters. -/
theorem noEscape_toString (n : Nat) : NoEscape (toString n) := by
  intro hmem
  change '\x1b' ∈ n.repr.toList at hmem
  rw [Nat.toList_repr] at hmem
  exact absurd (Nat.isDigit_of_mem_toDigits (by decide) (by decide) hmem) (by decide)

theorem noEscape_locationText {path : String} (h : NoEscape path) (location : Location) :
    NoEscape (locationText path location) := by
  have hline : NoEscape (path ++ ":" ++ toString location.lineNumber) :=
    (h.append (by decide)).append (noEscape_toString _)
  have hcolon : NoEscape ":" := by decide
  rw [locationText]
  cases location.column with
  | none => exact hline
  | some column => exact (hline.append hcolon).append (noEscape_toString column)

/-- The codes in the line for a lint. -/
def lintCodes : List Code :=
  Colour.switched .cyan ++ Colour.switched .red

theorem decorates_lintText {path : String} {lint : Lint} (hpath : NoEscape path)
    (hlinter : NoEscape lint.linter) (hmessage : NoEscape lint.message) :
    Decorates (lintText true path lint) (lintText false path lint) lintCodes := by
  have hplace := decorates_paint .cyan (noEscape_locationText hpath lint.location)
  have hopen : NoEscape "[" := by decide
  have hname : NoEscape s!"[{lint.linter}]" := (hopen.append hlinter).append (by decide)
  have hblank : Decorates " " " " [] := decorates_of_noEscape (by decide)
  have hend : Decorates "\n" "\n" [] := decorates_of_noEscape (by decide)
  have hline := ((((hplace.append hblank).append (decorates_paint .red hname)).append hblank).append
    (decorates_of_noEscape hmessage)).append hend
  simpa [lintText, lintCodes] using hline

/-- The colour of the result. -/
def resultColour (reports : List FileReport) : Colour :=
  if lintCount reports = 0 then .green else .red

theorem decorates_resultText (reports : List FileReport) :
    Decorates (resultText true reports) (resultText false reports)
      (resultColour reports).switched := by
  rw [resultText, resultText, resultColour]
  split
  · exact decorates_paint .green (by decide)
  · have hlints : NoEscape (toString (lintCount reports) ++ " lint(s) in ") :=
      (noEscape_toString _).append (by decide)
    have hfiles : NoEscape (toString (affectedCount reports) ++ " file(s)") :=
      (noEscape_toString _).append (by decide)
    have hresult := hlints.append hfiles
    rw [← String.append_assoc] at hresult
    exact decorates_paint .red hresult

/-- The lines are put together report by report. -/
theorem join_lintTexts (coloured : Bool) (reports : List FileReport) :
    String.join (reports.flatMap fun report => report.lints.map (lintText coloured report.path))
      = String.join (reports.map fun report =>
          String.join (report.lints.map (lintText coloured report.path))) := by
  rw [← String.toList_inj]
  simp [List.flatMap_assoc, List.flatMap_map]

/-- The codes in the text of some reports. -/
def textCodes (reports : List FileReport) : List Code :=
  (reports.flatMap fun report => report.lints.flatMap fun _ => lintCodes)
    ++ (resultColour reports).switched

theorem decorates_text {reports : List FileReport} (h : ∀ report ∈ reports, EscapeFree report) :
    Decorates (text true reports) (text false reports) (textCodes reports) := by
  have hlines := Decorates.join fun report hreport =>
    Decorates.join fun lint (hlint : lint ∈ report.lints) =>
      decorates_lintText (h report hreport).path ((h report hreport).linter lint hlint)
        ((h report hreport).message lint hlint)
  have hhead : NoEscape ("\nSummary: " ++ toString reports.length ++ " file(s) checked, ") :=
    (NoEscape.append (by decide) (noEscape_toString _)).append (by decide)
  have hend : Decorates "\n" "\n" [] := decorates_of_noEscape (by decide)
  have htext := hlines.append
    (((decorates_of_noEscape hhead).append (decorates_resultText reports)).append hend)
  rw [List.nil_append, List.append_nil] at htext
  rw [text, text, join_lintTexts, join_lintTexts]
  exact htext

theorem alternating_textCodes (reports : List FileReport) : Alternating (textCodes reports) := by
  have hcodes : textCodes reports
      = ((reports.flatMap fun report => report.lints.flatMap fun _ => [Colour.cyan, .red])
          ++ [resultColour reports]).flatMap Colour.switched := by
    simp [textCodes, lintCodes, List.flatMap_assoc]
  -- There is a result in every text, so at least one colour is switched on.
  rw [hcodes]
  exact alternating_flatMap_switched (by simp)

/-- Where colours are always on, deleting the codes gives what is written where they are never on;
and the codes switch colours on and off in turn, so that none is nested or left on. -/
theorem colours_are_decoration {reports : List FileReport}
    (h : ∀ report ∈ reports, EscapeFree report) (noColor terminal : Bool) :
    withoutCodes (text (ColorChoice.always.isColoured noColor terminal) reports)
        = text (ColorChoice.never.isColoured noColor terminal) reports ∧
      Alternating (codesIn (text (ColorChoice.always.isColoured noColor terminal) reports)) := by
  have htext := decorates_text h
  refine ⟨htext.withoutCodes_eq, ?_⟩
  rw [ColorChoice.isColoured, htext.codesIn_eq]
  exact alternating_textCodes reports

/-- Two lints of one document, one of them without a column and with a message that looks like the
end of a code, and a document without lints. -/
theorem colours_are_decoration_two_documents :
    let reports : List FileReport :=
      [⟨"a/[31m.slim.json", [⟨"Wrapper", .line 3, "[0m"⟩, ⟨"Wrapper", .node ⟨7, some 5⟩, "é"⟩]⟩,
        ⟨"b.slim.json", []⟩]
    (∀ report ∈ reports, EscapeFree report) ∧
      withoutCodes (text (ColorChoice.always.isColoured true false) reports)
        = text (ColorChoice.never.isColoured true false) reports ∧
      Alternating (codesIn (text (ColorChoice.always.isColoured true false) reports)) := by
  intro reports
  have h : ∀ report ∈ reports, EscapeFree report := by
    intro report hreport
    simp only [reports, List.mem_cons, List.not_mem_nil, or_false] at hreport
    rcases hreport with rfl | rfl
    · exact ⟨by decide, by decide, by decide⟩
    · exact ⟨by decide, by decide, by decide⟩
  exact ⟨h, colours_are_decoration h true false⟩

end Reports

end Report
end WrapLint
