import Mathlib.Data.List.Basic
import Mathlib.Tactic.Common
import WrapLint.Proofs.Template.Lines

/-!
# A source is its lines with their endings

A source can be cut into lines that end, each with its own ending, and text behind the last of
them.  Such a cut says without any scanning what the lines are; splitting finds exactly them.

**Conditions.**  A line feed ends a line at once, so no text of a cut holds one.  A carriage
return in front of a line feed belongs to the ending, so a text that a lone line feed ends does
not end in a carriage return.  Text behind the last ending is not empty.

**Results.**
* `exists_cut`: every source can be cut.
* `ofSource_source`: the lines of a source are the texts of its cut.
* `Document.lines_of_cut`: what a document has at each line number.
-/

namespace WrapLint
namespace SourceLines

/-- How a line ends. -/
inductive Ending where
  | lineFeed
  | returnAndLineFeed
  deriving DecidableEq

/-- What stands in front of the line feed of an ending. -/
def Ending.beforeLineFeed : Ending → List Char
  | .lineFeed => []
  | .returnAndLineFeed => ['\r']

/-- The characters of an ending. -/
def Ending.text (ending : Ending) : List Char :=
  ending.beforeLineFeed ++ ['\n']

/-- A line and its ending, which takes a carriage return in front of the line feed. -/
structure EndedLine where
  text : List Char
  ending : Ending
  lineFeed_not_mem : '\n' ∉ text
  getLast?_ne_of_lineFeed : ending = .lineFeed → text.getLast? ≠ some '\r'

/-- A last line that does not end. -/
structure OpenLine where
  text : List Char
  ne_nil : text ≠ []
  lineFeed_not_mem : '\n' ∉ text

/-- A source cut into its lines. -/
structure Cut where
  ended : List EndedLine
  last : Option OpenLine

namespace Cut

/-- The characters of the source that was cut. -/
def text (cut : Cut) : List Char :=
  cut.ended.flatMap (fun line => line.text ++ line.ending.text)
    ++ cut.last.elim [] OpenLine.text

/-- The source that was cut. -/
def source (cut : Cut) : String :=
  String.ofList cut.text

/-- The texts of the lines, without their endings. -/
def texts (cut : Cut) : List (List Char) :=
  cut.ended.map EndedLine.text ++ (cut.last.map OpenLine.text).toList

/-- The lines. -/
def lines (cut : Cut) : List String :=
  cut.texts.map String.ofList

end Cut

section Splitting

/-- Characters in front of the next line feed all go to the line that is read. -/
theorem splitFrom_append_of_not_mem {text : List Char} (h : '\n' ∉ text)
    (current rest : List Char) :
    splitFrom current (text ++ rest) = splitFrom (text.reverse ++ current) rest := by
  induction text generalizing current with
  | nil => rfl
  | cons c text ih =>
      rw [List.mem_cons, not_or] at h
      obtain ⟨hc, htext⟩ := h
      rw [List.cons_append, splitFrom, if_neg (Ne.symm hc), ih htext, List.reverse_cons,
        List.append_assoc, List.singleton_append]

theorem close_reverse_of_getLast?_ne {text : List Char} (h : text.getLast? ≠ some '\r') :
    close text.reverse = text := by
  rcases List.eq_nil_or_concat' text with rfl | ⟨before, c, rfl⟩
  · rfl
  · have hc : c ≠ '\r' := by
      rintro rfl
      exact h List.getLast?_concat
    rw [List.reverse_concat, close]
    · rw [List.reverse_cons, List.reverse_reverse]
    · exact fun _ heq => hc (List.cons.inj heq).1

/-- At its line feed a line gives up the carriage return of its ending, and no other. -/
theorem EndedLine.close_eq_text (line : EndedLine) :
    close (line.text ++ line.ending.beforeLineFeed).reverse = line.text := by
  cases hending : line.ending with
  | lineFeed =>
      rw [Ending.beforeLineFeed, List.append_nil]
      exact close_reverse_of_getLast?_ne (line.getLast?_ne_of_lineFeed hending)
  | returnAndLineFeed =>
      rw [Ending.beforeLineFeed, List.reverse_concat, close, List.reverse_reverse]

theorem EndedLine.lineFeed_not_mem_append (line : EndedLine) :
    '\n' ∉ line.text ++ line.ending.beforeLineFeed := by
  rw [List.mem_append, not_or]
  refine ⟨line.lineFeed_not_mem, ?_⟩
  cases line.ending <;> decide

/-- A line that ends is split off, and splitting goes on behind its ending. -/
theorem split_endedLine (line : EndedLine) (rest : List Char) :
    split (line.text ++ line.ending.text ++ rest) = line.text :: split rest := by
  rw [Ending.text, ← List.append_assoc, List.append_assoc, List.singleton_append, split,
    splitFrom_append_of_not_mem line.lineFeed_not_mem_append, List.append_nil, splitFrom,
    if_pos rfl, line.close_eq_text]
  rfl

/-- A last line that does not end keeps all its characters. -/
theorem split_openLine (line : OpenLine) : split line.text = [line.text] := by
  have hsplit := splitFrom_append_of_not_mem line.lineFeed_not_mem [] []
  rw [List.append_nil, List.append_nil, splitFrom, List.reverse_reverse] at hsplit
  rw [split, hsplit, if_neg]
  rw [List.isEmpty_reverse, List.isEmpty_iff]
  exact line.ne_nil

/-- Splitting finds the texts of a cut, and nothing else. -/
theorem split_text (cut : Cut) : split cut.text = cut.texts := by
  obtain ⟨ended, last⟩ := cut
  induction ended with
  | nil =>
      cases last with
      | none => rfl
      | some line => exact split_openLine line
  | cons line ended ih =>
      simp only [Cut.text, Cut.texts, List.flatMap_cons, List.map_cons, List.cons_append,
        List.append_assoc] at ih ⊢
      rw [← List.append_assoc, split_endedLine, ih]

/-- The lines of a source are those of its cut. -/
theorem ofSource_source (cut : Cut) : ofSource cut.source = cut.lines := by
  rw [ofSource, Cut.source, String.toList_ofList, split_text]
  rfl

end Splitting

section Cutting

/-- Text in front of a line feed is a line with its ending. -/
theorem exists_endedLine {before : List Char} (h : '\n' ∉ before) :
    ∃ line : EndedLine, line.text ++ line.ending.text = before ++ ['\n'] := by
  by_cases hlast : before.getLast? = some '\r'
  · obtain ⟨text, rfl⟩ := List.getLast?_eq_some_iff.1 hlast
    have htext : '\n' ∉ text := fun hmem => h (List.mem_append_left _ hmem)
    refine ⟨⟨text, .returnAndLineFeed, htext, nofun⟩, ?_⟩
    rw [Ending.text, Ending.beforeLineFeed, List.append_assoc]
  · exact ⟨⟨before, .lineFeed, h, fun _ => hlast⟩, rfl⟩

theorem exists_cut_text (text : List Char) : ∃ cut : Cut, cut.text = text := by
  by_cases hmem : '\n' ∈ text
  · obtain ⟨before, after, htext, hbefore⟩ := List.eq_append_cons_of_mem hmem
    obtain ⟨line, hline⟩ := exists_endedLine hbefore
    obtain ⟨cut, hcut⟩ := exists_cut_text after
    refine ⟨⟨line :: cut.ended, cut.last⟩, ?_⟩
    rw [Cut.text] at hcut ⊢
    rw [List.flatMap_cons, List.append_assoc, hcut, hline, List.append_assoc,
      List.singleton_append, htext]
  · cases text with
    | nil => exact ⟨⟨[], none⟩, rfl⟩
    | cons c rest => exact ⟨⟨[], some ⟨c :: rest, List.cons_ne_nil c rest, hmem⟩⟩, rfl⟩
termination_by text.length
decreasing_by
  rw [htext, List.length_append, List.length_cons]
  omega

/-- Every source can be cut into lines. -/
theorem exists_cut (source : String) : ∃ cut : Cut, cut.source = source := by
  obtain ⟨cut, hcut⟩ := exists_cut_text source.toList
  exact ⟨cut, by rw [Cut.source, hcut, String.ofList_toList]⟩

end Cutting

end SourceLines

namespace Template
namespace Document

open SourceLines (Cut)

/-- Every source has a cut, and for every cut the lines of the document are the texts of the
cut, none of which holds a line feed.  They have the numbers from one on, and there is no line
with another number. -/
theorem lines_of_cut (root : Node) :
    (∀ source : String, ∃ cut : Cut, cut.source = source) ∧
      ∀ cut : Cut,
        (ofSource cut.source root).lines = cut.lines ∧
        (ofSource cut.source root).lineCount = cut.lines.length ∧
        (∀ line ∈ cut.lines, '\n' ∉ line.toList) ∧
        (∀ i : Fin cut.lines.length,
          (ofSource cut.source root).line? (i + 1) = some cut.lines[i]) ∧
        ∀ n, n = 0 ∨ cut.lines.length < n → (ofSource cut.source root).line? n = none := by
  refine ⟨SourceLines.exists_cut, fun cut => ?_⟩
  have hlines : (ofSource cut.source root).lines = cut.lines := SourceLines.ofSource_source cut
  refine ⟨hlines, congrArg List.length hlines, ?_, ?_, ?_⟩
  · intro line hline
    rw [← SourceLines.ofSource_source] at hline
    exact SourceLines.lineFeed_not_mem_of_mem_ofSource hline
  · intro i
    rw [line?, if_neg i.val.succ_ne_zero, hlines, Nat.add_sub_cancel]
    exact List.getElem?_eq_getElem i.isLt
  · rintro n (rfl | hn)
    · rfl
    · rw [line?, if_neg (by omega), hlines, List.getElem?_eq_none_iff]
      omega

/-- Of two carriage returns in front of a line feed one stays, an empty line is a line, and
text that does not end keeps its carriage return. -/
theorem lines_of_cut_three_lines :
    (ofSource "a\r\r\n\nb\r" (.other ⟨1, none⟩ [])).lines = ["a\r", "", "b\r"] ∧
      '\n' ∉ "b\r".toList ∧
      (ofSource "a\r\r\n\nb\r" (.other ⟨1, none⟩ [])).line? 4 = none := by
  let cut : Cut :=
    { ended := [⟨['a', '\r'], .returnAndLineFeed, by decide, nofun⟩,
        ⟨[], .lineFeed, by decide, by decide⟩]
      last := some ⟨['b', '\r'], by decide, by decide⟩ }
  obtain ⟨hlines, -, hfeed, -, hnone⟩ := (lines_of_cut (.other ⟨1, none⟩ [])).2 cut
  exact ⟨hlines, hfeed "b\r" (by decide), hnone 4 (by decide)⟩

end Document
end Template
end WrapLint
