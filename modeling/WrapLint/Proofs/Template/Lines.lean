import Mathlib.Tactic.Common
import WrapLint.Template.Document

/-!
# The lines of a document

**Results.**
* `Document.line?_eq_some_iff`, `Document.bounds_of_line?`: the lines that a document has are
  numbered from one to the line count.
* `Document.lineFeed_not_mem_of_line?`: no line of a document made from a source has a line
  feed in it.
* `SourceLines.ofSource_append`: behind a line feed, the lines of a source start afresh.
-/

namespace WrapLint

namespace SourceLines

theorem lineFeed_not_mem_close {current : List Char} (h : '\n' ∉ current) :
    '\n' ∉ close current := by
  unfold close
  split
  · rw [List.mem_reverse]
    exact fun hmem => h (List.mem_cons_of_mem _ hmem)
  · rwa [List.mem_reverse]

/-- No line has a line feed in it, if the part that is already read has none. -/
theorem lineFeed_not_mem_of_mem_splitFrom {text : List Char} :
    ∀ {current line : List Char}, '\n' ∉ current → line ∈ splitFrom current text →
      '\n' ∉ line := by
  induction text with
  | nil =>
      intro current line hcurrent hmem
      unfold splitFrom at hmem
      split_ifs at hmem
      · simp at hmem
      · rw [List.mem_singleton.1 hmem, List.mem_reverse]
        exact hcurrent
  | cons c rest ih =>
      intro current line hcurrent hmem
      unfold splitFrom at hmem
      split_ifs at hmem with hc
      · rcases List.mem_cons.1 hmem with rfl | hmem
        · exact lineFeed_not_mem_close hcurrent
        · exact ih (by simp) hmem
      · exact ih (by simp [hcurrent, Ne.symm hc]) hmem

theorem lineFeed_not_mem_of_mem_ofSource {source line : String} (h : line ∈ ofSource source) :
    '\n' ∉ line.toList := by
  obtain ⟨characters, hmem, rfl⟩ := List.mem_map.1 h
  rw [String.toList_ofList]
  exact lineFeed_not_mem_of_mem_splitFrom (by simp) hmem

/-- A line feed parts a text: what is behind it does not depend on what is before it. -/
theorem splitFrom_append (text rest : List Char) (current : List Char) :
    splitFrom current (text ++ '\n' :: rest)
      = splitFrom current (text ++ ['\n']) ++ splitFrom [] rest := by
  induction text generalizing current with
  | nil => simp [splitFrom]
  | cons c text ih =>
      rw [List.cons_append, List.cons_append, splitFrom, splitFrom]
      by_cases hc : c = '\n'
      · rw [if_pos hc, if_pos hc, ih, List.cons_append]
      · rw [if_neg hc, if_neg hc, ih]

/-- Behind a source that is empty or ends in a line feed, the lines start afresh. -/
theorem ofSource_append {first : String} (second : String)
    (h : first = "" ∨ first.toList.getLast? = some '\n') :
    ofSource (first ++ second) = ofSource first ++ ofSource second := by
  rcases h with rfl | hlast
  · rw [String.empty_append]
    rfl
  · obtain ⟨text, htext⟩ := List.getLast?_eq_some_iff.1 hlast
    rw [ofSource, ofSource, ofSource, String.toList_append, htext, split, split, split,
      List.append_assoc, List.singleton_append, splitFrom_append, List.map_append]

end SourceLines

namespace Template
namespace Document

theorem line?_eq_some_iff (document : Document) (n : Nat) (text : String) :
    document.line? n = some text ↔ 1 ≤ n ∧ document.lines[n - 1]? = some text := by
  unfold line?
  split
  · rename_i hn
    simp [hn]
  · rename_i hn
    simp [Nat.one_le_iff_ne_zero, hn]

/-- A line that the document has is between the first and the last. -/
theorem bounds_of_line? {document : Document} {n : Nat} {text : String}
    (h : document.line? n = some text) : 1 ≤ n ∧ n ≤ document.lineCount := by
  obtain ⟨hpos, hget⟩ := (document.line?_eq_some_iff n text).1 h
  obtain ⟨hlt, -⟩ := List.getElem?_eq_some_iff.1 hget
  unfold lineCount
  exact ⟨hpos, by omega⟩

theorem lineFeed_not_mem_of_line? {source : String} {root : Node} {n : Nat} {text : String}
    (h : (ofSource source root).line? n = some text) : '\n' ∉ text.toList := by
  obtain ⟨-, hget⟩ := ((ofSource source root).line?_eq_some_iff n text).1 h
  exact SourceLines.lineFeed_not_mem_of_mem_ofSource (List.mem_of_getElem? hget)

end Document
end Template
end WrapLint
