import Mathlib.Data.Multiset.Basic
import Mathlib.Tactic.Common
import WrapLint.Proofs.Lint.Anchors

/-!
# The shape of the tree

The check reads little of a tree: of each element its line, and of each of its attributes the
line and whether it is shorthand.  Where an element stands in the tree, which element comes
first, and everything that is no element, does not matter to which lines have a lint.  The order
only decides which attribute of a line gives its lint the column.

**Results.**
* `map_run_congr`: two documents with the same lines, compared lint by lint.
* `run_of_same_elements`: the same elements in another tree or in another order.
-/

namespace WrapLint

open Template (Document Node Attribute ElementView Occupied Loose attributesOf)

/-- The place with its column left out. -/
def Location.withoutColumn : Location → Location
  | .line number => .line number
  | .node position => .node ⟨position.line, none⟩

/-- The lint with its column left out. -/
def Lint.withoutColumn (lint : Lint) : Lint :=
  { lint with location := lint.location.withoutColumn }

namespace Template

/-- The line of an element, and for each of its attributes the line and whether it is
shorthand, in no order. -/
def ElementView.outline (element : ElementView) : Nat × Multiset (Nat × Bool) :=
  (element.position.line,
    element.list.attributes.map (fun item => (item.line, item.isShorthand)))

/-- The line of an element and its attributes, in order. -/
def ElementView.content (element : ElementView) : Nat × List Attribute :=
  (element.position.line, element.list.attributes)

section Outlines

variable {xs ys : List ElementView}

theorem occupied_iff_outline (elements : List ElementView) (n : Nat) :
    Occupied elements n ↔ ∃ outline ∈ elements.map ElementView.outline,
      outline.1 = n ∨ ∃ mark ∈ outline.2, mark.1 = n := by
  simp [Occupied, ElementView.outline, -Prod.exists]

theorem loose_iff_outline (elements : List ElementView) (n : Nat) :
    Loose elements n ↔ ∃ outline ∈ elements.map ElementView.outline, (n, false) ∈ outline.2 := by
  simp [Loose, ElementView.outline]

theorem occupied_congr (h : (xs.map ElementView.outline).Perm (ys.map ElementView.outline))
    (n : Nat) : Occupied xs n ↔ Occupied ys n := by
  rw [occupied_iff_outline, occupied_iff_outline]
  simp only [h.mem_iff]

theorem loose_congr (h : (xs.map ElementView.outline).Perm (ys.map ElementView.outline))
    (n : Nat) : Loose xs n ↔ Loose ys n := by
  rw [loose_iff_outline, loose_iff_outline]
  simp only [h.mem_iff]

/-- Elements with the same contents have the same outlines. -/
theorem map_outline_congr (h : xs.map ElementView.content = ys.map ElementView.content) :
    xs.map ElementView.outline = ys.map ElementView.outline := by
  have houtline : ElementView.outline = (fun content : Nat × List Attribute =>
      (content.1, (content.2.map (fun item => (item.line, item.isShorthand)) :
        Multiset (Nat × Bool)))) ∘ ElementView.content :=
    rfl
  rw [houtline, ← List.map_map, h, List.map_map]

theorem attributesOf_congr (h : xs.map ElementView.content = ys.map ElementView.content) :
    attributesOf xs = attributesOf ys := by
  have hcontent : ∀ elements : List ElementView,
      attributesOf elements = (elements.map ElementView.content).flatMap Prod.snd := by
    intro elements
    rw [List.flatMap_map]
    rfl
  rw [hcontent, hcontent, h]

end Outlines

end Template

open Template (occupied_congr loose_congr map_outline_congr attributesOf_congr)

namespace AttributesWrapper

section Congruence

variable {style : Style} {first second : Document}

theorem reported_congr (hlines : first.lines = second.lines)
    (houtline : (first.elements.map ElementView.outline).Perm
      (second.elements.map ElementView.outline)) (n : Nat) :
    Reported style first n ↔ Reported style second n := by
  have hviolates : lineViolates style first n = lineViolates style second n := by
    rw [lineViolates, lineViolates, Document.line?, Document.line?, hlines]
  rw [reported_iff, reported_iff, hviolates, occupied_congr houtline, loose_congr houtline]

/-- Two documents with the same lines and the same reported lines have the same lints, as far
as the lints of each line are the same. -/
theorem map_run_congr (f : Lint → Lint) (hlines : first.lines = second.lines)
    (hreported : ∀ n, Reported style first n ↔ Reported style second n)
    (hlint : ∀ n, f (lintOfLine style first n) = f (lintOfLine style second n)) :
    (run style first).map f = (run style second).map f := by
  have hcount : first.lineCount = second.lineCount := congrArg List.length hlines
  rw [run_eq_map_filter, run_eq_map_filter, List.map_map, List.map_map, hcount]
  simp only [hreported]
  exact List.map_congr_left fun n _ => hlint n

/-- Without the column, where a lint points only hangs on whether its line is loose. -/
theorem withoutColumn_lintOfLine (style : Style) (document : Document) (n : Nat) :
    (lintOfLine style document n).withoutColumn =
      lintAt style (if Loose document.elements n then .node ⟨n, none⟩ else .line n) := by
  by_cases hloose : Loose document.elements n
  · obtain ⟨position, rfl, hanchor⟩ := anchor_eq_node_of_loose hloose
    rw [if_pos hloose, lintOfLine, hanchor]
    rfl
  · rw [if_neg hloose, lintOfLine, anchor_eq_line_of_not_loose hloose]
    rfl

end Congruence

/-- Two trees with the same elements give the same lints but for the column; if the elements
come in the same order with the same attributes, they give the same lints. -/
theorem run_of_same_elements (style : Style) (source : String) (first second : Node) :
    ((first.elements.map ElementView.outline).Perm (second.elements.map ElementView.outline) →
        (run style (.ofSource source first)).map Lint.withoutColumn
          = (run style (.ofSource source second)).map Lint.withoutColumn) ∧
      (first.elements.map ElementView.content = second.elements.map ElementView.content →
        run style (.ofSource source first) = run style (.ofSource source second)) := by
  constructor
  · intro houtline
    refine map_run_congr Lint.withoutColumn rfl (reported_congr rfl houtline) fun n => ?_
    rw [withoutColumn_lintOfLine, withoutColumn_lintOfLine]
    exact congrArg (lintAt style) (if_congr (loose_congr houtline n) rfl rfl)
  · intro hcontent
    have houtline : (first.elements.map ElementView.outline).Perm
        (second.elements.map ElementView.outline) := by
      rw [map_outline_congr hcontent]
    have hreported : ∀ n, Reported style (.ofSource source first) n ↔
        Reported style (.ofSource source second) n :=
      reported_congr rfl houtline
    have hlint : ∀ n, lintOfLine style (.ofSource source first) n
        = lintOfLine style (.ofSource source second) n := by
      intro n
      rw [lintOfLine, lintOfLine, anchor, anchor, Document.elements_ofSource,
        Document.elements_ofSource, attributesOf_congr hcontent]
    have hmap : (run style (.ofSource source first)).map id
        = (run style (.ofSource source second)).map id :=
      map_run_congr id rfl hreported hlint
    rwa [List.map_id, List.map_id] at hmap

/-- An element with two attributes on the first line and an element on the second. -/
def siblings : Node :=
  .other ⟨1, none⟩
    [.element "div" ⟨1, some 1⟩
      ⟨⟨1, none⟩, [⟨"a", .empty, ⟨1, some 5⟩⟩, ⟨"b", .expression "1", ⟨1, some 7⟩⟩]⟩ [],
      .element "p" ⟨2, some 1⟩ .absent []]

/-- The same elements, the second around the first and the attributes the other way round. -/
def turned : Node :=
  .element "p" ⟨2, none⟩ .absent
    [.element "div" ⟨1, none⟩
      ⟨⟨1, none⟩, [⟨"b", .expression "1", ⟨1, some 7⟩⟩, ⟨"a", .empty, ⟨1, some 5⟩⟩]⟩ []]

/-- The same elements with other tags, the second inside the first, between nodes that are no
elements. -/
def nested : Node :=
  .element "ul" ⟨1, none⟩
    ⟨⟨9, some 3⟩, [⟨"a", .empty, ⟨1, some 5⟩⟩, ⟨"b", .expression "1", ⟨1, some 7⟩⟩]⟩
    [.attr ⟨"c", .empty, ⟨2, none⟩⟩, .attributeList ⟨⟨2, none⟩, [⟨"d", .empty, ⟨2, none⟩⟩]⟩,
      .other ⟨4, none⟩ [.element "li" ⟨2, some 8⟩ ⟨⟨5, none⟩, []⟩ []]]

theorem run_of_same_elements_three_trees :
    ((siblings.elements.map ElementView.outline).Perm (turned.elements.map ElementView.outline) ∧
        (run .round (.ofSource "div a b=1\np c=2\n" siblings)).map Lint.withoutColumn
          = (run .round (.ofSource "div a b=1\np c=2\n" turned)).map Lint.withoutColumn) ∧
      (siblings.elements.map ElementView.content = nested.elements.map ElementView.content ∧
        run .round (.ofSource "div a b=1\np c=2\n" siblings)
          = run .round (.ofSource "div a b=1\np c=2\n" nested)) ∧
      run .round (.ofSource "div a b=1\np c=2\n" siblings)
        = [lintAt .round (.node ⟨1, some 5⟩)] ∧
      run .round (.ofSource "div a b=1\np c=2\n" turned)
        = [lintAt .round (.node ⟨1, some 7⟩)] := by
  have houtline : (siblings.elements.map ElementView.outline).Perm
      (turned.elements.map ElementView.outline) := by decide
  have hcontent : siblings.elements.map ElementView.content
      = nested.elements.map ElementView.content := by decide
  exact ⟨⟨houtline, (run_of_same_elements _ _ _ _).1 houtline⟩,
    ⟨hcontent, (run_of_same_elements _ _ _ _).2 hcontent⟩, by decide, by decide⟩

end AttributesWrapper
end WrapLint
