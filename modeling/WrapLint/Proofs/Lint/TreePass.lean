import WrapLint.Lint.AttributesWrapper
import WrapLint.Proofs.Template.Walk

/-!
# What the tree pass knows

The tree pass visits the elements of a document and keeps two maps.  This module says, for any
elements visited so far, what is in them.

**Invariant.**  `Scan.Describes`: a line is marked iff an element or an attribute stands on it,
it is loose iff an attribute that is more than shorthand stands on it, and it has a lint iff it
is loose and its text breaks the style.  The lint carries the position of the *first* such
attribute, in the order of the walk.

**Results.**
* `describes_visitElement`: one visit keeps the invariant.
* `describes_ofDocument`: the invariant after the walk over a whole document.
-/

namespace WrapLint

open Template (Position Attribute AttributeList Document ElementView attributesOf)

namespace Template

section Lines

/-- The first attribute on a line that is more than shorthand. -/
def firstLoose? (items : List Attribute) (line : Nat) : Option Attribute :=
  items.find? (fun item => item.line == line && !item.isShorthand)

/-- Some element or some attribute of an element stands on the line. -/
def Occupied (elements : List ElementView) (line : Nat) : Prop :=
  ∃ element ∈ elements, element.position.line = line ∨
    ∃ item ∈ element.list.attributes, item.line = line

/-- Some attribute of an element stands on the line and is more than shorthand. -/
def Loose (elements : List ElementView) (line : Nat) : Prop :=
  ∃ element ∈ elements, ∃ item ∈ element.list.attributes,
    item.line = line ∧ item.isShorthand = false

/-- A line of a document that only elements and shorthand stand on: some element or some
attribute of an element is there, and every such attribute is shorthand. -/
def Document.Exempt (document : Document) (line : Nat) : Prop :=
  Occupied document.elements line ∧
    ∀ element ∈ document.elements, ∀ item ∈ element.list.attributes,
      item.line = line → item.isShorthand = true

instance (elements : List ElementView) (line : Nat) : Decidable (Occupied elements line) :=
  inferInstanceAs (Decidable (∃ element ∈ elements, element.position.line = line ∨
    ∃ item ∈ element.list.attributes, item.line = line))

instance (elements : List ElementView) (line : Nat) : Decidable (Loose elements line) :=
  inferInstanceAs (Decidable (∃ element ∈ elements, ∃ item ∈ element.list.attributes,
    item.line = line ∧ item.isShorthand = false))

instance (document : Document) (line : Nat) : Decidable (document.Exempt line) :=
  inferInstanceAs (Decidable (Occupied document.elements line ∧
    ∀ element ∈ document.elements, ∀ item ∈ element.list.attributes,
      item.line = line → item.isShorthand = true))

theorem firstLoose?_append (xs ys : List Attribute) (line : Nat) :
    firstLoose? (xs ++ ys) line = (firstLoose? xs line).or (firstLoose? ys line) :=
  List.find?_append

theorem isSome_firstLoose? (items : List Attribute) (line : Nat) :
    (firstLoose? items line).isSome = true ↔
      ∃ item ∈ items, item.line = line ∧ item.isShorthand = false := by
  simp [firstLoose?, List.find?_isSome]

/-- The first attribute on a line that is more than shorthand stands on that line. -/
theorem line_of_firstLoose? {items : List Attribute} {line : Nat} {item : Attribute}
    (h : firstLoose? items line = some item) : item.line = line := by
  have hfound := List.find?_some h
  rw [Bool.and_eq_true, beq_iff_eq] at hfound
  exact hfound.1

theorem occupied_append (xs ys : List ElementView) (line : Nat) :
    Occupied (xs ++ ys) line ↔ Occupied xs line ∨ Occupied ys line := by
  simp [Occupied, or_and_right, exists_or]

theorem loose_append (xs ys : List ElementView) (line : Nat) :
    Loose (xs ++ ys) line ↔ Loose xs line ∨ Loose ys line := by
  simp [Loose, or_and_right, exists_or]

theorem occupied_singleton (element : ElementView) (line : Nat) :
    Occupied [element] line ↔
      element.position.line = line ∨ ∃ item ∈ element.list.attributes, item.line = line := by
  simp [Occupied]

theorem attributesOf_append (xs ys : List ElementView) :
    attributesOf (xs ++ ys) = attributesOf xs ++ attributesOf ys :=
  List.flatMap_append

theorem attributesOf_singleton (element : ElementView) :
    attributesOf [element] = element.list.attributes :=
  List.flatMap_singleton _ element

/-- Elements have a first attribute that is more than shorthand on a line iff they have one. -/
theorem isSome_firstLoose?_attributesOf (elements : List ElementView) (line : Nat) :
    (firstLoose? (attributesOf elements) line).isSome = true ↔ Loose elements line := by
  rw [isSome_firstLoose?]
  simp only [attributesOf, List.mem_flatMap, Loose]
  constructor
  · rintro ⟨item, ⟨element, he, hitem⟩, h⟩
    exact ⟨element, he, item, hitem, h⟩
  · rintro ⟨element, he, item, hitem, h⟩
    exact ⟨item, ⟨element, he, hitem⟩, h⟩

theorem firstLoose?_eq_none_iff_not_loose (elements : List ElementView) (line : Nat) :
    firstLoose? (attributesOf elements) line = none ↔ ¬ Loose elements line := by
  rw [← isSome_firstLoose?_attributesOf, Bool.not_eq_true, Option.isSome_eq_false_iff,
    Option.isNone_iff_eq_none]

/-- A line is exempt iff something stands on it and nothing on it is more than shorthand. -/
theorem Document.exempt_iff_not_loose (document : Document) (line : Nat) :
    document.Exempt line ↔
      Occupied document.elements line ∧ ¬ Loose document.elements line := by
  simp [Document.Exempt, Loose]

theorem Document.exempt_iff (document : Document) (line : Nat) :
    document.Exempt line ↔
      Occupied document.elements line ∧
        firstLoose? (attributesOf document.elements) line = none := by
  rw [Document.exempt_iff_not_loose, firstLoose?_eq_none_iff_not_loose]

/-- An attribute that is more than shorthand stands on the line like any other. -/
theorem Loose.occupied {elements : List ElementView} {line : Nat} (h : Loose elements line) :
    Occupied elements line := by
  obtain ⟨element, he, item, hitem, hline, -⟩ := h
  exact ⟨element, he, Or.inr ⟨item, hitem, hline⟩⟩

end Lines

end Template

open Template (Occupied firstLoose? isSome_firstLoose?)

namespace AttributesWrapper
namespace Scan

section Marks

/-- Marking an element changes whether there is a mark only on its own line. -/
theorem isSome_get?_markElement (loose : LineMap Bool) (line n : Nat) :
    ((markElement loose line).get? n).isSome = true ↔
      (loose.get? n).isSome = true ∨ line = n := by
  unfold markElement
  split
  · rename_i hmarked
    rw [LineMap.contains] at hmarked
    constructor
    · exact Or.inl
    · rintro (h | rfl)
      · exact h
      · exact hmarked
  · rw [LineMap.get?_insert]
    by_cases hn : n = line
    · simp [hn]
    · simp [hn, Ne.symm hn]

/-- Marking an element makes no line loose and none tight. -/
theorem get?_markElement_eq_true (loose : LineMap Bool) (line n : Nat) :
    (markElement loose line).get? n = some true ↔ loose.get? n = some true := by
  unfold markElement
  split
  · exact Iff.rfl
  · rename_i hmarked
    rw [LineMap.contains, Bool.not_eq_true, Option.isSome_eq_false_iff,
      Option.isNone_iff_eq_none] at hmarked
    rw [LineMap.get?_insert]
    by_cases hn : n = line
    · simp [hn, hmarked]
    · simp [hn]

theorem isSome_get?_markAttribute (loose : LineMap Bool) (item : Attribute) (n : Nat) :
    ((markAttribute loose item).get? n).isSome = true ↔
      (loose.get? n).isSome = true ∨ item.line = n := by
  rw [markAttribute, LineMap.get?_insert]
  by_cases hn : n = item.line
  · simp [hn]
  · simp [hn, Ne.symm hn]

theorem get?_markAttribute_eq_true (loose : LineMap Bool) (item : Attribute) (n : Nat) :
    (markAttribute loose item).get? n = some true ↔
      loose.get? n = some true ∨ item.line = n ∧ item.isShorthand = false := by
  rw [markAttribute, LineMap.get?_insert]
  by_cases hn : n = item.line
  · subst hn
    cases hloose : loose.get? item.line with
    | none => simp
    | some b => simp
  · simp [hn, Ne.symm hn]

theorem isSome_get?_foldl_markAttribute (items : List Attribute) (loose : LineMap Bool)
    (n : Nat) :
    ((items.foldl markAttribute loose).get? n).isSome = true ↔
      (loose.get? n).isSome = true ∨ ∃ item ∈ items, item.line = n := by
  induction items generalizing loose with
  | nil => simp
  | cons item items ih =>
      rw [List.foldl_cons, ih, isSome_get?_markAttribute]
      simp [or_assoc]

theorem get?_foldl_markAttribute_eq_true (items : List Attribute) (loose : LineMap Bool)
    (n : Nat) :
    (items.foldl markAttribute loose).get? n = some true ↔
      loose.get? n = some true ∨
        ∃ item ∈ items, item.line = n ∧ item.isShorthand = false := by
  induction items generalizing loose with
  | nil => simp
  | cons item items ih =>
      rw [List.foldl_cons, ih, get?_markAttribute_eq_true]
      simp [or_assoc]

end Marks

section Lints

variable (style : Style) (document : Document)

/-- The lint of an attribute. -/
def lintOf (item : Attribute) : Lint :=
  lintAt style (.node item.position)

/-- An attribute gives its line a lint if the line breaks the style and has none yet. -/
theorem get?_checkAttribute (lints : LineMap Lint) (item : Attribute) (n : Nat) :
    (checkAttribute style document lints item).get? n =
      (lints.get? n).or
        (if lineViolates style document n = true ∧ item.line = n then some (lintOf style item)
          else none) := by
  unfold checkAttribute
  split
  · rename_i h
    simp only [Bool.or_eq_true, Bool.not_eq_true', LineMap.contains] at h
    cases hlint : lints.get? n with
    | some lint => rfl
    | none =>
        have hnot : ¬ (lineViolates style document n = true ∧ item.line = n) := by
          rintro ⟨hviolates, rfl⟩
          simp [hlint, hviolates] at h
        rw [if_neg hnot]
        rfl
  · rename_i h
    simp only [Bool.or_eq_true, Bool.not_eq_true', not_or, Bool.not_eq_true,
      Bool.not_eq_false, LineMap.contains, Option.isSome_eq_false_iff,
      Option.isNone_iff_eq_none] at h
    rw [LineMap.get?_insert]
    by_cases hn : n = item.line
    · subst hn
      simp [h.1, h.2, lintOf]
    · simp [hn, Ne.symm hn]

/-- Of several attributes on a line that breaks the style, the first gives it its lint. -/
theorem get?_foldl_checkAttribute (items : List Attribute) (lints : LineMap Lint) (n : Nat) :
    (items.foldl (checkAttribute style document) lints).get? n =
      (lints.get? n).or
        (if lineViolates style document n = true then
          (items.find? (fun item => item.line == n)).map (lintOf style) else none) := by
  induction items generalizing lints with
  | nil => simp
  | cons item items ih =>
      rw [List.foldl_cons, ih, get?_checkAttribute, Option.or_assoc]
      congr 1
      by_cases hviolates : lineViolates style document n = true
      · by_cases hn : item.line = n
        · simp [hviolates, hn]
        · have hne : (item.line == n) = false := by simpa using hn
          simp [hviolates, hn]
      · simp [hviolates]

end Lints

section Invariant

variable (style : Style) (document : Document)

/-- What the two maps hold once these elements are visited. -/
structure Describes (visited : List ElementView) (scan : Scan) : Prop where
  marked : ∀ n, (scan.loose.get? n).isSome = true ↔ Occupied visited n
  loose : ∀ n, scan.loose.get? n = some true ↔
    (firstLoose? (attributesOf visited) n).isSome = true
  lints : ∀ n, scan.lints.get? n =
    if lineViolates style document n = true then
      (firstLoose? (attributesOf visited) n).map (lintOf style) else none

/-- An element with only shorthand needs no case of its own: it has no attribute to check. -/
theorem visitElement_eq (position : Position) (list : AttributeList) (scan : Scan) :
    visitElement style document position list scan =
      ⟨list.attributes.foldl markAttribute (markElement scan.loose position.line),
        (list.attributes.filter (fun item => !item.isShorthand)).foldl
          (checkAttribute style document) scan.lints⟩ := by
  unfold visitElement
  by_cases h : list.hasOnlyShorthand = true
  · have hnil : list.attributes.filter (fun item => !item.isShorthand) = [] := by
      rw [List.filter_eq_nil_iff]
      intro item hitem
      simpa using List.all_eq_true.1 h item hitem
    simp [h, hnil]
  · simp [h]

theorem describes_start : Describes style document [] start where
  marked := fun n => by simp [start, Occupied]
  loose := fun n => by simp [start, attributesOf, firstLoose?]
  lints := fun n => by simp [start, attributesOf, firstLoose?]

/-- One visit keeps the invariant. -/
theorem describes_visitElement {visited : List ElementView} {scan : Scan}
    (h : Describes style document visited scan) (element : ElementView) :
    Describes style document (visited ++ [element])
      (visitElement style document element.position element.list scan) := by
  rw [visitElement_eq]
  refine ⟨fun n => ?_, fun n => ?_, fun n => ?_⟩
  · rw [isSome_get?_foldl_markAttribute, isSome_get?_markElement, h.marked,
      Template.occupied_append, Template.occupied_singleton, or_assoc]
  · rw [get?_foldl_markAttribute_eq_true, get?_markElement_eq_true, h.loose,
      Template.attributesOf_append, Template.attributesOf_singleton, isSome_firstLoose?,
      isSome_firstLoose?]
    simp [or_and_right, exists_or]
  · rw [get?_foldl_checkAttribute, h.lints, Template.attributesOf_append,
      Template.attributesOf_singleton, Template.firstLoose?_append, List.find?_filter]
    have hfind : (element.list.attributes.find?
        fun item => decide ((!item.isShorthand) = true ∧ (item.line == n) = true))
        = firstLoose? element.list.attributes n := by
      unfold firstLoose?
      congr 1
      funext item
      rw [Bool.decide_and, Bool.decide_eq_true, Bool.decide_eq_true, Bool.and_comm]
    rw [hfind]
    by_cases hviolates : lineViolates style document n = true
    · simp [hviolates, Option.map_or]
    · simp [hviolates]

theorem describes_foldl (elements : List ElementView) {visited : List ElementView} {scan : Scan}
    (h : Describes style document visited scan) :
    Describes style document (visited ++ elements)
      (elements.foldl
        (fun scan element => visitElement style document element.position element.list scan)
        scan) := by
  induction elements generalizing visited scan with
  | nil => simpa using h
  | cons element elements ih =>
      have := ih (describes_visitElement style document h element)
      rwa [List.append_assoc] at this

/-- What the tree pass over a whole document leaves in the two maps. -/
theorem describes_ofDocument :
    Describes style document document.elements (ofDocument style document) := by
  have hwalk : ofDocument style document = document.elements.foldl
      (fun scan element => visitElement style document element.position element.list scan)
      start :=
    document.walk_eq_foldl_elements _ start
  rw [hwalk]
  exact describes_foldl style document document.elements (describes_start style document)

/-- The lines that the text pass leaves out for their mark are the exempt lines. -/
theorem get?_loose_eq_false_iff (n : Nat) :
    (ofDocument style document).loose.get? n = some false ↔ document.Exempt n := by
  have h := describes_ofDocument style document
  have hloose := h.loose n
  rw [Template.Document.exempt_iff, ← h.marked, ← Option.not_isSome_iff_eq_none, ← hloose]
  cases hget : (ofDocument style document).loose.get? n with
  | none => simp
  | some b => simp

end Invariant

end Scan
end AttributesWrapper
end WrapLint
