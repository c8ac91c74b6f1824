import WrapLint.Proofs.Template.Members

/-!
# Faults of nodes

The value of a node has a fault if a member is missing, repeated, `null` or of the wrong sort.
Nothing is put in the place of a faulty member: the value is read as no node at all.

**The kind decides.**  Which members must be there and which may not be repeated or `null` hangs
on the kind, so a value has at most one kind.  The root of a document names its kind by a word;
below it the place of the word among the kinds will do.

**Results.**
* `Node.filled_of_givenBy`, `Node.exists_required`: what the members of a node are like.
* `Node.not_alone_of_faulty`: a value with a fault is no node.
-/

namespace WrapLint

namespace Json

/-- An integer that 64 bits hold, written without a sign. -/
def IsNatural (value : Json) : Prop :=
  ∃ n < UInt64.size, value = .ofNat n

theorem eq_ofString_of_text? {value : Json} {text : String} (h : value.text? = some text) :
    value = .ofString text := by
  unfold text? at h
  split at h
  · rw [← Option.some.inj h]
    rfl
  · cases h

theorem lt_and_eq_ofNat_of_natural? {value : Json} {n : Nat} (h : value.natural? = some n) :
    n < UInt64.size ∧ value = .ofNat n := by
  unfold natural? at h
  split at h
  · split at h
    · rename_i hlt
      obtain rfl := Option.some.inj h
      exact ⟨hlt, rfl⟩
    · cases h
  · cases h

end Json

namespace Template

open Json (Text member? required?)

/-- The names of the members that a node of this kind is read from. -/
def fieldsOf : String → List String
  | "element" => ["kind", "tag", "line", "column", "attributes", "children"]
  | "attribute_list" => ["kind", "line", "column", "attributes"]
  | "attribute" => ["kind", "name", "value", "line", "column"]
  | "other" => ["kind", "line", "column", "children"]
  | _ => []

/-- The names of the members that a node of this kind must have. -/
def requiredFieldsOf : String → List String
  | "element" => ["kind", "tag", "line"]
  | "attribute_list" | "other" => ["kind", "line"]
  | "attribute" => ["kind", "name", "value", "line"]
  | _ => []

/-- A value that names a kind: its word or, below the root, its place among the kinds. -/
inductive NamesKind (isRoot : Prop) : Json → String → Prop
  | word {kind : String} (hkind : kind ∈ nodeKinds) : NamesKind isRoot (.ofString kind) kind
  | number {i : Nat} {kind : String} (hbelow : ¬ isRoot) (hkind : nodeKinds[i]? = some kind) :
      NamesKind isRoot (.ofNat i) kind

/-- The members of a value name this kind. -/
def HasKind (isRoot : Prop) (members : List (Text × Json)) (kind : String) : Prop :=
  ∃ value, (.whole "kind", value) ∈ members ∧ NamesKind isRoot value kind

/-- What can be wrong with the members of a node. -/
inductive Faulty (isRoot : Prop) (members : List (Text × Json)) : Prop
  | noLine (h : ∀ member ∈ members, member.1 ≠ .whole "line")
  | noKind (h : ∀ member ∈ members, member.1 ≠ .whole "kind")
  | badLine {value : Json} (hmem : (.whole "line", value) ∈ members) (h : ¬ value.IsNatural)
  | badColumn {value : Json} (hmem : (.whole "column", value) ∈ members) (hnull : value ≠ .null)
      (h : ¬ value.IsNatural)
  | unknownKind {value : Json} (hmem : (.whole "kind", value) ∈ members)
      (h : ∀ kind, ¬ NamesKind isRoot value kind)
  | missing {kind field : String} (hkind : HasKind isRoot members kind)
      (hfield : field ∈ requiredFieldsOf kind) (h : ∀ member ∈ members, member.1 ≠ .whole field)
  | repeated {kind field : String} (hkind : HasKind isRoot members kind)
      (hfield : field ∈ fieldsOf kind)
      (h : 2 ≤ members.countP fun member => member.1 == .whole field)
  | null {kind field : String} (hkind : HasKind isRoot members kind)
      (hfield : field ∈ fieldsOf kind) (hcolumn : field ≠ "column")
      (hmem : (.whole field, .null) ∈ members)

/-- A value is this node by itself: it is read as the node, its strings are whole and its numbers
finite, and at the root its kind is a word. -/
structure Node.Alone (isRoot : Prop) (value : Json) (node : Node) : Prop where
  decode? : Node.decode? value = some node
  sound : value.Sound
  hasKindWord : isRoot → hasKindWord value = true

section Filled

variable {α : Type} {name : String} {members : List (Text × Json)} {value : Json}

/-- The member is not repeated and not `null`. -/
def Filled (name : String) (members : List (Text × Json)) : Prop :=
  ∃ found, member? name members = some found ∧ found ≠ some .null

theorem exists_of_required {read? : Json → Option α} {a : α}
    (h : (required? name members).bind read? = some a) :
    ∃ value, member? name members = some (some value) ∧ read? value = some a := by
  obtain ⟨value, hvalue, hread⟩ := Option.bind_eq_some_iff.1 h
  exact ⟨value, Option.join_eq_some_iff.1 hvalue, hread⟩

theorem filled_of_required {read? : Json → Option α} {a : α} (hnull : read? .null = none)
    (h : (required? name members).bind read? = some a) : Filled name members := by
  obtain ⟨value, hvalue, hread⟩ := exists_of_required h
  refine ⟨some value, hvalue, ?_⟩
  intro heq
  obtain rfl := Option.some.inj heq
  rw [hnull] at hread
  cases hread

theorem filled_of_optional {read? : Option Json → Option α} {a : α}
    (hnull : read? (some .null) = none) (h : (member? name members).bind read? = some a) :
    Filled name members := by
  obtain ⟨found, hfound, hread⟩ := Option.bind_eq_some_iff.1 h
  refine ⟨found, hfound, ?_⟩
  rintro rfl
  rw [hnull] at hread
  cases hread

/-- A member that occurs is the one that is found. -/
theorem eq_of_mem_of_member? {found : Option Json} (h : member? name members = some found)
    (hmem : (.whole name, value) ∈ members) : found = some value := by
  cases found with
  | none => exact absurd rfl (member?_eq_some_none_iff.1 h _ hmem)
  | some other =>
      obtain ⟨before, after, rfl, honly⟩ := exists_split_of_member? h
      rcases List.mem_append.1 hmem with hmem | hmem
      · exact absurd rfl (honly _ (List.mem_append_left _ hmem))
      · rcases List.mem_cons.1 hmem with heq | hmem
        · rw [(Prod.mk.inj heq).2]
        · exact absurd rfl (honly _ (List.mem_append_right _ hmem))

theorem member?_eq_none_of_two_le
    (h : 2 ≤ members.countP fun member => member.1 == .whole name) :
    member? name members = none := by
  rw [List.countP_eq_length_filter] at h
  unfold member?
  split
  · simp_all
  · simp_all
  · rfl

end Filled

section Members

variable {members : List (Text × Json)} {node : Node} {kind field : String} {isRoot : Prop}

theorem Node.exists_position (h : node.GivenBy members) :
    ∃ position, Position.decode? members = some position := by
  cases node with
  | element tag position list children => exact ⟨position, h.2.2.1⟩
  | attributeList list => exact ⟨list.position, (AttributeList.ofMembers?_eq_some_iff.1 h.2).1⟩
  | attr item => exact ⟨item.position, (Attribute.ofMembers?_eq_some_iff.1 h.2).2.2⟩
  | other position children => exact ⟨position, h.2.1⟩

theorem Node.filled_line (h : node.GivenBy members) : Filled "line" members := by
  obtain ⟨position, hposition⟩ := Node.exists_position h
  exact filled_of_required rfl (Position.decode?_eq_some_iff.1 hposition).1

theorem Node.filled_kind (h : node.GivenBy members) : Filled "kind" members := by
  cases node <;> exact filled_of_required rfl h.1

/-- No member of a node is repeated, and none but the column is `null`. -/
theorem Node.filled_of_givenBy (h : node.GivenBy members) (hkind : kindOf? members = some kind) :
    ∀ field ∈ fieldsOf kind, field ≠ "column" → Filled field members := by
  have hfkind := Node.filled_kind h
  have hfline := Node.filled_line h
  cases node with
  | element tag position list children =>
      obtain ⟨hk, htag, -, hlist, hchildren⟩ := h
      obtain rfl := Option.some.inj (hkind.symm.trans hk)
      have hftag : Filled "tag" members := filled_of_required rfl htag
      have hflist : Filled "attributes" members := filled_of_optional rfl hlist
      have hfchildren : Filled "children" members := filled_of_optional rfl hchildren
      simp only [fieldsOf, List.forall_mem_cons]
      exact ⟨fun _ => hfkind, fun _ => hftag, fun _ => hfline, absurd rfl, fun _ => hflist,
        fun _ => hfchildren, nofun⟩
  | attributeList list =>
      obtain ⟨hk, hlist⟩ := h
      obtain rfl := Option.some.inj (hkind.symm.trans hk)
      have hfitems : Filled "attributes" members :=
        filled_of_optional rfl (AttributeList.ofMembers?_eq_some_iff.1 hlist).2
      simp only [fieldsOf, List.forall_mem_cons]
      exact ⟨fun _ => hfkind, fun _ => hfline, absurd rfl, fun _ => hfitems, nofun⟩
  | attr item =>
      obtain ⟨hk, hitem⟩ := h
      obtain rfl := Option.some.inj (hkind.symm.trans hk)
      obtain ⟨hname, hvalue, -⟩ := Attribute.ofMembers?_eq_some_iff.1 hitem
      have hfname : Filled "name" members := filled_of_required rfl hname
      have hfvalue : Filled "value" members := filled_of_required rfl hvalue
      simp only [fieldsOf, List.forall_mem_cons]
      exact ⟨fun _ => hfkind, fun _ => hfname, fun _ => hfvalue, fun _ => hfline, absurd rfl,
        nofun⟩
  | other position children =>
      obtain ⟨hk, -, hchildren⟩ := h
      obtain rfl := Option.some.inj (hkind.symm.trans hk)
      have hfchildren : Filled "children" members := filled_of_optional rfl hchildren
      simp only [fieldsOf, List.forall_mem_cons]
      exact ⟨fun _ => hfkind, fun _ => hfline, absurd rfl, fun _ => hfchildren, nofun⟩

/-- The members that a node must have are there. -/
theorem Node.exists_required (h : node.GivenBy members) (hkind : kindOf? members = some kind) :
    ∀ field ∈ requiredFieldsOf kind, ∃ value, member? field members = some (some value) := by
  obtain ⟨position, hposition⟩ := Node.exists_position h
  obtain ⟨line, hline, -⟩ := exists_of_required (Position.decode?_eq_some_iff.1 hposition).1
  obtain ⟨kindValue, hkindValue, -⟩ := exists_of_required hkind
  cases node with
  | element tag position list children =>
      obtain ⟨hk, htag, -⟩ := h
      obtain rfl := Option.some.inj (hkind.symm.trans hk)
      obtain ⟨tagValue, htagValue, -⟩ := exists_of_required htag
      simp only [requiredFieldsOf, List.forall_mem_cons]
      exact ⟨⟨kindValue, hkindValue⟩, ⟨tagValue, htagValue⟩, ⟨line, hline⟩, nofun⟩
  | attributeList list =>
      obtain rfl := Option.some.inj (hkind.symm.trans h.1)
      simp only [requiredFieldsOf, List.forall_mem_cons]
      exact ⟨⟨kindValue, hkindValue⟩, ⟨line, hline⟩, nofun⟩
  | attr item =>
      obtain ⟨hk, hitem⟩ := h
      obtain rfl := Option.some.inj (hkind.symm.trans hk)
      obtain ⟨hname, hvalue, -⟩ := Attribute.ofMembers?_eq_some_iff.1 hitem
      obtain ⟨name, hname, -⟩ := exists_of_required hname
      obtain ⟨value, hvalue, -⟩ := exists_of_required hvalue
      simp only [requiredFieldsOf, List.forall_mem_cons]
      exact ⟨⟨kindValue, hkindValue⟩, ⟨name, hname⟩, ⟨value, hvalue⟩, ⟨line, hline⟩, nofun⟩
  | other position children =>
      obtain rfl := Option.some.inj (hkind.symm.trans h.1)
      simp only [requiredFieldsOf, List.forall_mem_cons]
      exact ⟨⟨kindValue, hkindValue⟩, ⟨line, hline⟩, nofun⟩

end Members

section Kinds

variable {isRoot : Prop} {value : Json} {members : List (Text × Json)} {node : Node}
  {kind other : String}

theorem NamesKind.unique (h : NamesKind isRoot value kind) (hother : NamesKind isRoot value other) :
    kind = other := by
  cases h with
  | word hkind =>
      cases hother with
      | word => rfl
  | number hbelow hkind =>
      cases hother with
      | number hbelow' hkind' => exact Option.some.inj (hkind.symm.trans hkind')

/-- A value that is read as a kind names it; at the root it has to be a word. -/
theorem namesKind_of_decodeWord? (hkind : decodeWord? nodeKinds value = some kind)
    (hmem : kind ∈ nodeKinds) (hroot : isRoot → value.text?.isSome) :
    NamesKind isRoot value kind := by
  unfold decodeWord? at hkind
  split at hkind
  · rename_i word htext
    obtain rfl := Option.some.inj hkind
    rw [Json.eq_ofString_of_text? htext]
    exact .word hmem
  · rename_i htext
    obtain ⟨i, hi, hkind⟩ := Option.bind_eq_some_iff.1 hkind
    rw [(Json.lt_and_eq_ofNat_of_natural? hi).2]
    refine .number (fun h => ?_) hkind
    rw [htext] at hroot
    exact Bool.false_ne_true (hroot h)

theorem Node.kind_mem_of_givenBy (h : node.GivenBy members) (hkind : kindOf? members = some kind) :
    kind ∈ nodeKinds := by
  have hword : ∀ word ∈ nodeKinds, kindOf? members = some word → kind ∈ nodeKinds := by
    intro word hword hk
    obtain rfl := Option.some.inj (hkind.symm.trans hk)
    exact hword
  cases node <;> exact hword _ (by decide) h.1

/-- The one member `kind` of a node names the kind that the node is read by. -/
theorem Node.Alone.exists_kind (h : Node.Alone isRoot (.object members) node) :
    ∃ value kind, member? "kind" members = some (some value) ∧ kindOf? members = some kind ∧
      NamesKind isRoot value kind := by
  have hgiven := Node.decode?_object_iff.1 h.decode?
  obtain ⟨kind, hkind⟩ : ∃ kind, kindOf? members = some kind := by
    cases node <;> exact ⟨_, hgiven.1⟩
  obtain ⟨value, hvalue, hread⟩ := exists_of_required hkind
  refine ⟨value, kind, hvalue, hkind,
    namesKind_of_decodeWord? hread (Node.kind_mem_of_givenBy hgiven hkind) fun hroot => ?_⟩
  have hword := h.hasKindWord hroot
  rw [Template.hasKindWord, required?, hvalue] at hword
  exact hword

theorem Node.Alone.kindOf?_eq (h : Node.Alone isRoot (.object members) node)
    (hkind : HasKind isRoot members kind) : kindOf? members = some kind := by
  obtain ⟨value, read, hvalue, hread, hnames⟩ := h.exists_kind
  obtain ⟨other, hmem, hother⟩ := hkind
  obtain rfl := Option.some.inj (eq_of_mem_of_member? hvalue hmem)
  rw [hread, hnames.unique hother]

/-- A column that is not `null` is a number. -/
theorem isNatural_of_decodeColumn? {column : Option Nat} (hnull : value ≠ .null)
    (h : decodeColumn? (some value) = some column) : value.IsNatural := by
  rw [decodeColumn?] at h
  · obtain ⟨n, hn, -⟩ := Option.map_eq_some_iff.1 h
    exact ⟨n, Json.lt_and_eq_ofNat_of_natural? hn⟩
  · exact hnull

/-- A value with a fault is no node. -/
theorem Node.not_alone_of_faulty (h : Faulty isRoot members) (node : Node) :
    ¬ Node.Alone isRoot (.object members) node := by
  intro halone
  have hgiven := Node.decode?_object_iff.1 halone.decode?
  obtain ⟨position, hposition⟩ := Node.exists_position hgiven
  obtain ⟨hline, hcolumn⟩ := Position.decode?_eq_some_iff.1 hposition
  obtain ⟨kindValue, kind, hkindValue, hkind, hnames⟩ := halone.exists_kind
  cases h with
  | noLine h =>
      obtain ⟨value, hvalue, -⟩ := exists_of_required hline
      cases (member?_eq_some_none_iff.2 h).symm.trans hvalue
  | noKind h =>
      cases (member?_eq_some_none_iff.2 h).symm.trans hkindValue
  | badLine hmem h =>
      obtain ⟨value, hvalue, hread⟩ := exists_of_required hline
      obtain rfl := Option.some.inj (eq_of_mem_of_member? hvalue hmem)
      exact h ⟨_, Json.lt_and_eq_ofNat_of_natural? hread⟩
  | badColumn hmem hnull h =>
      obtain ⟨found, hfound, hread⟩ := Option.bind_eq_some_iff.1 hcolumn
      obtain rfl := eq_of_mem_of_member? hfound hmem
      exact h (isNatural_of_decodeColumn? hnull hread)
  | unknownKind hmem h =>
      obtain rfl := Option.some.inj (eq_of_mem_of_member? hkindValue hmem)
      exact h kind hnames
  | missing hother hfield h =>
      obtain rfl := Option.some.inj (hkind.symm.trans (halone.kindOf?_eq hother))
      obtain ⟨value, hvalue⟩ := Node.exists_required hgiven hkind _ hfield
      cases (member?_eq_some_none_iff.2 h).symm.trans hvalue
  | @repeated other field hother hfield h =>
      have hnone := member?_eq_none_of_two_le h
      obtain rfl := Option.some.inj (hkind.symm.trans (halone.kindOf?_eq hother))
      by_cases hcolumn' : field = "column"
      · subst hcolumn'
        obtain ⟨found, hfound, -⟩ := Option.bind_eq_some_iff.1 hcolumn
        cases hnone.symm.trans hfound
      · obtain ⟨found, hfound, -⟩ := Node.filled_of_givenBy hgiven hkind field hfield hcolumn'
        cases hnone.symm.trans hfound
  | null hother hfield hcolumn hmem =>
      obtain rfl := Option.some.inj (hkind.symm.trans (halone.kindOf?_eq hother))
      obtain ⟨found, hfound, hnull⟩ := Node.filled_of_givenBy hgiven hkind _ hfield hcolumn
      exact hnull (eq_of_mem_of_member? hfound hmem)

end Kinds

end Template
end WrapLint
