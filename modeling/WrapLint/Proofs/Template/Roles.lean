import WrapLint.Proofs.Template.Faults

/-!
# Values whose members are rearranged

The members of every object in a value may stand in another order, and members that nobody reads
may have been added.

**Roles.**  Whether a member may be added hangs on what the object stands for: the type of an
attribute's value may be an object whose only member has the type as its name, and another member
beside that one is no longer ignored.  `Role` tells such objects from all others.

**Results.**
* `Rearranged.foundAgain`: in a rearranged object every member that is read is found again.
* `FoundAgain.required`, `FoundAgain.optional`: what is read from it is read again.
* `Rearranged.sound`: a rearranged value stays sound.
-/

namespace WrapLint
namespace Template

open Json (Text member? required?)

section Roles

/-- What a value in a document stands for. -/
inductive Role where
  | document
  | node
  | list
  | attribute
  | value
  | type
  | ignored
  deriving DecidableEq

/-- What the items of an array stand for. -/
def Role.item : Role → Role
  | .document => .node
  | role => role

/-- What a member of a node of this kind stands for. -/
def Role.ofNodeMember : String → String → Role
  | "element", "attributes" => .list
  | "attribute_list", "attributes" => .attribute
  | "element", "children" | "other", "children" => .node
  | "attribute", "value" => .value
  | _, _ => .ignored

/-- What a member of an object stands for. -/
def Role.member (members : List (Text × Json)) : Role → Text → Role
  | .document, .whole "root" => .node
  | .node, .whole name =>
    match kindOf? members with
    | some kind => ofNodeMember kind name
    | none => .ignored
  | .list, .whole "attributes" => .attribute
  | .attribute, .whole "value" => .value
  | .value, .whole "type" => .type
  -- what stands inside the object that gives a type belongs to the type
  | .type, _ => .type
  | _, _ => .ignored

end Roles

section Relation

/-- The names of the members that a document is read from. -/
def knownNames : List String :=
  ["source", "root", "kind", "tag", "line", "column", "attributes", "children", "name", "value",
    "type"]

/-- Members that nobody reads: their names are not known, and their values are plain. -/
def Unread (added : List (Text × Json)) : Prop :=
  ∀ member ∈ added, member.1.isWhole ∧ (∀ name ∈ knownNames, member.1 ≠ .whole name) ∧
    member.2.Plain

mutual

/-- The second value is the first one with the members of its objects in another order, and with
members added that nobody reads to objects of the roles to which they may be added. -/
inductive Rearranged (mayAdd : Role → Prop) : Role → Json → Json → Prop
  | same {role : Role} {value : Json} : Rearranged mayAdd role value value
  | array {role : Role} {items others : List Json}
      (hitems : ItemsRearranged mayAdd role.item items others) :
      Rearranged mayAdd role (.array items) (.array others)
  | object {role : Role} {members kept added others : List (Text × Json)}
      (hkept : MembersRearranged mayAdd (role.member members) members kept)
      (hadded : Unread added) (hmay : added = [] ∨ mayAdd role)
      (hperm : others.Perm (kept ++ added)) :
      Rearranged mayAdd role (.object members) (.object others)

/-- Every item is rearranged. -/
inductive ItemsRearranged (mayAdd : Role → Prop) : Role → List Json → List Json → Prop
  | nil {role : Role} : ItemsRearranged mayAdd role [] []
  | cons {role : Role} {item other : Json} {items others : List Json}
      (hitem : Rearranged mayAdd role item other)
      (hitems : ItemsRearranged mayAdd role items others) :
      ItemsRearranged mayAdd role (item :: items) (other :: others)

/-- The value of every member is rearranged. -/
inductive MembersRearranged (mayAdd : Role → Prop) :
    (Text → Role) → List (Text × Json) → List (Text × Json) → Prop
  | nil {roles : Text → Role} : MembersRearranged mayAdd roles [] []
  | cons {roles : Text → Role} {name : Text} {value other : Json}
      {members others : List (Text × Json)} (hvalue : Rearranged mayAdd (roles name) value other)
      (hmembers : MembersRearranged mayAdd roles members others) :
      MembersRearranged mayAdd roles ((name, value) :: members) ((name, other) :: others)

end

end Relation

section Found

variable {mayAdd : Role → Prop} {role : Role} {roles : Text → Role} {name : String}
  {members kept added others before after : List (Text × Json)} {items : List Json}
  {value other : Json}

theorem MembersRearranged.refl (members : List (Text × Json)) :
    MembersRearranged mayAdd roles members members := by
  induction members with
  | nil => exact .nil
  | cons member members ih => exact .cons .same ih

theorem ItemsRearranged.refl (items : List Json) : ItemsRearranged mayAdd role items items := by
  induction items with
  | nil => exact .nil
  | cons item items ih => exact .cons .same ih

theorem MembersRearranged.map_fst_eq (h : MembersRearranged mayAdd roles members kept) :
    kept.map Prod.fst = members.map Prod.fst := by
  induction members generalizing kept with
  | nil =>
      cases h
      rfl
  | cons member members ih =>
      cases h with
      | cons hvalue hmembers => rw [List.map_cons, List.map_cons, ih hmembers]

/-- The names are kept, and with them what is known of every name. -/
theorem MembersRearranged.forall_name {p : Text → Prop}
    (h : MembersRearranged mayAdd roles members kept) (hp : ∀ member ∈ members, p member.1) :
    ∀ member ∈ kept, p member.1 := by
  intro member hmember
  have hname : member.1 ∈ members.map Prod.fst := by
    rw [← h.map_fst_eq]
    exact List.mem_map_of_mem hmember
  obtain ⟨original, horiginal, heq⟩ := List.mem_map.1 hname
  rw [← heq]
  exact hp original horiginal

theorem MembersRearranged.exists_split {name : Text}
    (h : MembersRearranged mayAdd roles (before ++ (name, value) :: after) kept) :
    ∃ before' other after', kept = before' ++ (name, other) :: after' ∧
      MembersRearranged mayAdd roles before before' ∧
      Rearranged mayAdd (roles name) value other ∧
      MembersRearranged mayAdd roles after after' := by
  induction before generalizing kept with
  | nil =>
      cases h with
      | cons hvalue hmembers => exact ⟨[], _, _, rfl, .nil, hvalue, hmembers⟩
  | cons member before ih =>
      cases h with
      | cons hfirst hmembers =>
          obtain ⟨before', other, after', rfl, hbefore, hvalue, hafter⟩ := ih hmembers
          exact ⟨_ :: before', other, after', rfl, .cons hfirst hbefore, hvalue, hafter⟩

/-- Members that nobody reads do not change what the known members are. -/
theorem member?_append_unread (hadded : Unread added) (hname : name ∈ knownNames) :
    member? name (kept ++ added) = member? name kept := by
  apply member?_congr
  have hnone : added.filter (fun member => member.1 == .whole name) = [] := by
    rw [List.filter_eq_nil_iff]
    intro member hmember
    simpa using (hadded member hmember).2.1 name hname
  rw [List.filter_append, hnone, List.append_nil]

/-- Every known member is found again, its value rearranged. -/
def FoundAgain (mayAdd : Role → Prop) (roles : Text → Role)
    (members others : List (Text × Json)) : Prop :=
  ∀ name ∈ knownNames, ∀ found, member? name members = some found →
    ∃ again, member? name others = some again ∧
      Option.Rel (Rearranged mayAdd (roles (.whole name))) found again

theorem MembersRearranged.foundAgain (h : MembersRearranged mayAdd roles members kept) :
    FoundAgain mayAdd roles members kept := by
  intro name _ found hfound
  cases found with
  | none =>
      rw [member?_eq_some_none_iff] at hfound
      have hnone : ∀ member ∈ kept, member.1 ≠ .whole name :=
        h.forall_name (p := (· ≠ .whole name)) hfound
      exact ⟨none, member?_eq_some_none_iff.2 hnone, .none⟩
  | some value =>
      obtain ⟨before, after, rfl, honly⟩ := exists_split_of_member? hfound
      obtain ⟨before', other, after', rfl, hbefore, hvalue, hafter⟩ := h.exists_split
      rw [List.forall_mem_append] at honly
      refine ⟨some other, member?_of_split ?_, .some hvalue⟩
      rw [List.forall_mem_append]
      exact ⟨hbefore.forall_name (p := (· ≠ .whole name)) honly.1,
        hafter.forall_name (p := (· ≠ .whole name)) honly.2⟩

/-- In a rearranged object the known members are found again. -/
theorem Rearranged.foundAgain (h : Rearranged mayAdd role (.object members) other) :
    ∃ others, other = .object others ∧
      FoundAgain mayAdd (role.member members) members others := by
  cases h with
  | same => exact ⟨members, rfl, (MembersRearranged.refl members).foundAgain⟩
  | @object _ _ kept added others hkept hadded hmay hperm =>
      refine ⟨others, rfl, ?_⟩
      intro name hname
      rw [member?_perm hperm, member?_append_unread hadded hname]
      exact hkept.foundAgain name hname

theorem Rearranged.forall_isWhole (h : Rearranged mayAdd role (.object members) other)
    (hwhole : ∀ member ∈ members, member.1.isWhole) :
    ∀ others, other = .object others → ∀ member ∈ others, member.1.isWhole := by
  rintro others rfl member hmember
  cases h with
  | same => exact hwhole member hmember
  | object hkept hadded hmay hperm =>
      rcases List.mem_append.1 (hperm.mem_iff.1 hmember) with hmember | hmember
      · exact hkept.forall_name (p := fun name => name.isWhole) hwhole member hmember
      · exact (hadded member hmember).1

/-- Where no member may be added, the members are those that are kept. -/
theorem Rearranged.exists_kept (hmay : ¬ mayAdd role)
    (h : Rearranged mayAdd role (.object members) other) :
    ∃ kept others, other = .object others ∧
      MembersRearranged mayAdd (role.member members) members kept ∧ others.Perm kept := by
  cases h with
  | same => exact ⟨members, members, rfl, .refl members, .refl members⟩
  | @object _ _ kept added others hkept hadded hadd hperm =>
      obtain rfl := hadd.resolve_right hmay
      rw [List.append_nil] at hperm
      exact ⟨kept, others, rfl, hkept, hperm⟩

theorem Rearranged.exists_only {name : Text} (hmay : ¬ mayAdd role)
    (h : Rearranged mayAdd role (.object [(name, value)]) other) :
    ∃ value', other = .object [(name, value')] ∧
      Rearranged mayAdd (role.member [(name, value)] name) value value' := by
  obtain ⟨kept, others, rfl, hkept, hperm⟩ := h.exists_kept hmay
  cases hkept with
  | cons hvalue hnone =>
      cases hnone
      rw [List.perm_singleton.1 hperm]
      exact ⟨_, rfl, hvalue⟩

theorem Rearranged.eq_empty (hmay : ¬ mayAdd role)
    (h : Rearranged mayAdd role (.object []) other) : other = .object [] := by
  obtain ⟨kept, others, rfl, hkept, hperm⟩ := h.exists_kept hmay
  cases hkept
  rw [List.perm_nil.1 hperm]

theorem Rearranged.exists_items (h : Rearranged mayAdd role (.array items) other) :
    ∃ others, other = .array others ∧ ItemsRearranged mayAdd role.item items others := by
  cases h with
  | same => exact ⟨items, rfl, .refl items⟩
  | array hitems => exact ⟨_, rfl, hitems⟩

end Found

section Leaves

variable {α : Type} {mayAdd : Role → Prop} {role : Role} {roles : Text → Role} {name : String}
  {members others : List (Text × Json)} {value other : Json} {found again : Option Json} {a : α}

theorem Rearranged.text?_eq (h : Rearranged mayAdd role value other) :
    other.text? = value.text? := by
  cases h <;> rfl

theorem Rearranged.natural?_eq (h : Rearranged mayAdd role value other) :
    other.natural? = value.natural? := by
  cases h <;> rfl

theorem Rearranged.decodeWord?_eq (words : List String) (h : Rearranged mayAdd role value other) :
    decodeWord? words other = decodeWord? words value := by
  rw [decodeWord?, decodeWord?, h.text?_eq, h.natural?_eq]

theorem decodeColumn?_eq_of_rearranged (h : Option.Rel (Rearranged mayAdd role) found again) :
    decodeColumn? again = decodeColumn? found := by
  cases h with
  | none => rfl
  | some h => cases h <;> rfl

theorem AttributeValue.ofParts?_eq_none {kind : String} (htext : value.text? = none)
    (hnull : value ≠ .null) : AttributeValue.ofParts? kind (some value) = none := by
  unfold AttributeValue.ofParts?
  split <;> simp_all

theorem AttributeValue.ofParts?_eq_of_rearranged (kind : String)
    (h : Option.Rel (Rearranged mayAdd role) found again) :
    AttributeValue.ofParts? kind again = AttributeValue.ofParts? kind found := by
  cases h with
  | none => rfl
  | @some value other h =>
      obtain rfl | ⟨htext, hnull⟩ : other = value ∨ value.text? = none ∧ value ≠ .null := by
        cases h with
        | same => exact .inl rfl
        | array _ => exact .inr ⟨rfl, by simp⟩
        | object _ _ _ _ => exact .inr ⟨rfl, by simp⟩
      · rfl
      · have hother : other ≠ .null := by
          rintro rfl
          cases h
          exact hnull rfl
        rw [AttributeValue.ofParts?_eq_none (h.text?_eq.trans htext) hother,
          AttributeValue.ofParts?_eq_none htext hnull]

theorem FoundAgain.required (h : FoundAgain mayAdd roles members others) {read? : Json → Option α}
    (hread : ∀ value other, Rearranged mayAdd (roles (.whole name)) value other →
      read? value = some a → read? other = some a)
    (hvalue : (required? name members).bind read? = some a) (hname : name ∈ knownNames) :
    (required? name others).bind read? = some a := by
  obtain ⟨value, hfound, hvalue⟩ := exists_of_required hvalue
  obtain ⟨again, hagain, hrel⟩ := h name hname _ hfound
  cases hrel with
  | @some _ other hother =>
      rw [required?, hagain]
      exact hread value other hother hvalue

theorem FoundAgain.optional (h : FoundAgain mayAdd roles members others)
    {read? : Option Json → Option α}
    (hread : ∀ found again, Option.Rel (Rearranged mayAdd (roles (.whole name))) found again →
      read? found = some a → read? again = some a)
    (hvalue : (member? name members).bind read? = some a) (hname : name ∈ knownNames) :
    (member? name others).bind read? = some a := by
  obtain ⟨found, hfound, hvalue⟩ := Option.bind_eq_some_iff.1 hvalue
  obtain ⟨again, hagain, hrel⟩ := h name hname _ hfound
  rw [hagain]
  exact hread found again hrel hvalue

/-- A member that may be left out is read again if its value is. -/
theorem FoundAgain.optional_of_role {role : Role} (h : FoundAgain mayAdd roles members others)
    {read? : Option Json → Option α} (hrole : roles (.whole name) = role)
    (hread : ∀ value other, Rearranged mayAdd role value other →
      read? (some value) = some a → read? (some other) = some a)
    (hvalue : (member? name members).bind read? = some a) (hname : name ∈ knownNames) :
    (member? name others).bind read? = some a := by
  refine h.optional (fun found again hrel hfound => ?_) hvalue hname
  rw [hrole] at hrel
  cases hrel with
  | none => exact hfound
  | @some value other hother => exact hread value other hother hfound

theorem FoundAgain.textOf? {text : String} (h : FoundAgain mayAdd roles members others)
    (htext : textOf? name members = some text) (hname : name ∈ knownNames) :
    textOf? name others = some text :=
  h.required (fun _ _ hother hvalue => hother.text?_eq.trans hvalue) htext hname

theorem FoundAgain.kindOf? {kind : String} (h : FoundAgain mayAdd roles members others)
    (hkind : kindOf? members = some kind) : kindOf? others = some kind :=
  h.required (fun _ _ hother hvalue => (hother.decodeWord?_eq _).trans hvalue) hkind (by decide)

theorem FoundAgain.position {position : Position} (h : FoundAgain mayAdd roles members others)
    (hposition : Position.decode? members = some position) :
    Position.decode? others = some position := by
  rw [Position.decode?_eq_some_iff] at hposition ⊢
  constructor
  · exact h.required (fun _ _ hother hvalue => hother.natural?_eq.trans hvalue) hposition.1
      (by decide)
  · exact h.optional (fun _ _ hrel hfound => (decodeColumn?_eq_of_rearranged hrel).trans hfound)
      hposition.2 (by decide)

end Leaves

section Soundness

variable {mayAdd : Role → Prop}

mutual

/-- What is rearranged stays sound.  The recursion is on the first value, which the relation follows
down. -/
theorem Rearranged.sound {role : Role} {other : Json} (value : Json)
    (h : Rearranged mayAdd role value other) (hsound : value.Sound) : other.Sound := by
  match value, h with
  | _, .same => exact hsound
  | .array items, .array hitems =>
      rw [Json.sound_array] at hsound ⊢
      exact ItemsRearranged.sound items hitems hsound
  | .object members, .object hkept hadded _ hperm =>
      rw [Json.sound_object] at hsound ⊢
      intro member hmember
      rcases List.mem_append.1 (hperm.mem_iff.1 hmember) with hmember | hmember
      · exact MembersRearranged.sound members hkept hsound member hmember
      · exact ⟨(hadded member hmember).1, (hadded member hmember).2.2.sound⟩

theorem ItemsRearranged.sound {role : Role} {others : List Json} (items : List Json)
    (h : ItemsRearranged mayAdd role items others) (hsound : ∀ item ∈ items, item.Sound) :
    ∀ item ∈ others, item.Sound := by
  match items, h with
  | _, .nil => exact hsound
  | item :: items, .cons hitem hitems =>
      rw [List.forall_mem_cons] at hsound ⊢
      exact ⟨Rearranged.sound item hitem hsound.1, ItemsRearranged.sound items hitems hsound.2⟩

theorem MembersRearranged.sound {roles : Text → Role} {kept : List (Text × Json)}
    (members : List (Text × Json)) (h : MembersRearranged mayAdd roles members kept)
    (hsound : ∀ member ∈ members, member.1.isWhole ∧ member.2.Sound) :
    ∀ member ∈ kept, member.1.isWhole ∧ member.2.Sound := by
  match members, h with
  | _, .nil => exact hsound
  | (name, value) :: members, .cons hvalue hmembers =>
      rw [List.forall_mem_cons] at hsound ⊢
      exact ⟨⟨hsound.1.1, Rearranged.sound value hvalue hsound.1.2⟩,
        MembersRearranged.sound members hmembers hsound.2⟩

end

end Soundness

end Template
end WrapLint
