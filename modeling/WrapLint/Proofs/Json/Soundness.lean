import WrapLint.Json.Basic
import WrapLint.Proofs.Decimal
import Mathlib.Tactic.Common

/-!
# Soundness is a bound on the depth and a condition on the literals

**Definitions.**
* `Everywhere number text`: every number of a value has the one property, every string and
  every name the other.
* `depth`: how deep arrays and objects nest in a value.

**Results.**
* `soundWithin_iff`: a value is sound within a depth if it nests no deeper, its numbers are
  finite and its strings are whole.
-/

namespace WrapLint
namespace Json

mutual

/-- Every number in the value satisfies `number`, every string and every name `text`. -/
def Everywhere (number : Number → Prop) (text : Text → Prop) : Json → Prop
  | .null => True
  | .boolean _ => True
  | .number value => number value
  | .string value => text value
  | .array items => ItemsEverywhere number text items
  | .object members => MembersEverywhere number text members

/-- `Everywhere` for every item of an array. -/
def ItemsEverywhere (number : Number → Prop) (text : Text → Prop) : List Json → Prop
  | [] => True
  | item :: items => Everywhere number text item ∧ ItemsEverywhere number text items

/-- `Everywhere` for every member of an object, names included. -/
def MembersEverywhere (number : Number → Prop) (text : Text → Prop) :
    List (Text × Json) → Prop
  | [] => True
  | (name, value) :: members =>
    text name ∧ Everywhere number text value ∧ MembersEverywhere number text members

end

mutual

/-- How deep arrays and objects nest in the value. -/
def depth : Json → Nat
  | .null => 0
  | .boolean _ => 0
  | .number _ => 0
  | .string _ => 0
  | .array items => itemsDepth items + 1
  | .object members => membersDepth members + 1

/-- The greatest depth of an item. -/
def itemsDepth : List Json → Nat
  | [] => 0
  | item :: items => max (depth item) (itemsDepth items)

/-- The greatest depth of a member's value. -/
def membersDepth : List (Text × Json) → Nat
  | [] => 0
  | (_, value) :: members => max (depth value) (membersDepth members)

end

section Depth

theorem depth_le_membersDepth {members : List (Text × Json)} {member : Text × Json}
    (h : member ∈ members) : member.2.depth ≤ membersDepth members := by
  induction members with
  | nil => cases h
  | cons first members ih =>
      rw [membersDepth]
      rcases List.mem_cons.1 h with rfl | h
      · exact Nat.le_max_left _ _
      · exact Nat.le_trans (ih h) (Nat.le_max_right _ _)

end Depth

section Everywhere

theorem itemsEverywhere_iff {number : Number → Prop} {text : Text → Prop} {items : List Json} :
    ItemsEverywhere number text items ↔ ∀ item ∈ items, item.Everywhere number text := by
  induction items with
  | nil => simp [ItemsEverywhere]
  | cons item items ih => rw [ItemsEverywhere, ih, List.forall_mem_cons]

theorem membersEverywhere_iff {number : Number → Prop} {text : Text → Prop}
    {members : List (Text × Json)} :
    MembersEverywhere number text members
      ↔ ∀ member ∈ members, text member.1 ∧ member.2.Everywhere number text := by
  induction members with
  | nil => simp [MembersEverywhere]
  | cons member members ih =>
      rw [MembersEverywhere, ih, List.forall_mem_cons, and_assoc]

variable {number number' : Number → Prop} {text text' : Text → Prop}

mutual

theorem Everywhere.mono (hnumber : ∀ value, number value → number' value)
    (htext : ∀ value, text value → text' value) :
    ∀ value : Json, value.Everywhere number text → value.Everywhere number' text'
  | .null, _ => trivial
  | .boolean _, _ => trivial
  | .number value, h => hnumber value h
  | .string value, h => htext value h
  | .array items, h => ItemsEverywhere.mono hnumber htext items h
  | .object members, h => MembersEverywhere.mono hnumber htext members h

theorem ItemsEverywhere.mono (hnumber : ∀ value, number value → number' value)
    (htext : ∀ value, text value → text' value) :
    ∀ items : List Json, ItemsEverywhere number text items →
      ItemsEverywhere number' text' items
  | [], _ => trivial
  | item :: items, h =>
      ⟨Everywhere.mono hnumber htext item h.1, ItemsEverywhere.mono hnumber htext items h.2⟩

theorem MembersEverywhere.mono (hnumber : ∀ value, number value → number' value)
    (htext : ∀ value, text value → text' value) :
    ∀ members : List (Text × Json), MembersEverywhere number text members →
      MembersEverywhere number' text' members
  | [], _ => trivial
  | (name, value) :: members, h =>
      ⟨htext name h.1, Everywhere.mono hnumber htext value h.2.1,
        MembersEverywhere.mono hnumber htext members h.2.2⟩

end

end Everywhere

section Sound

/-- Every number fits a double and every string is whole. -/
def Sound (value : Json) : Prop :=
  value.Everywhere (fun number => number.isFinite) (fun text => text.isWhole)

theorem sound_array {items : List Json} : (array items).Sound ↔ ∀ item ∈ items, item.Sound :=
  itemsEverywhere_iff

theorem sound_object {members : List (Text × Json)} :
    (object members).Sound ↔ ∀ member ∈ members, member.1.isWhole ∧ member.2.Sound :=
  membersEverywhere_iff

theorem Number.isFinite_integer {n : Nat} (negative : Bool) (h : n < UInt64.size) :
    (Number.integer negative n).isFinite := by
  rw [Number.isFinite, Decimal.ofDigits_toDigits h, Decimal.productOverflows_eq_false h]
  rfl

variable {limit : Nat}

/-- One more container around values that nest within one level less. -/
theorem pos_and_iff_succ_le {inner : Nat} {inside sound : Prop}
    (h : inside ↔ inner ≤ limit - 1 ∧ sound) :
    0 < limit ∧ inside ↔ inner + 1 ≤ limit ∧ sound := by
  rw [h]
  constructor
  · rintro ⟨hpos, hle, hsound⟩
    exact ⟨by omega, hsound⟩
  · rintro ⟨hle, hsound⟩
    exact ⟨by omega, by omega, hsound⟩

mutual

/-- A value is sound within a depth if it nests no deeper and its literals are sound. -/
theorem soundWithin_iff (limit : Nat) (value : Json) :
    value.soundWithin limit = true ↔ value.depth ≤ limit ∧ value.Sound := by
  match value with
  | .null => simp [soundWithin, depth, Sound, Everywhere]
  | .boolean _ => simp [soundWithin, depth, Sound, Everywhere]
  | .number _ => simp [soundWithin, depth, Sound, Everywhere]
  | .string _ => simp [soundWithin, depth, Sound, Everywhere]
  | .array items =>
      rw [soundWithin, Bool.and_eq_true, decide_eq_true_iff, depth]
      exact pos_and_iff_succ_le (itemsSoundWithin_iff (limit - 1) items)
  | .object members =>
      rw [soundWithin, Bool.and_eq_true, decide_eq_true_iff, depth]
      exact pos_and_iff_succ_le (membersSoundWithin_iff (limit - 1) members)

theorem itemsSoundWithin_iff (limit : Nat) (items : List Json) :
    itemsSoundWithin limit items = true ↔ itemsDepth items ≤ limit ∧
      ItemsEverywhere (fun number => number.isFinite) (fun text => text.isWhole) items := by
  match items with
  | [] => simp [itemsSoundWithin, itemsDepth, ItemsEverywhere]
  | item :: items =>
      have hitem := soundWithin_iff limit item
      have hitems := itemsSoundWithin_iff limit items
      rw [itemsSoundWithin, Bool.and_eq_true, hitem, hitems, itemsDepth, Nat.max_le,
        ItemsEverywhere]
      exact and_and_and_comm

theorem membersSoundWithin_iff (limit : Nat) (members : List (Text × Json)) :
    membersSoundWithin limit members = true ↔ membersDepth members ≤ limit ∧
      MembersEverywhere (fun number => number.isFinite) (fun text => text.isWhole)
        members := by
  match members with
  | [] => simp [membersSoundWithin, membersDepth, MembersEverywhere]
  | (name, value) :: members =>
      have hvalue := soundWithin_iff limit value
      have hmembers := membersSoundWithin_iff limit members
      rw [membersSoundWithin, Bool.and_eq_true, Bool.and_eq_true, hvalue, hmembers,
        membersDepth, Nat.max_le, MembersEverywhere, Sound]
      constructor
      · rintro ⟨⟨hname, hdepth, hsound⟩, hdepths, hsounds⟩
        exact ⟨⟨hdepth, hdepths⟩, hname, hsound, hsounds⟩
      · rintro ⟨⟨hdepth, hdepths⟩, hname, hsound, hsounds⟩
        exact ⟨⟨hname, hdepth, hsound⟩, hdepths, hsounds⟩

end

end Sound

end Json
end WrapLint
