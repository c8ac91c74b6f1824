import WrapLint.Proofs.Json.Literals
import WrapLint.Proofs.Json.Soundness

/-!
# Printed values are read back

The printer writes a value in a layout, and the reader gives the same value for that text.

**Approach.**  Between two tokens the reader is a state and a rest of the text.  A state that
awaits a value reads the text of a value and then is the state in which that value is
finished, whatever the stack and the text behind it.  The items and the members of a container
are an induction of the same kind over the rest of the list.

**Results.**
* `State.run_print`: what the reader does with the text of a value.
* `read?_print`: the text of a value is read as that value, in every layout of blanks.
-/

namespace WrapLint
namespace Json

section Steps

variable (state : State) {blanks text rest : List Char}

theorem State.run_eq (text : List Char) :
    state.run text = match text.dropWhile isSpace with
      | [] => state.value?
      | c :: rest =>
        (Token.scan (c :: rest)).bind
          fun (token, rest) => (state.step token).bind fun state => state.run rest := by
  rw [State.run]
  split
  · rename_i htext
    simp only [htext]
  · rename_i c rest htext
    simp only [htext]
    split
    · rename_i hscan
      rw [hscan]
      rfl
    · rename_i token rest' hscan
      rw [hscan, Option.bind_some]
      split
      · rename_i hstep
        rw [hstep]
        rfl
      · rename_i state' hstep
        rw [hstep]
        rfl

/-- Blanks between the tokens change nothing. -/
theorem State.run_blanks (hblanks : ∀ c ∈ blanks, isSpace c) :
    state.run (blanks ++ text) = state.run text := by
  rw [State.run_eq, State.run_eq, List.dropWhile_append_of_pos hblanks]

theorem Token.scan_of_isSpace {c : Char} (hc : isSpace c) : Token.scan (c :: rest) = none := by
  simp only [isSpace, Bool.or_eq_true, beq_iff_eq] at hc
  rcases hc with ((rfl | rfl) | rfl) | rfl <;> rfl

/-- The reader takes one token and goes on in the state after it. -/
theorem State.run_step {next : State} {token : Token}
    (hscan : Token.scan text = some (token, rest)) (hstep : state.step token = some next) :
    state.run text = next.run rest := by
  cases text with
  | nil => cases hscan
  | cons c text =>
      have hc : ¬isSpace c := by
        intro hc
        rw [Token.scan_of_isSpace hc] at hscan
        cases hscan
      rw [State.run_eq, List.dropWhile_cons_of_neg hc]
      simp only [hscan, hstep, Option.bind_some]

/-- A token of one character, with blanks in front of it or behind. -/
theorem State.run_blanks_step {next : State} {token : Token} {c : Char}
    (hscan : Token.scan (c :: rest) = some (token, rest)) (hstep : state.step token = some next)
    (hblanks : ∀ c ∈ blanks, isSpace c) :
    state.run (blanks ++ c :: rest) = next.run rest := by
  rw [State.run_blanks state hblanks]
  exact State.run_step state hscan hstep

theorem State.run_step_blanks {next : State} {token : Token} {c : Char}
    (hscan : Token.scan (c :: (blanks ++ rest)) = some (token, blanks ++ rest))
    (hstep : state.step token = some next) (hblanks : ∀ c ∈ blanks, isSpace c) :
    state.run (c :: (blanks ++ rest)) = next.run rest := by
  rw [State.run_step state hscan hstep]
  exact State.run_blanks next hblanks

end Steps

section Blanks

variable {layout : Layout} {blanks rest : List Char}

/-- A layout in which only blanks stand between the tokens. -/
structure Layout.Blank (layout : Layout) : Prop where
  lineBreak : ∀ depth, ∀ c ∈ layout.lineBreak depth, isSpace c
  afterColon : ∀ c ∈ layout.afterColon, isSpace c

theorem Layout.blank_compact : Layout.compact.Blank := by
  constructor
  · intro _ c hc
    cases hc
  · intro c hc
    cases hc

theorem Layout.blank_pretty : Layout.pretty.Blank := by
  constructor
  · intro depth c hc
    rcases List.mem_cons.mp hc with rfl | hc
    · rfl
    · obtain rfl := List.eq_of_mem_replicate hc
      rfl
  · intro c hc
    obtain rfl := List.mem_singleton.mp hc
    rfl

theorem delimited_blanks (hblanks : ∀ c ∈ blanks, isSpace c) (hrest : Delimited rest) :
    Delimited (blanks ++ rest) := by
  cases blanks with
  | nil => exact hrest
  | cons c blanks => exact Or.inl (hblanks c List.mem_cons_self)

theorem delimited_printItems (depth : Nat) (items : List Json) (hrest : Delimited rest) :
    Delimited (printItems layout depth items ++ rest) := by
  cases items with
  | nil => exact hrest
  | cons item items => exact Or.inr (Or.inl rfl)

theorem delimited_printMembers (depth : Nat) (members : List (Text × Json))
    (hrest : Delimited rest) : Delimited (printMembers layout depth members ++ rest) := by
  cases members with
  | nil => exact hrest
  | cons member members => exact Or.inr (Or.inl rfl)

end Blanks

/-- Every number in the value is one that the reader keeps. -/
def Kept (value : Json) : Prop :=
  value.Everywhere Number.Kept fun _ => True

theorem kept_ofString (text : String) : (ofString text).Kept :=
  trivial

theorem kept_ofNat (n : Nat) : (ofNat n).Kept :=
  trivial

theorem kept_array {items : List Json} : (array items).Kept ↔ ∀ item ∈ items, item.Kept :=
  itemsEverywhere_iff

theorem kept_ofMembers {members : List (String × Json)} :
    (ofMembers members).Kept ↔ ∀ member ∈ members, member.2.Kept := by
  rw [ofMembers, Kept, Everywhere, membersEverywhere_iff, List.forall_mem_map]
  simp only [true_and]
  rfl

/-- The state reads a value next, onto this stack.  It may also be in front of the end of an
array. -/
def State.Awaits (state : State) (stack : List Frame) : Prop :=
  ∀ token, token ≠ .endArray → state.step token = State.begin stack token

theorem State.awaits_expectValue (stack : List Frame) :
    (State.expectValue stack).Awaits stack := by
  intro token _
  cases token <;> rfl

theorem State.awaits_expectFirstItem (stack : List Frame) :
    (State.expectFirstItem stack).Awaits (.items [] :: stack) := by
  intro token htoken
  cases token with
  | endArray => exact absurd rfl htoken
  | _ => rfl

section Run

variable {layout : Layout} {state : State} {stack : List Frame} {blanks text rest : List Char}

/-- A token that is a value by itself finishes that value. -/
theorem State.Awaits.run_leaf (hstate : state.Awaits stack) {token : Token} {value : Json}
    (hscan : Token.scan text = some (token, rest))
    (hbegin : State.begin stack token = some (.finished value stack)) :
    state.run text = (State.finished value stack).run rest := by
  have htoken : token ≠ .endArray := by
    rintro rfl
    cases hbegin
  exact State.run_step state hscan ((hstate token htoken).trans hbegin)

theorem State.Awaits.run_beginArray (hstate : state.Awaits stack) :
    state.run ('[' :: text) = (State.expectFirstItem stack).run text := by
  have hscan : Token.scan ('[' :: text) = some (.beginArray, text) := rfl
  exact State.run_step state hscan (hstate .beginArray nofun)

theorem State.Awaits.run_beginObject (hstate : state.Awaits stack) :
    state.run ('{' :: text) = (State.expectFirstName stack).run text := by
  have hscan : Token.scan ('{' :: text) = some (.beginObject, text) := rfl
  exact State.run_step state hscan (hstate .beginObject nofun)

theorem State.run_emptyArray :
    (State.expectFirstItem stack).run (']' :: rest)
      = (State.finished (.array []) stack).run rest := by
  have hscan : Token.scan (']' :: rest) = some (.endArray, rest) := rfl
  exact State.run_step _ hscan rfl

theorem State.run_emptyObject :
    (State.expectFirstName stack).run ('}' :: rest)
      = (State.finished (.object []) stack).run rest := by
  have hscan : Token.scan ('}' :: rest) = some (.endObject, rest) := rfl
  exact State.run_step _ hscan rfl

/-- The comma after an item, and after a member. -/
theorem State.run_nextItem (value : Json) (done : List Json)
    (hblanks : ∀ c ∈ blanks, isSpace c) :
    (State.finished value (.items done :: stack)).run (',' :: (blanks ++ text))
      = (State.expectValue (.items (value :: done) :: stack)).run text := by
  have hscan : Token.scan (',' :: (blanks ++ text)) = some (.valueSeparator, blanks ++ text) :=
    rfl
  exact State.run_step_blanks _ hscan rfl hblanks

theorem State.run_nextMember (name : Text) (value : Json) (done : List (Text × Json))
    (hblanks : ∀ c ∈ blanks, isSpace c) :
    (State.finished value (.members done name :: stack)).run (',' :: (blanks ++ text))
      = (State.expectName ((name, value) :: done) stack).run text := by
  have hscan : Token.scan (',' :: (blanks ++ text)) = some (.valueSeparator, blanks ++ text) :=
    rfl
  exact State.run_step_blanks _ hscan rfl hblanks

/-- The end of an array after its last item, and of an object after its last member. -/
theorem State.run_endArray (value : Json) (done : List Json)
    (hblanks : ∀ c ∈ blanks, isSpace c) :
    (State.finished value (.items done :: stack)).run (blanks ++ ']' :: rest)
      = (State.finished (.array (value :: done).reverse) stack).run rest := by
  have hscan : Token.scan (']' :: rest) = some (.endArray, rest) := rfl
  exact State.run_blanks_step _ hscan rfl hblanks

theorem State.run_endObject (name : Text) (value : Json) (done : List (Text × Json))
    (hblanks : ∀ c ∈ blanks, isSpace c) :
    (State.finished value (.members done name :: stack)).run (blanks ++ '}' :: rest)
      = (State.finished (.object ((name, value) :: done).reverse) stack).run rest := by
  have hscan : Token.scan ('}' :: rest) = some (.endObject, rest) := rfl
  exact State.run_blanks_step _ hscan rfl hblanks

/-- A name and its colon lead to the value of the member. -/
theorem State.run_name (name : Text) (done : List (Text × Json))
    (hstate : state.step (.string name) = some (.expectSeparator done name stack))
    (hblanks : ∀ c ∈ blanks, isSpace c) :
    state.run (name.print ++ ':' :: (blanks ++ text))
      = (State.expectValue (.members done name :: stack)).run text := by
  have hscan : Token.scan (':' :: (blanks ++ text)) = some (.nameSeparator, blanks ++ text) :=
    rfl
  rw [State.run_step state (Token.scan_text name _) hstate]
  exact State.run_step_blanks _ hscan rfl hblanks

end Run

mutual

/-- The text of a value takes the reader from awaiting a value to having it finished. -/
theorem State.run_print {layout : Layout} (hlayout : layout.Blank) (value : Json)
    (hkept : value.Kept) {state : State} {stack : List Frame} (hstate : state.Awaits stack)
    (depth : Nat) {rest : List Char} (hrest : Delimited rest) :
    state.run (print layout depth value ++ rest) = (State.finished value stack).run rest := by
  match value with
  | .null =>
      rw [print]
      exact hstate.run_leaf (Token.scan_null rest) rfl
  | .boolean true =>
      rw [print]
      exact hstate.run_leaf (Token.scan_true rest) rfl
  | .boolean false =>
      rw [print]
      exact hstate.run_leaf (Token.scan_false rest) rfl
  | .number value =>
      rw [print]
      exact hstate.run_leaf (Token.scan_number hkept hrest) rfl
  | .string value =>
      rw [print]
      exact hstate.run_leaf (Token.scan_text value rest) rfl
  | .array [] =>
      rw [print]
      exact hstate.run_beginArray.trans State.run_emptyArray
  | .array (item :: items) =>
      have hbreak := hlayout.lineBreak depth
      have hend : Delimited (layout.lineBreak depth ++ ']' :: rest) :=
        delimited_blanks hbreak (Or.inr (Or.inr (Or.inl rfl)))
      rw [print]
      simp only [List.cons_append, List.append_assoc, List.nil_append]
      rw [hstate.run_beginArray, State.run_blanks _ (hlayout.lineBreak (depth + 1)),
        State.run_print hlayout item hkept.1 (State.awaits_expectFirstItem stack) (depth + 1)
          (delimited_printItems (depth + 1) items hend),
        State.run_printItems hlayout items hkept.2 item [] (depth + 1) hbreak]
      rfl
  | .object [] =>
      rw [print]
      exact hstate.run_beginObject.trans State.run_emptyObject
  | .object ((name, value) :: members) =>
      have hbreak := hlayout.lineBreak depth
      have hend : Delimited (layout.lineBreak depth ++ '}' :: rest) :=
        delimited_blanks hbreak (Or.inr (Or.inr (Or.inr rfl)))
      rw [print]
      simp only [List.cons_append, List.append_assoc, List.nil_append]
      rw [hstate.run_beginObject, State.run_blanks _ (hlayout.lineBreak (depth + 1)),
        State.run_name name [] rfl hlayout.afterColon,
        State.run_print hlayout value hkept.2.1 (State.awaits_expectValue _) (depth + 1)
          (delimited_printMembers (depth + 1) members hend),
        State.run_printMembers hlayout members hkept.2.2 name value [] (depth + 1) hbreak]
      rfl

/-- The items after the first go to the array on top of the stack, which then ends. -/
theorem State.run_printItems {layout : Layout} (hlayout : layout.Blank) (items : List Json)
    (hkept : ItemsEverywhere Number.Kept (fun _ => True) items) (value : Json)
    (done : List Json) {stack : List Frame} (depth : Nat) {blanks rest : List Char}
    (hblanks : ∀ c ∈ blanks, isSpace c) :
    (State.finished value (.items done :: stack)).run
        (printItems layout depth items ++ (blanks ++ ']' :: rest))
      = (State.finished (.array ((value :: done).reverse ++ items)) stack).run rest := by
  match items with
  | [] =>
      rw [printItems, List.nil_append, List.append_nil]
      exact State.run_endArray value done hblanks
  | item :: items =>
      have hend : Delimited (blanks ++ ']' :: rest) :=
        delimited_blanks hblanks (Or.inr (Or.inr (Or.inl rfl)))
      rw [printItems]
      simp only [List.cons_append, List.append_assoc]
      rw [State.run_nextItem value done (hlayout.lineBreak depth),
        State.run_print hlayout item hkept.1 (State.awaits_expectValue _) depth
          (delimited_printItems depth items hend),
        State.run_printItems hlayout items hkept.2 item (value :: done) depth hblanks]
      simp

/-- The members after the first go to the object on top of the stack, which then ends. -/
theorem State.run_printMembers {layout : Layout} (hlayout : layout.Blank)
    (members : List (Text × Json))
    (hkept : MembersEverywhere Number.Kept (fun _ => True) members) (name : Text) (value : Json)
    (done : List (Text × Json)) {stack : List Frame} (depth : Nat) {blanks rest : List Char}
    (hblanks : ∀ c ∈ blanks, isSpace c) :
    (State.finished value (.members done name :: stack)).run
        (printMembers layout depth members ++ (blanks ++ '}' :: rest))
      = (State.finished (.object (((name, value) :: done).reverse ++ members)) stack).run
          rest := by
  match members with
  | [] =>
      rw [printMembers, List.nil_append, List.append_nil]
      exact State.run_endObject name value done hblanks
  | (nextName, next) :: members =>
      have hend : Delimited (blanks ++ '}' :: rest) :=
        delimited_blanks hblanks (Or.inr (Or.inr (Or.inr rfl)))
      rw [printMembers]
      simp only [List.cons_append, List.append_assoc]
      rw [State.run_nextMember name value done (hlayout.lineBreak depth),
        State.run_name nextName _ rfl hlayout.afterColon,
        State.run_print hlayout next hkept.2.1 (State.awaits_expectValue _) depth
          (delimited_printMembers depth members hend),
        State.run_printMembers hlayout members hkept.2.2 nextName next ((name, value) :: done)
          depth hblanks]
      simp

end

/-- The reader gives back the value that the printer wrote, in every layout of blanks. -/
theorem read?_print {layout : Layout} (hlayout : layout.Blank) {value : Json}
    (hkept : value.Kept) : read? (String.ofList (print layout 0 value)) = some value := by
  have hend : Delimited [] := trivial
  have hrun := State.run_print hlayout value hkept (State.awaits_expectValue []) 0 hend
  rw [List.append_nil] at hrun
  rw [read?, String.toList_ofList, hrun, State.run_eq]
  rfl

theorem read?_compact {value : Json} (hkept : value.Kept) :
    read? (compact value) = some value :=
  read?_print Layout.blank_compact hkept

theorem read?_pretty {value : Json} (hkept : value.Kept) :
    read? (pretty value) = some value :=
  read?_print Layout.blank_pretty hkept

section Plain

/-- An integer of 64 bits, apart from its sign. -/
def Number.Small : Number → Prop
  | .integer _ magnitude => magnitude < UInt64.size
  | .decimal _ _ => False

/-- Every number in the value is a small integer and every string is whole. -/
def Plain (value : Json) : Prop :=
  value.Everywhere Number.Small fun text => text.isWhole

theorem plain_ofString (text : String) : (ofString text).Plain :=
  rfl

theorem plain_array {items : List Json} : (array items).Plain ↔ ∀ item ∈ items, item.Plain :=
  itemsEverywhere_iff

theorem plain_object {members : List (Text × Json)} :
    (object members).Plain ↔ ∀ member ∈ members, member.1.isWhole ∧ member.2.Plain :=
  membersEverywhere_iff

/-- The reader keeps what is plain. -/
theorem Plain.kept {value : Json} (h : value.Plain) : value.Kept := by
  refine Everywhere.mono ?_ (fun _ _ => trivial) value h
  intro number hsmall
  cases number with
  | integer negative magnitude => trivial
  | decimal negative magnitude => exact False.elim hsmall

/-- What is plain is sound. -/
theorem Plain.sound {value : Json} (h : value.Plain) : value.Sound := by
  refine Everywhere.mono ?_ (fun _ hwhole => hwhole) value h
  intro number hsmall
  cases number with
  | integer negative magnitude => exact Number.isFinite_integer negative hsmall
  | decimal negative magnitude => exact False.elim hsmall

end Plain

end Json
end WrapLint
