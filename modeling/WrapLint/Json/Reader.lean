import WrapLint.Json.Token

/-!
# Reading a JSON text

**Input.**  The characters of a text.

**Algorithm.**  The tokens are taken from left to right.  A stack holds the containers that
are open, innermost first, each with the items or members it has so far; a state says what
may come next.  A finished value goes to the container on top.

**Output.**  The value, if the text is one value with nothing but blanks around it.  There is
no limit on how deep containers nest.

**Results.**
* `Token.length_lt_of_scan`: a token takes at least one character, so reading ends.
-/

namespace WrapLint
namespace Json

section Progress

variable {text rest : List Char}

theorem Text.length_le_of_skip (text : List Char) {rest : List Char}
    (h : Text.skip text = some rest) : rest.length ≤ text.length := by
  fun_induction Text.skip text <;> simp_all <;> omega

theorem Text.length_le_of_scanBroken {value : Text}
    (h : Text.scanBroken text = some (value, rest)) : rest.length ≤ text.length := by
  simp only [Text.scanBroken, Option.map_eq_some_iff, Prod.mk.injEq] at h
  obtain ⟨_, hskip, -, rfl⟩ := h
  exact Text.length_le_of_skip text hskip

theorem Text.length_le_of_scan (done text : List Char) {rest : List Char} {value : Text}
    (h : Text.scan done text = some (value, rest)) : rest.length ≤ text.length := by
  fun_induction Text.scan done text <;> try replace h := Text.length_le_of_scanBroken h
  all_goals simp_all <;> omega

theorem length_digits (text : List Char) : (digits text).2.length ≤ text.length := by
  simpa [digits] using (List.dropWhile_sublist _).length_le

theorem length_digits_cons {c : Char} (hc : c.isDigit) (text : List Char) :
    (digits (c :: text)).2.length ≤ text.length := by
  simpa [digits, hc] using (List.dropWhile_sublist _).length_le

theorem length_lt_of_wholeDigits? {ds : List Char}
    (h : wholeDigits? text = some (ds, rest)) : rest.length < text.length := by
  fun_cases wholeDigits? text <;> grind [wholeDigits?, length_digits_cons]

theorem length_le_of_fractionDigits? {ds : List Char}
    (h : fractionDigits? text = some (ds, rest)) : rest.length ≤ text.length := by
  fun_cases fractionDigits? text <;> grind [fractionDigits?, length_digits_cons]

theorem length_exponentSign (text : List Char) :
    (exponentSign text).2.length ≤ text.length := by
  fun_cases exponentSign text <;> grind

theorem length_le_of_signedExponent? {e : Int}
    (h : signedExponent? text = some (e, rest)) : rest.length ≤ text.length := by
  have := length_exponentSign text
  have := length_digits (exponentSign text).2
  grind [signedExponent?]

theorem length_le_of_exponent? {e : Option Int}
    (h : exponent? text = some (e, rest)) : rest.length ≤ text.length := by
  have := @length_le_of_signedExponent?
  cases text <;> grind [exponent?, Option.map_eq_some_iff]

theorem Number.length_lt_of_scanMagnitude {negative : Bool} {value : Number}
    (h : Number.scanMagnitude negative text = some (value, rest)) :
    rest.length < text.length := by
  simp only [Number.scanMagnitude, Option.bind_eq_bind, Option.bind_eq_some_iff] at h
  obtain ⟨⟨whole, t₁⟩, h₁, ⟨fraction, t₂⟩, h₂, ⟨e, t₃⟩, h₃, h⟩ := h
  have := length_lt_of_wholeDigits? h₁
  have := length_le_of_fractionDigits? h₂
  have := length_le_of_exponent? h₃
  grind

theorem Number.length_lt_of_scan {value : Number}
    (h : Number.scan text = some (value, rest)) : rest.length < text.length := by
  have := @Number.length_lt_of_scanMagnitude
  fun_cases Number.scan text <;> grind [Number.scan]

theorem Token.length_lt_of_scan {token : Token}
    (h : Token.scan text = some (token, rest)) : rest.length < text.length := by
  have := @Text.length_le_of_scan
  have := @Number.length_lt_of_scan
  rw [Token.scan.eq_def] at h
  split at h <;> grind [Option.map_eq_some_iff]

end Progress

/-- An open container: what it has so far, newest first.  In an object the name of the
member whose value comes next is already known. -/
inductive Frame where
  | items (done : List Json)
  | members (done : List (Text × Json)) (name : Text)

/-- What may come next. -/
inductive State where
  /-- A value. -/
  | expectValue (stack : List Frame)
  /-- A value, or the end of the array just opened. -/
  | expectFirstItem (stack : List Frame)
  /-- A name, or the end of the object just opened. -/
  | expectFirstName (stack : List Frame)
  /-- A name. -/
  | expectName (done : List (Text × Json)) (stack : List Frame)
  /-- The separator after a name. -/
  | expectSeparator (done : List (Text × Json)) (name : Text) (stack : List Frame)
  /-- A value is finished; its container is on top of the stack. -/
  | finished (value : Json) (stack : List Frame)

/-- The state after the first token of a value. -/
def State.begin (stack : List Frame) : Token → Option State
  | .beginObject => some (.expectFirstName stack)
  | .beginArray => some (.expectFirstItem stack)
  | .null => some (.finished .null stack)
  | .boolean value => some (.finished (.boolean value) stack)
  | .number value => some (.finished (.number value) stack)
  | .string value => some (.finished (.string value) stack)
  | _ => none

/-- The state after one more token. -/
def State.step : State → Token → Option State
  | .expectValue stack, token => State.begin stack token
  | .expectFirstItem stack, .endArray => some (.finished (.array []) stack)
  | .expectFirstItem stack, token => State.begin (.items [] :: stack) token
  | .expectFirstName stack, .endObject => some (.finished (.object []) stack)
  | .expectFirstName stack, .string name => some (.expectSeparator [] name stack)
  | .expectName done stack, .string name => some (.expectSeparator done name stack)
  | .expectSeparator done name stack, .nameSeparator =>
    some (.expectValue (.members done name :: stack))
  | .finished value (.items done :: stack), .valueSeparator =>
    some (.expectValue (.items (value :: done) :: stack))
  | .finished value (.items done :: stack), .endArray =>
    some (.finished (.array (value :: done).reverse) stack)
  | .finished value (.members done name :: stack), .valueSeparator =>
    some (.expectName ((name, value) :: done) stack)
  | .finished value (.members done name :: stack), .endObject =>
    some (.finished (.object ((name, value) :: done).reverse) stack)
  | _, _ => none

/-- The value, if the text may end here. -/
def State.value? : State → Option Json
  | .finished value [] => some value
  | _ => none

/-- The value of a text of which a part is already read. -/
def State.run (state : State) (text : List Char) : Option Json :=
  match _htext : text.dropWhile isSpace with
  | [] => state.value?
  | c :: rest =>
    match _h : Token.scan (c :: rest) with
    | none => none
    | some (token, rest) =>
      match state.step token with
      | none => none
      | some state => state.run rest
termination_by text.length
decreasing_by
  have := Token.length_lt_of_scan _h
  have := (List.dropWhile_sublist (l := text) isSpace).length_le
  simp_all
  omega

/-- The value that a text writes. -/
def read? (text : String) : Option Json :=
  (State.expectValue []).run text.toList

end Json
end WrapLint
