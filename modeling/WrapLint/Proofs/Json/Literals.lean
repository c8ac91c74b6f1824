import WrapLint.Json.Reader
import WrapLint.Json.Printer
import WrapLint.Proofs.Decimal
import Mathlib.Data.List.TakeWhile
import Mathlib.Tactic.Common

/-!
# Printed literals are read back

A string literal or a number literal that the printer writes is one token, and the token
carries the same string or number.

**Strings.**  Every character is written as something that `Text.scan` turns back into it,
whatever stands before and after.

**Numbers.**  A number has no last character of its own, so it matters what follows it.
`Delimited` is what follows a value in a JSON text.

**Results.**
* `Token.scan_text`: a printed string is read back.
* `Token.scan_number`: a printed number is read back in front of a delimiter.
-/

namespace WrapLint
namespace Json

section Words

variable (rest : List Char)

theorem Token.scan_null : Token.scan ("null".toList ++ rest) = some (.null, rest) := by
  simp [Token.scan]

theorem Token.scan_true : Token.scan ("true".toList ++ rest) = some (.boolean true, rest) := by
  simp [Token.scan]

theorem Token.scan_false :
    Token.scan ("false".toList ++ rest) = some (.boolean false, rest) := by
  simp [Token.scan]

end Words

section Strings

theorem hexadecimal_digitChar :
    ∀ n < 0x20, Hexadecimal.value?
      ['0', '0', Nat.digitChar (n / 16), Nat.digitChar (n % 16)] = some n := by
  decide

theorem Text.scan_plain (done rest : List Char) {c : Char} (hquote : c ≠ '"')
    (hbackslash : c ≠ '\\') (hcontrol : ¬c < ' ') :
    Text.scan done (c :: rest) = Text.scan (c :: done) rest := by
  rw [Text.scan]
  · rw [if_neg hcontrol]
  · exact hquote
  · rintro _ _ _ _ _ rfl
    exact absurd rfl hbackslash
  · rintro _ _ rfl
    exact absurd rfl hbackslash

theorem Text.scan_short (done rest : List Char) {c d : Char} (hu : c ≠ 'u')
    (h : unescape? c = some d) :
    Text.scan done ('\\' :: c :: rest) = Text.scan (d :: done) rest := by
  rw [Text.scan]
  · rw [h]
  · rintro a b c' d' rest' rfl
    exact absurd rfl hu

theorem Text.scan_control (done rest : List Char) {c : Char} (hc : c < ' ') :
    Text.scan done ('\\' :: 'u' :: '0' :: '0' :: Nat.digitChar (c.toNat / 16)
      :: Nat.digitChar (c.toNat % 16) :: rest) = Text.scan (c :: done) rest := by
  have hlt : c.toNat < 0x20 := hc
  have hhigh : isHighSurrogate c.toNat = false := by
    simp only [isHighSurrogate, Bool.and_eq_false_iff, decide_eq_false_iff_not]
    omega
  have hlow : isLowSurrogate c.toNat = false := by
    simp only [isLowSurrogate, Bool.and_eq_false_iff, decide_eq_false_iff_not]
    omega
  rw [Text.scan, hexadecimal_digitChar c.toNat hlt]
  simp only [hhigh, hlow, Bool.false_eq_true, if_false, Char.ofNat_toNat]

/-- The escape of a character is read back as that character. -/
theorem Text.scan_escape (done : List Char) (c : Char) (rest : List Char) :
    Text.scan done (escape c ++ rest) = Text.scan (c :: done) rest := by
  unfold escape
  split
  all_goals try exact Text.scan_short done rest (by decide) rfl
  rename_i hquote hbackslash _ _ _ _ _
  split
  · rename_i hcontrol
    exact Text.scan_control done rest hcontrol
  · rename_i hcontrol
    exact Text.scan_plain done rest hquote hbackslash hcontrol

/-- The characters of a literal up to its closing quote. -/
theorem Text.scan_flatMap_escape (done text rest : List Char) :
    Text.scan done (text.flatMap escape ++ '"' :: rest)
      = some (.whole (String.ofList (done.reverse ++ text)), rest) := by
  induction text generalizing done with
  | nil => simp [Text.scan]
  | cons c text ih =>
      rw [List.flatMap_cons, List.append_assoc, Text.scan_escape, ih]
      simp

theorem Text.print_whole (text : String) :
    Text.print (.whole text) = '"' :: (text.toList.flatMap escape ++ ['"']) :=
  rfl

theorem Text.print_broken :
    Text.print .broken = ['"', '\\', 'u', 'd', '8', '0', '0', '"'] := by
  decide

theorem Token.scan_quote (text : List Char) :
    Token.scan ('"' :: text)
      = (Text.scan [] text).map (fun (value, rest) => (.string value, rest)) := by
  rw [Token.scan]

/-- A string literal is one token. -/
theorem Token.scan_text (value : Text) (rest : List Char) :
    Token.scan (value.print ++ rest) = some (.string value, rest) := by
  cases value with
  | broken =>
      have hunit : Hexadecimal.value? ['d', '8', '0', '0'] = some 0xD800 := by decide
      simp only [Text.print_broken, List.cons_append, Token.scan_quote, List.nil_append]
      rw [Text.scan, hunit]
      rfl
  | whole text =>
      rw [Text.print_whole, List.cons_append, List.append_assoc, Token.scan_quote,
        List.singleton_append, Text.scan_flatMap_escape]
      simp

end Strings

section Numbers

/-- What may follow a value in a text: nothing, a blank, a comma or a closing bracket. -/
def Delimited : List Char → Prop
  | [] => True
  | c :: _ => isSpace c ∨ c = ',' ∨ c = ']' ∨ c = '}'

theorem digits_append {ds rest : List Char} (hds : ∀ c ∈ ds, c.isDigit)
    (hrest : ∀ c ∈ rest.head?, c.isDigit = false) : digits (ds ++ rest) = (ds, rest) := by
  have htake : rest.takeWhile Char.isDigit = [] := by
    cases rest with
    | nil => rfl
    | cons c rest => simp [hrest c rfl]
  have hdrop : rest.dropWhile Char.isDigit = rest := by
    cases rest with
    | nil => rfl
    | cons c rest => simp [hrest c rfl]
  rw [digits, List.takeWhile_append_of_pos hds, List.dropWhile_append_of_pos hds, htake,
    hdrop, List.append_nil]

theorem digits_toDigits (n : Nat) {rest : List Char}
    (hrest : ∀ c ∈ rest.head?, c.isDigit = false) :
    digits (Nat.toDigits 10 n ++ rest) = (Nat.toDigits 10 n, rest) :=
  digits_append (fun _ hc => Nat.isDigit_of_mem_toDigits (by decide) (by decide) hc) hrest

/-- A number has at least one digit, and a positive one does not begin with a zero. -/
theorem exists_toDigits_eq_cons (n : Nat) :
    ∃ d ds, Nat.toDigits 10 n = d :: ds ∧ d.isDigit ∧ (0 < n → d ≠ '0') := by
  induction n using Nat.strongRecOn with
  | ind n ih =>
      rw [Nat.toDigits_eq_if (by decide)]
      split
      · rename_i hsmall
        refine ⟨Nat.digitChar n, [], rfl, ?_, ?_⟩
        · simpa [Nat.isDigit_digitChar] using hsmall
        · intro hpos hzero
          rw [Nat.digitChar_eq_zero] at hzero
          omega
      · rename_i hlarge
        obtain ⟨d, ds, hds, hdigit, hzero⟩ := ih (n / 10) (by omega)
        refine ⟨d, ds ++ [Nat.digitChar (n % 10)], by rw [hds]; rfl, hdigit, ?_⟩
        intro _
        exact hzero (by omega)

theorem wholeDigits?_toDigits (n : Nat) {rest : List Char}
    (hrest : ∀ c ∈ rest.head?, c.isDigit = false) :
    wholeDigits? (Nat.toDigits 10 n ++ rest) = some (Nat.toDigits 10 n, rest) := by
  rcases Nat.eq_zero_or_pos n with rfl | hpos
  · rfl
  · have hsplit := digits_toDigits n hrest
    obtain ⟨d, ds, hds, hdigit, hzero⟩ := exists_toDigits_eq_cons n
    rw [hds, List.cons_append] at hsplit ⊢
    rw [wholeDigits?]
    · rw [if_pos hdigit, hsplit]
    · rintro rfl
      exact hzero hpos rfl

section Delimited

variable {rest : List Char}

theorem Delimited.isDigit_eq_false (h : Delimited rest) :
    ∀ c ∈ rest.head?, c.isDigit = false := by
  intro c hc
  cases rest with
  | nil => simp at hc
  | cons d rest =>
      obtain rfl : d = c := by simpa using hc
      simp only [Delimited, isSpace, Bool.or_eq_true, beq_iff_eq] at h
      rcases h with ((((rfl | rfl) | rfl) | rfl) | rfl | rfl | rfl) <;> decide

theorem Delimited.fractionDigits? (h : Delimited rest) :
    Json.fractionDigits? rest = some ([], rest) := by
  unfold Json.fractionDigits?
  split
  · simp [Delimited, isSpace] at h
  · simp [Delimited, isSpace] at h
  · rfl

theorem Delimited.exponent? (h : Delimited rest) : Json.exponent? rest = some (none, rest) := by
  cases rest with
  | nil => rfl
  | cons c rest =>
      rw [Json.exponent?, if_neg]
      rintro (rfl | rfl) <;> simp [Delimited, isSpace] at h

theorem scanMagnitude_integer (negative : Bool) (n : Nat) (h : Delimited rest) :
    Number.scanMagnitude negative (Nat.toDigits 10 n ++ rest)
      = some (.integer negative n, rest) := by
  have hwhole := wholeDigits?_toDigits n h.isDigit_eq_false
  simp [Number.scanMagnitude, hwhole, h.fractionDigits?, h.exponent?,
    Nat.ofDigitChars_ten_toDigits]

theorem exponentSign_print (e : Int) (rest : List Char) :
    exponentSign (sign (e < 0) ++ (Nat.toDigits 10 e.natAbs ++ rest))
      = (decide (e < 0), Nat.toDigits 10 e.natAbs ++ rest) := by
  by_cases hneg : e < 0
  · simp [sign, hneg, exponentSign]
  · obtain ⟨d, ds, hds, hdigit, -⟩ := exists_toDigits_eq_cons e.natAbs
    simp only [sign, hneg, decide_false, Bool.false_eq_true, if_false, List.nil_append]
    rw [hds, List.cons_append, exponentSign]
    · rintro rest' heq
      obtain ⟨rfl, -⟩ := List.cons.inj heq
      simp at hdigit
    · rintro rest' heq
      obtain ⟨rfl, -⟩ := List.cons.inj heq
      simp at hdigit

theorem signedExponent?_print (e : Int) (h : Delimited rest) :
    signedExponent? (sign (e < 0) ++ (Nat.toDigits 10 e.natAbs ++ rest)) = some (e, rest) := by
  have hsplit := digits_toDigits e.natAbs h.isDigit_eq_false
  obtain ⟨d, ds, hds, -, -⟩ := exists_toDigits_eq_cons e.natAbs
  have hvalue : Nat.ofDigitChars 10 (d :: ds) 0 = e.natAbs := by
    rw [← hds, Nat.ofDigitChars_ten_toDigits]
  rw [signedExponent?, exponentSign_print]
  simp only [hsplit]
  simp only [hds, hvalue, decide_eq_true_eq]
  split <;> congr 2 <;> omega

theorem scanMagnitude_decimal (negative : Bool) {magnitude : Decimal}
    (hkept : magnitude.coefficient < UInt64.size) (h : Delimited rest) :
    Number.scanMagnitude negative (Nat.toDigits 10 magnitude.coefficient ++ 'e' ::
        (sign (magnitude.exponent < 0) ++ (Nat.toDigits 10 magnitude.exponent.natAbs ++ rest)))
      = some (.decimal negative magnitude, rest) := by
  have hexponent := signedExponent?_print magnitude.exponent h
  rw [Number.scanMagnitude, wholeDigits?_toDigits _ (by simp)]
  simp [fractionDigits?, exponent?, hexponent, Decimal.ofDigits_toDigits hkept]

/-- What the reader keeps of a number: the digits of a decimal only as far as they fit
64 bits. -/
def Number.Kept : Number → Prop
  | .integer _ _ => True
  | .decimal _ magnitude => magnitude.coefficient < UInt64.size

theorem Number.scan_sign (negative : Bool) {d : Char} (hd : d.isDigit) (text : List Char) :
    Number.scan (sign negative ++ d :: text) = Number.scanMagnitude negative (d :: text) := by
  cases negative with
  | true => rfl
  | false =>
      have hminus : d ≠ '-' := by
        rintro rfl
        simp at hd
      simp only [sign, Bool.false_eq_true, if_false, List.nil_append]
      rw [Number.scan]
      rintro _ heq
      exact hminus (List.cons.inj heq).1

theorem Number.scan_sign_toDigits (negative : Bool) (n : Nat) (text : List Char) :
    Number.scan (sign negative ++ (Nat.toDigits 10 n ++ text))
      = Number.scanMagnitude negative (Nat.toDigits 10 n ++ text) := by
  obtain ⟨d, ds, hds, hdigit, -⟩ := exists_toDigits_eq_cons n
  rw [hds, List.cons_append, Number.scan_sign negative hdigit]

/-- A number literal is read back in front of a delimiter. -/
theorem Number.scan_print {value : Number} (hkept : value.Kept) (h : Delimited rest) :
    Number.scan (value.print ++ rest) = some (value, rest) := by
  cases value with
  | integer negative magnitude =>
      rw [Number.print, List.append_assoc, Number.scan_sign_toDigits,
        scanMagnitude_integer negative magnitude h]
  | decimal negative magnitude =>
      rw [Number.print, List.append_assoc, List.append_assoc, Number.scan_sign_toDigits]
      simpa using scanMagnitude_decimal negative hkept h

theorem Number.exists_print_eq_cons (value : Number) :
    ∃ c text, value.print = c :: text ∧ (c = '-' ∨ c.isDigit) := by
  cases value with
  | integer negative magnitude =>
      obtain ⟨d, ds, hds, hdigit, -⟩ := exists_toDigits_eq_cons magnitude
      cases negative <;> simp [Number.print, sign, hds, hdigit]
  | decimal negative magnitude =>
      obtain ⟨d, ds, hds, hdigit, -⟩ := exists_toDigits_eq_cons magnitude.coefficient
      cases negative <;> simp [Number.print, sign, hds, hdigit]

/-- A minus or a digit begins no other token than a number. -/
theorem Token.scan_of_number {c : Char} (hc : c = '-' ∨ c.isDigit) (text : List Char) :
    Token.scan (c :: text)
      = (Number.scan (c :: text)).map (fun (value, rest) => (.number value, rest)) := by
  unfold Token.scan
  split <;> simp_all

/-- A number literal in front of a delimiter is one token. -/
theorem Token.scan_number {value : Number} (hkept : value.Kept) (h : Delimited rest) :
    Token.scan (value.print ++ rest) = some (.number value, rest) := by
  have hscan := Number.scan_print hkept h
  obtain ⟨c, text, hprint, hc⟩ := value.exists_print_eq_cons
  rw [hprint, List.cons_append] at hscan ⊢
  rw [Token.scan_of_number hc, hscan]
  rfl

end Delimited

end Numbers

end Json
end WrapLint
