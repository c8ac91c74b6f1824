/-!
# Patterns and what they match

The shape of a line is described by three regular expressions.  This module gives their syntax,
the text that writes a pattern, and the standard reading of a pattern as a language.

**Reading.**  A pattern matches a piece of a text.  The assertions (start, end, word boundary)
also look at what stands before and after the piece, so `Matches` carries both.  A sequence
matches if *some* split of the piece works for its two parts, an alternation if one side does,
and a repetition if the piece is some concatenation of matches.  Whether a repetition prefers
few or many turns has no influence on which texts match.

**Results.**
* One equivalence for each constructor (`matches_seq_iff`, `matches_alt_iff`, …).
* `matches_star_char_iff`, `matches_plus_char_iff`: the repetition of a set of characters matches
  the texts over that set, the empty one excluded for `plus`.
-/

namespace WrapLint

/-- A set of characters, as a pattern writes it. -/
inductive CharSet where
  | literal (c : Char)
  /-- A class in square brackets: a list of ranges. -/
  | ranges (items : List (Char × Char))
  /-- The ASCII blanks. -/
  | blank
  /-- Every character but the line feed. -/
  | dot

namespace CharSet

/-- Whether the set has the character. -/
def contains : CharSet → Char → Bool
  | literal c, d => d == c
  | ranges items, d => items.any (fun item => item.1 ≤ d && d ≤ item.2)
  | blank, d => ['\t', '\n', '\x0b', '\x0c', '\r', ' '].contains d
  | dot, d => d != '\n'

/-- A character inside a class; a square bracket needs a backslash. -/
def itemText (c : Char) : List Char :=
  if c = '[' ∨ c = ']' then ['\\', c] else [c]

/-- A range inside a class. -/
def rangeText (item : Char × Char) : List Char :=
  if item.1 = item.2 then itemText item.1 else itemText item.1 ++ '-' :: itemText item.2

/-- The text that writes the set. -/
def text : CharSet → List Char
  | literal c => if "()[]\x7b\x7d.*+?|\\^$".toList.contains c then ['\\', c] else [c]
  | ranges items => '[' :: (items.flatMap rangeText ++ [']'])
  | blank => "(?-u:\\s)".toList
  | dot => ['.']

end CharSet

/-- The syntax of patterns. -/
inductive Pattern where
  | empty
  | char (set : CharSet)
  | seq (first second : Pattern)
  | alt (left right : Pattern)
  /-- Any number of turns, few before many if `lazy`. -/
  | star (lazy : Bool) (body : Pattern)
  /-- At least one turn. -/
  | plus (body : Pattern)
  | startOfText
  | endOfText
  /-- The place between an ASCII word character and something else. -/
  | wordBoundary

namespace Pattern

/-- The text that writes the pattern. -/
def text : Pattern → List Char
  | empty => []
  | char set => set.text
  | seq first second => first.text ++ second.text
  | alt left right => "(?:".toList ++ left.text ++ '|' :: right.text ++ [')']
  | star false body => body.text ++ ['*']
  | star true body => body.text ++ ['*', '?']
  | plus body => body.text ++ ['+']
  | startOfText => "\\A".toList
  | endOfText => "\\z".toList
  | wordBoundary => "(?-u:\\b)".toList

/-- ASCII word characters. -/
def wordSet : CharSet :=
  .ranges [('0', '9'), ('A', 'Z'), ('a', 'z'), ('_', '_')]

/-- Whether this neighbour of a place is a word character. -/
def isWordAt (neighbour : Option Char) : Bool :=
  neighbour.any wordSet.contains

/-- `Matches p before piece after`: the pattern matches this piece of a text, with these
characters before and after it. -/
inductive Matches : Pattern → List Char → List Char → List Char → Prop
  | empty {before after : List Char} : Matches empty before [] after
  | char {set : CharSet} {c : Char} {before after : List Char}
      (mem : set.contains c = true) : Matches (char set) before [c] after
  | seq {p q : Pattern} {before u v after : List Char}
      (first : Matches p before u (v ++ after))
      (second : Matches q (before ++ u) v after) :
      Matches (seq p q) before (u ++ v) after
  | altLeft {p q : Pattern} {before piece after : List Char}
      (left : Matches p before piece after) : Matches (alt p q) before piece after
  | altRight {p q : Pattern} {before piece after : List Char}
      (right : Matches q before piece after) : Matches (alt p q) before piece after
  | starNil {lazy : Bool} {p : Pattern} {before after : List Char} :
      Matches (star lazy p) before [] after
  | starCons {lazy : Bool} {p : Pattern} {before u v after : List Char}
      (turn : Matches p before u (v ++ after))
      (rest : Matches (star lazy p) (before ++ u) v after) :
      Matches (star lazy p) before (u ++ v) after
  | plus {p : Pattern} {before u v after : List Char}
      (turn : Matches p before u (v ++ after))
      (rest : Matches (star false p) (before ++ u) v after) :
      Matches (plus p) before (u ++ v) after
  | startOfText {after : List Char} : Matches startOfText [] [] after
  | endOfText {before : List Char} : Matches endOfText before [] []
  | wordBoundary {before after : List Char}
      (differ : isWordAt before.getLast? ≠ isWordAt after.head?) :
      Matches wordBoundary before [] after

/-- Whether the pattern matches some piece of the text. -/
def FoundIn (p : Pattern) (line : List Char) : Prop :=
  ∃ before piece after, line = before ++ piece ++ after ∧ Matches p before piece after

section Constructors

variable {p q : Pattern} {set : CharSet} {lazy : Bool} {before piece after : List Char}

theorem matches_empty_iff : Matches empty before piece after ↔ piece = [] := by
  constructor
  · rintro ⟨⟩
    rfl
  · rintro rfl
    exact Matches.empty

theorem matches_char_iff :
    Matches (char set) before piece after ↔ ∃ c, piece = [c] ∧ set.contains c = true := by
  constructor
  · intro h
    cases h with
    | char mem => exact ⟨_, rfl, mem⟩
  · rintro ⟨c, rfl, mem⟩
    exact Matches.char mem

theorem matches_seq_iff :
    Matches (seq p q) before piece after ↔
      ∃ u v, piece = u ++ v ∧ Matches p before u (v ++ after) ∧
        Matches q (before ++ u) v after := by
  constructor
  · intro h
    cases h with
    | seq first second => exact ⟨_, _, rfl, first, second⟩
  · rintro ⟨u, v, rfl, first, second⟩
    exact Matches.seq first second

theorem matches_alt_iff :
    Matches (alt p q) before piece after ↔
      Matches p before piece after ∨ Matches q before piece after := by
  constructor
  · intro h
    cases h with
    | altLeft left => exact Or.inl left
    | altRight right => exact Or.inr right
  · rintro (left | right)
    · exact Matches.altLeft left
    · exact Matches.altRight right

theorem matches_startOfText_iff :
    Matches startOfText before piece after ↔ before = [] ∧ piece = [] := by
  constructor
  · rintro ⟨⟩
    exact ⟨rfl, rfl⟩
  · rintro ⟨rfl, rfl⟩
    exact Matches.startOfText

theorem matches_endOfText_iff :
    Matches endOfText before piece after ↔ piece = [] ∧ after = [] := by
  constructor
  · rintro ⟨⟩
    exact ⟨rfl, rfl⟩
  · rintro ⟨rfl, rfl⟩
    exact Matches.endOfText

theorem matches_wordBoundary_iff :
    Matches wordBoundary before piece after ↔
      piece = [] ∧ isWordAt before.getLast? ≠ isWordAt after.head? := by
  constructor
  · intro h
    cases h with
    | wordBoundary differ => exact ⟨rfl, differ⟩
  · rintro ⟨rfl, differ⟩
    exact Matches.wordBoundary differ

end Constructors

section Repetition

variable {set : CharSet} {lazy : Bool}

/-- A repetition of a set of characters matches texts over the set. -/
theorem mem_of_matches_star_char {before piece after : List Char}
    (h : Matches (star lazy (char set)) before piece after) :
    ∀ c ∈ piece, set.contains c = true := by
  generalize hp : star lazy (char set) = p at h
  induction h with
  | starNil =>
      intro c hc
      simp at hc
  | @starCons _ p before u v after turn rest _ ih =>
      cases hp
      obtain ⟨d, rfl, mem⟩ := matches_char_iff.1 turn
      intro c hc
      rcases List.mem_cons.mp hc with rfl | hc
      · exact mem
      · exact ih rfl c hc
  | _ => cases hp

/-- Every text over the set is matched, one character in each turn. -/
theorem matches_star_char {after : List Char} :
    ∀ {before piece : List Char}, (∀ c ∈ piece, set.contains c = true) →
      Matches (star lazy (char set)) before piece after
  | _, [], _ => Matches.starNil
  | before, c :: piece, h => by
      have turn : Matches (char set) before [c] (piece ++ after) :=
        Matches.char (h c (by simp))
      have rest : Matches (star lazy (char set)) (before ++ [c]) piece after :=
        matches_star_char (fun d hd => h d (List.mem_cons_of_mem _ hd))
      exact Matches.starCons turn rest

theorem matches_star_char_iff {before piece after : List Char} :
    Matches (star lazy (char set)) before piece after ↔
      ∀ c ∈ piece, set.contains c = true :=
  ⟨mem_of_matches_star_char, matches_star_char⟩

theorem matches_plus_char_iff {before piece after : List Char} :
    Matches (plus (char set)) before piece after ↔
      ∃ c rest, piece = c :: rest ∧ set.contains c = true ∧
        ∀ d ∈ rest, set.contains d = true := by
  constructor
  · intro h
    cases h with
    | plus turn rest =>
        obtain ⟨c, rfl, mem⟩ := matches_char_iff.1 turn
        exact ⟨c, _, rfl, mem, mem_of_matches_star_char rest⟩
  · rintro ⟨c, rest, rfl, mem, hrest⟩
    have turn : Matches (char set) before [c] (rest ++ after) := Matches.char mem
    exact Matches.plus turn (matches_star_char hrest)

end Repetition

end Pattern
end WrapLint
