import WrapLint.Proofs.Line.Pattern
import WrapLint.Proofs.Line.Selector

/-!
# The matchers and the patterns they stand for

`hasAttributes`, `isDoctype` and `conforms` read a line once, from left to right.  The patterns
they stand for are regular expressions, which match if *some* split of the line fits.  Here the
patterns are written down, and it is shown that both readings agree on every list of characters.

**Results.**
* `foundIn_selector_iff`: what stands after the selector is all that a pattern adds.
* `hasAttributes_iff_split`, `isDoctype_iff_split`, `conforms_iff_split`: the scan of a line
  succeeds iff some split of the line exists.
* `matchers_decide_patterns`: each matcher decides its pattern, whose text is given.
-/

namespace WrapLint
namespace Line

open Pattern

section Splits

/-- A space, then later on the line an equals sign with something after it. -/
def BareAttributes (rest : List Char) : Prop :=
  ∃ text value after, rest = ' ' :: (text ++ '=' :: value :: after) ∧
    '\n' ∉ text ∧ value ≠ '\n'

/-- An opening bracket with something after it on the line. -/
def WrappedAttributes (rest : List Char) : Prop :=
  ∃ bracket value after, rest = bracket :: value :: after ∧
    bracket ∈ ['(', '{', '['] ∧ value ≠ '\n'

/-- Some split of the line has attributes after its selector. -/
def AttributeSplit (line : List Char) : Prop :=
  ∃ blanks selector rest, Split line blanks selector rest ∧
    (BareAttributes rest ∨ WrappedAttributes rest)

/-- Some split of the line has the word `doctype` after its blanks, and no word character
after that. -/
def DoctypeSplit (line : List Char) : Prop :=
  ∃ blanks rest, line = blanks ++ "doctype".toList ++ rest ∧
    (∀ c ∈ blanks, isBlank c = true) ∧ ∀ c ∈ rest.head?, isWordChar c = false

/-- The opening delimiters of a style. -/
def openings : Style → List Char
  | .unwrapped => [' ']
  | .round => ['(']
  | .curly => ['{']
  | .square => ['[']
  | .any => ['(', '{', '[']

/-- The closing delimiters of a style; bare attributes need none. -/
def closings : Style → List (List Char)
  | .unwrapped => [[]]
  | .round => [[')']]
  | .curly => [['}']]
  | .square => [[']']]
  | .any => [[')'], ['}'], [']']]

/-- Some split of the line has the delimiters of the style after its selector, the opening one
right there, and no line feed from there to the end. -/
def ConformingSplit (style : Style) (line : List Char) : Prop :=
  ∃ blanks selector rest, Split line blanks selector rest ∧
    ∃ opening ∈ openings style, ∃ closing ∈ closings style, ∃ content tail,
      rest = opening :: (content ++ closing ++ tail) ∧ '\n' ∉ content ∧ '\n' ∉ tail

end Splits

section Scans

variable {line : List Char}

theorem isOpening_iff (c : Char) : isOpening c = true ↔ c ∈ ['(', '{', '['] := by
  simp [isOpening, or_assoc]

/-- If the character after the selector of a split cannot continue it, the scan stops there. -/
theorem afterSelector_of_split_cons {blanks selector rest : List Char} {c : Char}
    (h : Split line blanks selector (c :: rest)) (hc : isSelectorChar c = false) :
    afterSelector line = some (c :: rest) :=
  afterSelector_eq_some_iff.2 ⟨hc, blanks, selector, h⟩

theorem hasAttributes_iff_split : hasAttributes line = true ↔ AttributeSplit line := by
  rw [hasAttributes_iff]
  constructor
  · rintro ⟨c, rest, hscan, ⟨rfl, hassign⟩ | ⟨hopen, hmore⟩⟩
    · obtain ⟨blanks, selector, hsplit⟩ := exists_split_of_afterSelector hscan
      obtain ⟨text, value, after, rfl, htext, hvalue⟩ := (hasAssignment_iff rest).1 hassign
      exact ⟨blanks, selector, _, hsplit, Or.inl ⟨text, value, after, rfl, htext, hvalue⟩⟩
    · obtain ⟨blanks, selector, hsplit⟩ := exists_split_of_afterSelector hscan
      obtain ⟨value, after, rfl, hvalue⟩ := (untilLineFeed_ne_nil_iff rest).1 hmore
      exact ⟨blanks, selector, _, hsplit,
        Or.inr ⟨c, value, after, rfl, (isOpening_iff c).1 hopen, hvalue⟩⟩
  · rintro ⟨blanks, selector, _, hsplit, hbare | hwrapped⟩
    · obtain ⟨text, value, after, rfl, htext, hvalue⟩ := hbare
      have hassign : hasAssignment (text ++ '=' :: value :: after) = true :=
        (hasAssignment_iff _).2 ⟨text, value, after, rfl, htext, hvalue⟩
      have hscan := afterSelector_of_split_cons hsplit isSelectorChar_space
      exact ⟨' ', _, hscan, Or.inl ⟨rfl, hassign⟩⟩
    · obtain ⟨bracket, value, after, rfl, hbracket, hvalue⟩ := hwrapped
      rw [← isOpening_iff] at hbracket
      have hmore : (untilLineFeed (value :: after)).isEmpty = false :=
        (untilLineFeed_ne_nil_iff _).2 ⟨value, after, rfl, hvalue⟩
      have hscan := afterSelector_of_split_cons hsplit (isSelectorChar_of_isOpening hbracket)
      exact ⟨bracket, _, hscan, Or.inr ⟨hbracket, hmore⟩⟩

theorem opens_iff (style : Style) (c : Char) :
    opens style c = true ↔ c ∈ openings style := by
  cases style <;> simp [opens, openings, isOpening, or_assoc]

theorem lineFeed_not_mem_closing {style : Style} {closing : List Char}
    (h : closing ∈ closings style) : '\n' ∉ closing := by
  have hall : ∀ word ∈ closings style, '\n' ∉ word := by
    cases style <;> decide
  exact hall closing h

/-- A style's closing delimiter stands in a text iff the text can be split around it. -/
theorem closes_iff (style : Style) (text : List Char) :
    closes style text = true ↔
      ∃ closing ∈ closings style, ∃ content tail, text = content ++ closing ++ tail := by
  have hmem : ∀ c : Char, c ∈ text ↔ ∃ content tail, text = content ++ [c] ++ tail := by
    intro c
    simp only [List.append_assoc, List.singleton_append]
    exact List.mem_iff_append
  cases style with
  | unwrapped =>
      simp only [closes, closings, List.mem_singleton, exists_eq_left, true_iff]
      exact ⟨[], text, rfl⟩
  | any =>
      simp only [closes, closings, List.any_eq_true, isClosing, Bool.or_eq_true, beq_iff_eq,
        List.mem_cons, List.not_mem_nil, or_false, exists_eq_or_imp, exists_eq_left, ← hmem,
        and_or_left, exists_or, exists_eq_right, or_assoc]
  | round | curly | square =>
      simp only [closes, closings, List.contains_iff_mem, List.mem_singleton, exists_eq_left,
        hmem]

theorem conforms_iff_split {style : Style} :
    conforms style line = true ↔ ConformingSplit style line := by
  rw [conforms_iff]
  constructor
  · rintro ⟨c, rest, hscan, hopen, hfeed, hclose⟩
    obtain ⟨blanks, selector, hsplit⟩ := exists_split_of_afterSelector hscan
    obtain ⟨closing, hclosing, content, tail, rfl⟩ := (closes_iff style rest).1 hclose
    simp only [List.mem_append, not_or] at hfeed
    exact ⟨blanks, selector, _, hsplit, c, (opens_iff style c).1 hopen, closing, hclosing,
      content, tail, rfl, hfeed.1.1, hfeed.2⟩
  · rintro ⟨blanks, selector, _, hsplit, c, hopening, closing, hclosing, content, tail, rfl,
      hcontent, htail⟩
    have hopen : opens style c = true := (opens_iff style c).2 hopening
    have hfeed : '\n' ∉ content ++ closing ++ tail := by
      simp [hcontent, htail, lineFeed_not_mem_closing hclosing]
    have hclose : closes style (content ++ closing ++ tail) = true :=
      (closes_iff style _).2 ⟨closing, hclosing, content, tail, rfl⟩
    have hscan := afterSelector_of_split_cons hsplit (isSelectorChar_of_opens hopen)
    exact ⟨c, _, hscan, hopen, hfeed, hclose⟩

theorem isDoctype_iff_split : isDoctype line = true ↔ DoctypeSplit line := by
  simp only [isDoctype, Bool.and_eq_true, Bool.not_eq_true', List.isPrefixOf_iff_prefix]
  constructor
  · rintro ⟨⟨rest, hrest⟩, hboundary⟩
    have hdrop : (line.dropWhile isBlank).drop "doctype".length = rest := by
      rw [← hrest]
      exact List.drop_left
    rw [hdrop, Option.any_eq_false] at hboundary
    refine ⟨line.takeWhile isBlank, rest, ?_, fun c hc => List.mem_takeWhile_imp hc, ?_⟩
    · rw [List.append_assoc, hrest, List.takeWhile_append_dropWhile]
    · exact fun c hc => hboundary c hc
  · rintro ⟨blanks, rest, rfl, hblanks, hboundary⟩
    have hskip : (blanks ++ "doctype".toList ++ rest).dropWhile isBlank
        = "doctype".toList ++ rest := by
      rw [List.append_assoc]
      exact dropWhile_isBlank_append hblanks (by decide)
    rw [hskip]
    refine ⟨List.prefix_append _ _, ?_⟩
    have hdrop : ("doctype".toList ++ rest).drop "doctype".length = rest := List.drop_left
    rw [hdrop, Option.any_eq_false]
    exact fun c hc => hboundary c hc

end Scans

section Patterns

/-- The pattern of one character. -/
def literal (c : Char) : Pattern :=
  .char (.literal c)

/-- Any text without a line feed. -/
def anyText (lazy : Bool) : Pattern :=
  .star lazy (.char .dot)

/-- Characters that may begin a selector. -/
def startSet : CharSet :=
  .ranges [('0', '9'), ('A', 'Z'), ('a', 'z'), ('_', '_'), ('.', '.'), ('#', '#')]

/-- Characters that may continue a selector. -/
def continueSet : CharSet :=
  .ranges [('0', '9'), ('A', 'Z'), ('a', 'z'), ('_', '_'), ('.', '.'), ('#', '#'), ('-', '-')]

/-- The start of the text and blanks. -/
def indentation : Pattern :=
  .seq .startOfText (.star false (.char .blank))

/-- The indentation and a selector. -/
def selector : Pattern :=
  .seq indentation (.seq (.char startSet) (.star false (.char continueSet)))

/-- The opening brackets. -/
def openingSet : CharSet :=
  .ranges [('(', '('), ('{', '{'), ('[', '[')]

/-- The closing brackets. -/
def closingSet : CharSet :=
  .ranges [(')', ')'), ('}', '}'), (']', ']')]

/-- A space and later an equals sign, or an opening bracket, with something after it. -/
def introducer : Pattern :=
  .seq (.alt (.seq (literal ' ') (.seq (anyText true) (literal '='))) (.char openingSet))
    (.plus (.char .dot))

/-- The pattern of lines that have attributes. -/
def attributesPattern : Pattern :=
  .seq selector introducer

/-- The pattern of a word. -/
def word : List Char → Pattern
  | [] => .empty
  | c :: cs => .seq (literal c) (word cs)

/-- The pattern of document type declarations. -/
def doctypePattern : Pattern :=
  .seq indentation (.seq (word "doctype".toList) .wordBoundary)

/-- The opening delimiter of a style. -/
def openingPattern : Style → Pattern
  | .unwrapped => literal ' '
  | .round => literal '('
  | .curly => literal '{'
  | .square => literal '['
  | .any => .char openingSet

/-- The closing delimiter of a style. -/
def closingPattern : Style → Pattern
  | .unwrapped => .empty
  | .round => literal ')'
  | .curly => literal '}'
  | .square => literal ']'
  | .any => .char closingSet

/-- The pattern of lines that write their attributes in a style. -/
def conformancePattern (style : Style) : Pattern :=
  .seq selector (.seq (openingPattern style) (.seq (anyText false)
    (.seq (closingPattern style) (.seq (anyText false) .endOfText))))

theorem text_openingPattern (style : Style) :
    (openingPattern style).text = style.delimiters.1.toList := by
  cases style <;> decide

theorem text_closingPattern (style : Style) :
    (closingPattern style).text = style.delimiters.2.toList := by
  cases style <;> decide

theorem text_selector :
    selector.text = "\\A(?-u:\\s)*[0-9A-Za-z_.#][0-9A-Za-z_.#-]*".toList := by
  decide

/-- The text of a conformance pattern is put together from the delimiters of the style. -/
theorem text_conformancePattern (style : Style) :
    (conformancePattern style).text =
      selector.text ++ style.delimiters.1.toList ++ ['.', '*']
        ++ style.delimiters.2.toList ++ ['.', '*', '\\', 'z'] := by
  rw [← text_openingPattern style, ← text_closingPattern style]
  show selector.text ++ ((openingPattern style).text ++ (['.', '*']
    ++ ((closingPattern style).text ++ (['.', '*'] ++ ['\\', 'z'])))) = _
  simp only [List.append_assoc, List.cons_append, List.nil_append]

end Patterns

section Sets

/-- Ranges whose ends are written by their code points. -/
theorem contains_ranges (items : List (Char × Char)) (c : Char) :
    (CharSet.ranges items).contains c = true ↔
      ∃ item ∈ items, item.1.toNat ≤ c.toNat ∧ c.toNat ≤ item.2.toNat := by
  simp only [CharSet.contains, List.any_eq_true, Bool.and_eq_true, decide_eq_true_eq,
    Char.le_def, UInt32.le_iff_toNat_le]
  rfl

theorem contains_blank (c : Char) : CharSet.blank.contains c = true ↔ isBlank c = true := by
  rw [isBlank_iff]
  simp only [CharSet.contains, List.contains_iff_mem, List.mem_cons, List.not_mem_nil,
    or_false, ← Char.toNat_inj, Char.reduceToNat]
  omega

theorem contains_startSet (c : Char) :
    startSet.contains c = true ↔ isSelectorStart c = true := by
  rw [startSet, contains_ranges, isSelectorStart_iff, isWordChar_iff]
  simp only [List.mem_cons, List.not_mem_nil, or_false, exists_eq_or_imp, exists_eq_left,
    Char.reduceToNat]
  omega

theorem contains_continueSet (c : Char) :
    continueSet.contains c = true ↔ isSelectorChar c = true := by
  rw [continueSet, contains_ranges, isSelectorChar_iff, isSelectorStart_iff, isWordChar_iff]
  simp only [List.mem_cons, List.not_mem_nil, or_false, exists_eq_or_imp, exists_eq_left,
    Char.reduceToNat]
  omega

theorem contains_wordSet (c : Char) : wordSet.contains c = isWordChar c := by
  rw [Bool.eq_iff_iff, wordSet, contains_ranges, isWordChar_iff]
  simp only [List.mem_cons, List.not_mem_nil, or_false, exists_eq_or_imp, exists_eq_left,
    Char.reduceToNat]
  omega

theorem contains_openingSet (c : Char) :
    openingSet.contains c = true ↔ c ∈ ['(', '{', '['] := by
  rw [openingSet, contains_ranges]
  simp only [List.mem_cons, List.not_mem_nil, or_false, exists_eq_or_imp, exists_eq_left,
    ← Char.toNat_inj, Char.reduceToNat]
  omega

theorem contains_closingSet (c : Char) :
    closingSet.contains c = true ↔ c ∈ [')', '}', ']'] := by
  rw [closingSet, contains_ranges]
  simp only [List.mem_cons, List.not_mem_nil, or_false, exists_eq_or_imp, exists_eq_left,
    ← Char.toNat_inj, Char.reduceToNat]
  omega

theorem contains_dot (c : Char) : CharSet.dot.contains c = true ↔ c ≠ '\n' := by
  simp [CharSet.contains]

end Sets

section Languages

variable {before piece after line : List Char}

theorem matches_literal_iff {c : Char} :
    Matches (literal c) before piece after ↔ piece = [c] := by
  rw [literal, matches_char_iff]
  simp [CharSet.contains]

theorem matches_anyText_iff {lazy : Bool} :
    Matches (anyText lazy) before piece after ↔ '\n' ∉ piece := by
  rw [anyText, matches_star_char_iff]
  simp only [contains_dot]
  exact ⟨fun h hmem => h _ hmem rfl, fun h c hc heq => h (heq ▸ hc)⟩

theorem matches_indentation_iff :
    Matches indentation before piece after ↔
      before = [] ∧ ∀ c ∈ piece, isBlank c = true := by
  simp only [indentation, matches_seq_iff, matches_startOfText_iff, matches_star_char_iff,
    contains_blank]
  constructor
  · rintro ⟨_, v, rfl, ⟨rfl, rfl⟩, hblank⟩
    exact ⟨rfl, hblank⟩
  · rintro ⟨rfl, hblank⟩
    exact ⟨[], piece, rfl, ⟨rfl, rfl⟩, hblank⟩

theorem matches_selector_iff :
    Matches selector before piece after ↔
      before = [] ∧ ∃ blanks sel, piece = blanks ++ sel ∧
        (∀ c ∈ blanks, isBlank c = true) ∧ IsSelector sel := by
  simp only [selector, matches_seq_iff, matches_indentation_iff, matches_char_iff,
    matches_star_char_iff, contains_startSet, contains_continueSet]
  constructor
  · rintro ⟨blanks, _, rfl, ⟨rfl, hblank⟩, _, cs, rfl, ⟨c, rfl, hc⟩, hcs⟩
    exact ⟨rfl, blanks, c :: cs, rfl, hblank, hc, hcs⟩
  · rintro ⟨rfl, blanks, sel, rfl, hblank, hsel⟩
    cases sel with
    | nil => exact hsel.elim
    | cons c cs =>
        exact ⟨blanks, c :: cs, rfl, ⟨rfl, hblank⟩, [c], cs, rfl, ⟨c, rfl, hsel.1⟩, hsel.2⟩

/-- A pattern that begins with a selector is found in a line iff the rest of some split begins
with a match of what follows. -/
theorem foundIn_selector_iff {p : Pattern} :
    FoundIn (.seq selector p) line ↔
      ∃ blanks sel piece after, Split line blanks sel (piece ++ after) ∧
        Matches p (blanks ++ sel) piece after := by
  constructor
  · rintro ⟨before, _, after, rfl, h⟩
    obtain ⟨_, piece, rfl, hsel, hpiece⟩ := matches_seq_iff.1 h
    obtain ⟨rfl, blanks, sel, rfl, hblank, hsel⟩ := matches_selector_iff.1 hsel
    exact ⟨blanks, sel, piece, after, ⟨by simp, hblank, hsel⟩, hpiece⟩
  · rintro ⟨blanks, sel, piece, after, ⟨rfl, hblank, hsel⟩, hpiece⟩
    refine ⟨[], blanks ++ sel ++ piece, after, by simp, ?_⟩
    refine Matches.seq (matches_selector_iff.2 ⟨rfl, blanks, sel, rfl, hblank, hsel⟩) ?_
    simpa using hpiece

theorem foundIn_attributesPattern_iff :
    FoundIn attributesPattern line ↔ AttributeSplit line := by
  simp only [attributesPattern, foundIn_selector_iff, introducer, matches_seq_iff,
    matches_alt_iff, matches_literal_iff, matches_anyText_iff, matches_char_iff,
    matches_plus_char_iff, contains_openingSet, contains_dot]
  constructor
  · rintro ⟨blanks, sel, _, after, hsplit, _, _, rfl, hfirst, value, tail, rfl, hvalue, -⟩
    refine ⟨blanks, sel, _, hsplit, ?_⟩
    rcases hfirst with ⟨_, _, rfl, rfl, text, _, rfl, htext, rfl⟩ | ⟨bracket, rfl, hbracket⟩
    · exact Or.inl ⟨text, value, tail ++ after, by simp, htext, hvalue⟩
    · exact Or.inr ⟨bracket, value, tail ++ after, by simp, hbracket, hvalue⟩
  · rintro ⟨blanks, sel, _, hsplit, hbare | hwrapped⟩
    · obtain ⟨text, value, after, rfl, htext, hvalue⟩ := hbare
      refine ⟨blanks, sel, ' ' :: (text ++ ['=', value]), after, by simpa using hsplit,
        ' ' :: (text ++ ['=']), [value], by simp, Or.inl ?_, value, [], rfl, hvalue, by simp⟩
      exact ⟨[' '], text ++ ['='], rfl, rfl, text, ['='], rfl, htext, rfl⟩
    · obtain ⟨bracket, value, after, rfl, hbracket, hvalue⟩ := hwrapped
      exact ⟨blanks, sel, [bracket, value], after, hsplit, [bracket], [value], rfl,
        Or.inr ⟨bracket, rfl, hbracket⟩, value, [], rfl, hvalue, by simp⟩

theorem matches_openingPattern_iff {style : Style} :
    Matches (openingPattern style) before piece after ↔ ∃ c ∈ openings style, piece = [c] := by
  cases style with
  | any =>
      simp only [openingPattern, openings, matches_char_iff, contains_openingSet]
      exact ⟨fun ⟨c, h, hc⟩ => ⟨c, hc, h⟩, fun ⟨c, hc, h⟩ => ⟨c, h, hc⟩⟩
  | unwrapped | round | curly | square =>
      simp [openingPattern, openings, matches_literal_iff]

theorem matches_closingPattern_iff {style : Style} :
    Matches (closingPattern style) before piece after ↔ piece ∈ closings style := by
  cases style with
  | unwrapped => simp [closingPattern, closings, matches_empty_iff]
  | any =>
      simp only [closingPattern, closings, matches_char_iff, contains_closingSet]
      constructor
      · rintro ⟨c, rfl, hc⟩
        simpa using hc
      · intro h
        simp only [List.mem_cons, List.not_mem_nil, or_false] at h
        rcases h with rfl | rfl | rfl <;> exact ⟨_, rfl, by simp⟩
  | round | curly | square => simp [closingPattern, closings, matches_literal_iff]

theorem foundIn_conformancePattern_iff {style : Style} :
    FoundIn (conformancePattern style) line ↔ ConformingSplit style line := by
  simp only [conformancePattern, foundIn_selector_iff, matches_seq_iff,
    matches_openingPattern_iff, matches_anyText_iff, matches_closingPattern_iff,
    matches_endOfText_iff]
  constructor
  · rintro ⟨blanks, sel, _, after, hsplit, _, _, rfl, ⟨c, hc, rfl⟩, content, _, rfl, hcontent,
      closing, _, rfl, hclosing, tail, _, rfl, htail, rfl, rfl⟩
    exact ⟨blanks, sel, _, hsplit, c, hc, closing, hclosing, content, tail, by simp, hcontent,
      htail⟩
  · rintro ⟨blanks, sel, _, hsplit, c, hc, closing, hclosing, content, tail, rfl, hcontent,
      htail⟩
    exact ⟨blanks, sel, _, [], by simpa using hsplit, [c], content ++ (closing ++ tail), rfl,
      ⟨c, hc, rfl⟩, content, closing ++ tail, rfl, hcontent, closing, tail, rfl, hclosing, tail,
      [], by simp, htail, rfl, rfl⟩

theorem matches_word_iff {w : List Char} :
    Matches (word w) before piece after ↔ piece = w := by
  induction w generalizing before piece with
  | nil => exact matches_empty_iff
  | cons c w ih =>
      simp only [word, matches_seq_iff, matches_literal_iff, ih]
      constructor
      · rintro ⟨_, _, rfl, rfl, rfl⟩
        rfl
      · rintro rfl
        exact ⟨[c], w, rfl, rfl, rfl⟩

/-- The last letter of the word makes the left side of the boundary a word character. -/
theorem isWordAt_getLast?_doctype (blanks : List Char) :
    isWordAt (blanks ++ "doctype".toList).getLast? = true := by
  have hlast : "doctype".toList.getLast? = some 'e' := by decide
  rw [List.getLast?_append, hlast, Option.some_or]
  decide

theorem foundIn_doctypePattern_iff : FoundIn doctypePattern line ↔ DoctypeSplit line := by
  simp only [FoundIn, doctypePattern, matches_seq_iff, matches_indentation_iff,
    matches_word_iff, matches_wordBoundary_iff]
  constructor
  · rintro ⟨_, _, rest, rfl, blanks, _, rfl, ⟨rfl, hblank⟩, _, _, rfl, rfl, rfl, hdiffer⟩
    refine ⟨blanks, rest, by simp, hblank, fun c hc => ?_⟩
    rw [List.nil_append, isWordAt_getLast?_doctype] at hdiffer
    rw [Option.mem_def] at hc
    simpa [isWordAt, hc, contains_wordSet] using hdiffer
  · rintro ⟨blanks, rest, rfl, hblank, hboundary⟩
    refine ⟨[], blanks ++ "doctype".toList, rest, rfl, blanks, _, rfl, ⟨rfl, hblank⟩,
      "doctype".toList, [], by simp, rfl, rfl, ?_⟩
    rw [List.nil_append, isWordAt_getLast?_doctype]
    cases hhead : rest.head? with
    | none => simp [isWordAt]
    | some c => simp [isWordAt, contains_wordSet, hboundary c hhead]

end Languages

/-- A matcher decides a pattern: the pattern is written by this text, the matcher accepts the
lines in which the pattern is found, and these are the lines with such a split. -/
structure Decides (matcher : List Char → Bool) (pattern : Pattern) (source : String)
    (split : List Char → Prop) : Prop where
  source : pattern.text = source.toList
  language : ∀ line, matcher line = true ↔ FoundIn pattern line
  scan : ∀ line, matcher line = true ↔ split line

/-- The matchers accept exactly the lines that their patterns match in the sense of languages.
A split of the line that fits exists iff the one that the scan from left to right takes fits. -/
theorem matchers_decide_patterns :
    Decides hasAttributes attributesPattern
        "\\A(?-u:\\s)*[0-9A-Za-z_.#][0-9A-Za-z_.#-]*(?: .*?=|[(\x7b\\[]).+" AttributeSplit ∧
      Decides isDoctype doctypePattern "\\A(?-u:\\s)*doctype(?-u:\\b)" DoctypeSplit ∧
      ∀ style : Style,
        Decides (conforms style) (conformancePattern style)
          ("\\A(?-u:\\s)*[0-9A-Za-z_.#][0-9A-Za-z_.#-]*" ++ style.delimiters.1 ++ ".*"
            ++ style.delimiters.2 ++ ".*\\z")
          (ConformingSplit style) := by
  refine ⟨⟨by decide, fun line => ?_, fun line => hasAttributes_iff_split⟩,
    ⟨by decide, fun line => ?_, fun line => isDoctype_iff_split⟩,
    fun style => ⟨?_, fun line => ?_, fun line => conforms_iff_split⟩⟩
  · rw [hasAttributes_iff_split, foundIn_attributesPattern_iff]
  · rw [isDoctype_iff_split, foundIn_doctypePattern_iff]
  · rw [text_conformancePattern, text_selector]
    simp only [String.toList_append]
    rfl
  · rw [conforms_iff_split, foundIn_conformancePattern_iff]

end Line
end WrapLint
