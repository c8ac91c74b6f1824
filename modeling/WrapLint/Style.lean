/-!
# Attribute wrapper styles

A template may write the attributes of an element bare (`div a=b`) or inside a pair of
brackets (`div(a=b)`, `div[a=b]`, and with curly brackets).  A *style* says which of these
forms a project has chosen.

**Contents.**  The five styles, the keyword of each, the brackets it asks for, the pattern
fragments that describe its opening and closing characters, and the sentence shown to the
author of a line that breaks it.

**Results.**
* `ofKeyword?_keyword`: every style is found again from its keyword.
* `keyword_of_ofKeyword?`: a keyword that is found is the keyword of the style found.
-/

namespace WrapLint

/-- The forms that attributes may be asked to take. -/
inductive Style where
  /-- No wrapper characters at all. -/
  | unwrapped
  | round
  | curly
  | square
  /-- Any one of the three kinds of bracket. -/
  | any
  deriving DecidableEq, Inhabited

namespace Style

/-- Every style, in the order in which they are listed for a reader. -/
def all : List Style :=
  [.unwrapped, .round, .curly, .square, .any]

/-- The word that names a style in settings and on the command line. -/
def keyword : Style → String
  | .unwrapped => "none"
  | .round => "round"
  | .curly => "curly"
  | .square => "square"
  | .any => "any"

/-- The style with this keyword.  Case and surrounding blanks count. -/
def ofKeyword? (word : String) : Option Style :=
  all.find? (fun style => style.keyword == word)

/-- The pair of brackets a style asks for, where it asks for one pair. -/
def brackets : Style → Option (Char × Char)
  | .round => some ('(', ')')
  | .curly => some ('{', '}')
  | .square => some ('[', ']')
  | .unwrapped | .any => none

/-- Pattern fragments for the opening and the closing delimiter. -/
def delimiters : Style → String × String
  | .unwrapped => (" ", "")
  | .round => ("\\(", "\\)")
  | .curly => ("\\\x7b", "\\\x7d")
  | .square => ("\\[", "\\]")
  | .any => ("[(\x7b\\[]", "[)\x7d\\]]")

/-- What the author of a line that breaks the style is told. -/
def message (style : Style) : String :=
  match style.brackets with
  | some (opening, closing) => s!"Should wrap attributes in {opening} and {closing}"
  | none =>
    if style = .any then "Should wrap attributes in either (), [] or \x7b\x7d"
    else "Should not have any attribute wrapper characters"

/-- The style of a project that chooses none. -/
def standard : Style := .unwrapped

theorem ofKeyword?_keyword (style : Style) :
    ofKeyword? style.keyword = some style := by
  cases style <;> decide

theorem keyword_of_ofKeyword? {word : String} {style : Style}
    (h : ofKeyword? word = some style) : style.keyword = word := by
  have := List.find?_some h
  simpa using this

end Style
end WrapLint
