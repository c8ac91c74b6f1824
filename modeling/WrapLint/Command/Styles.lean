import WrapLint.Command.Outcome

/-!
# The command `styles`

Lists the styles with what each of them asks for.
-/

namespace WrapLint
namespace Styles

/-- The width of the column of keywords. -/
def keywordWidth : Nat := 7

/-- A keyword with blanks up to the width of its column. -/
def padded (word : String) : String :=
  word ++ String.ofList (List.replicate (keywordWidth - word.length) ' ')

/-- The line for one style. -/
def line (style : Style) : String :=
  padded style.keyword ++ " " ++ style.message
    ++ (if style = Style.standard then " (default)" else "") ++ "\n"

/-- The list of styles. -/
def list : String :=
  String.join (Style.all.map line)

/-- A whole run. -/
def run (disk : Disk) : Outcome :=
  ⟨Outcome.success, list, "", [], disk⟩

end Styles
end WrapLint
