import WrapLint.SourceLines
import WrapLint.Template.Walk

/-!
# Documents

A document is what the linter looks at: the lines of a template's source and the tree that
was parsed from it.
-/

namespace WrapLint
namespace Template

/-- The lines of a source and the tree that belongs to it. -/
structure Document where
  lines : List String
  root : Node

namespace Document

/-- The document of a source text and a tree. -/
def ofSource (source : String) (root : Node) : Document :=
  ⟨SourceLines.ofSource source, root⟩

/-- The line with this number; the first line has the number one. -/
def line? (document : Document) (number : Nat) : Option String :=
  if number = 0 then none else document.lines[number - 1]?

/-- The number of lines. -/
def lineCount (document : Document) : Nat :=
  document.lines.length

/-- The state after a walk over the whole tree. -/
def walk {σ : Type} (document : Document) (visitor : Visitor σ) (state : σ) : σ :=
  document.root.walk visitor state

end Document

end Template
end WrapLint
