import WrapLint.Template.Document

/-!
# Lints and linters

A lint is one finding of a linter: where it is and what is wrong there.  A linter turns a
document into lints.

**Contents.**  `lintDocument` runs several linters over one document and merges what they
find: by line, and on one line in the order of the linters.
-/

namespace WrapLint

open Template (Document Position)

/-- Where a lint is. -/
inductive Location where
  /-- A line as such. -/
  | line (number : Nat)
  /-- A node of the tree. -/
  | node (position : Position)
  deriving DecidableEq

/-- The line of a location. -/
def Location.lineNumber : Location → Nat
  | .line number => number
  | .node position => position.line

/-- The column of a location; a line as such has none. -/
def Location.column : Location → Option Nat
  | .line _ => none
  | .node position => position.column

/-- A finding of the linter with this name. -/
structure Lint where
  linter : String
  location : Location
  message : String
  deriving DecidableEq

/-- The line of a lint. -/
def Lint.line (lint : Lint) : Nat :=
  lint.location.lineNumber

/-- A check with a name. -/
structure Linter where
  name : String
  run : Document → List Lint

/-- What the linters find in a document, by line.  The sort is stable, so the lints of one line
keep the order of the linters, and those of one linter the order it gave them. -/
def lintDocument (linters : List Linter) (document : Document) : List Lint :=
  (linters.flatMap (fun linter => linter.run document)).mergeSort
    (fun x y => x.line ≤ y.line)

end WrapLint
