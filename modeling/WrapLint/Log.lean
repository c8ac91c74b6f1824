import WrapLint.Problem

/-!
# The log of a run

While a command works it takes notes.  They are kept as what happened, not as text, and only
those that the user asked for are shown.

**Contents.**  The notes with their levels and messages, and `Traced`, the type of
computations that take notes and may fail.  The notes never decide anything: the outcome of a
traced computation is that of the same computation without notes (`outcome_bind`).
-/

namespace WrapLint

/-- How important a note is. -/
inductive LogLevel where
  | error
  | warn
  | info
  | debug
  deriving DecidableEq

namespace LogLevel

/-- The name of a level in the log. -/
def label : LogLevel → String
  | .error => "ERROR"
  | .warn => "WARN"
  | .info => "INFO"
  | .debug => "DEBUG"

/-- The name of a level as a filter. -/
def filterName : LogLevel → String
  | .error => "error"
  | .warn => "warn"
  | .info => "info"
  | .debug => "debug"

/-- The place of a level, the most important first. -/
def rank : LogLevel → Nat
  | .error => 0
  | .warn => 1
  | .info => 2
  | .debug => 3

end LogLevel

/-- What is noted. -/
inductive Note where
  | settingsLoaded (path : String)
  | noLocalSettings (name : String)
  | linterDisabled (name : String)
  | documentsFound (count : Nat)
  | documentRefused (path : String) (problem : Problem)
  | documentLinted (path : String) (lines lints : Nat)

namespace Note

/-- The level of a note. -/
def level : Note → LogLevel
  | .documentRefused .. => .warn
  | .settingsLoaded _ | .documentsFound _ => .info
  | .noLocalSettings _ | .linterDisabled _ | .documentLinted .. => .debug

/-- The text of a note. -/
def message : Note → String
  | .settingsLoaded path => s!"loaded configuration from {path}"
  | .noLocalSettings name => s!"no {name} found, using defaults"
  | .linterDisabled name => s!"linter {name} disabled by configuration"
  | .documentsFound count => s!"linting {count} document(s)"
  | .documentRefused path problem => s!"failed to load {path}: {problem.message}"
  | .documentLinted path lines lints => s!"{path}: {lines} line(s), {lints} lint(s)"

/-- Whether a note is shown when notes up to this level are. -/
def isShown (limit : LogLevel) (note : Note) : Bool :=
  note.level.rank ≤ limit.rank

end Note

/-- The outcome of a computation and the notes it took, also those before a failure. -/
structure Traced (α : Type) where
  notes : List Note
  outcome : Except Problem α

namespace Traced

variable {α β : Type}

instance : Monad Traced where
  pure a := ⟨[], .ok a⟩
  bind x f :=
    match x.outcome with
    | .error problem => ⟨x.notes, .error problem⟩
    | .ok a => ⟨x.notes ++ (f a).notes, (f a).outcome⟩

/-- The failure with this cause. -/
def fail (problem : Problem) : Traced α :=
  ⟨[], .error problem⟩

/-- The computation that takes one note. -/
def note (note : Note) : Traced Unit :=
  ⟨[note], .ok ()⟩

/-- The computation with this outcome that takes no notes. -/
def ofExcept (outcome : Except Problem α) : Traced α :=
  ⟨[], outcome⟩

instance : LawfulMonad Traced :=
  LawfulMonad.mk' Traced
    (by
      intro α x
      rcases x with ⟨notes, outcome⟩
      cases outcome <;> simp [Functor.map])
    (by
      intro α β a f
      simp [bind, pure])
    (by
      intro α β γ x f g
      rcases x with ⟨notes, outcome⟩
      cases outcome <;> simp only [bind]
      split <;> simp_all [List.append_assoc])

@[simp] theorem outcome_pure (a : α) : (pure a : Traced α).outcome = .ok a :=
  rfl

@[simp] theorem outcome_bind (x : Traced α) (f : α → Traced β) :
    (x >>= f).outcome = x.outcome.bind (fun a => (f a).outcome) := by
  simp only [bind, Except.bind]
  split <;> simp_all

@[simp] theorem outcome_fail (problem : Problem) :
    (fail problem : Traced α).outcome = .error problem :=
  rfl

@[simp] theorem outcome_note (entry : Note) : (note entry).outcome = .ok () :=
  rfl

@[simp] theorem outcome_ofExcept (outcome : Except Problem α) :
    (ofExcept outcome).outcome = outcome :=
  rfl

end Traced
end WrapLint
