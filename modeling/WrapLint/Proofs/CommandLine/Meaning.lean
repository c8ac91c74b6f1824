import WrapLint.Proofs.CommandLine.Given

/-!
# From the levels of a command line to its meaning

The options of all commands are looked up on the levels from within, each on its own.  So the
levels may differ in where such an option stands, as long as the innermost level that has it gives
it the same values.

**Results.**
* `readLevel_command`: after the words of a command, its own level is read.
* `filter_innermost_append`: an option on the innermost level, or further out.
* `invocation?_eq`: an invocation from its command and from what is given for all commands.
-/

namespace WrapLint
namespace CommandLine

/-- The commands that may be asked for. -/
inductive CommandName where
  | check
  | init
  | validate
  | styles
  deriving DecidableEq

namespace CommandName

/-- The arguments that name a command. -/
def words : CommandName → List String
  | .check => ["check"]
  | .init => ["init"]
  | .validate => ["config", "validate"]
  | .styles => ["styles"]

/-- The level of a command. -/
def level : CommandName → Level
  | .check => .check
  | .init => .init
  | .validate => .validate
  | .styles => .styles

theorem needsCommand_level (name : CommandName) : name.level.needsCommand = false := by
  cases name <;> rfl

/-- The levels above that of a command, with what is given on the outermost one. -/
def outer (given : Given) : CommandName → List (Level × Given)
  | .check | .init | .styles => [(.program, given)]
  | .validate => [(.program, given), (.config, .nothing)]

/-- The word for a command below a level leads to that level.  What is given above is looked at
afterwards. -/
theorem readLevel_below {level below : Level} {word : String} {args : List String}
    {given : Except Stop Given} (hword : Argument.ofString word = .plain)
    (hbelow : level.command? word = some below) :
    readLevel level given (word :: args)
      = readLevel below (.ok .nothing) args >>= fun levels =>
          given >>= fun given => .ok ((level, given) :: levels) := by
  rw [readLevel, hword, hbelow]

/-- The words of a command lead to its level. -/
theorem readLevel_command (name : CommandName) (given : Except Stop Given) (args : List String) :
    readLevel .program given (name.words ++ args)
      = readLevel name.level (.ok .nothing) args >>= fun levels =>
          given >>= fun given => .ok (name.outer given ++ levels) := by
  cases name with
  | check | init | styles => exact readLevel_below rfl rfl
  | validate =>
      have hbelow : readLevel .config (.ok .nothing) ("validate" :: args) = _ :=
        readLevel_below rfl rfl
      have hconfig : readLevel .program given ("config" :: "validate" :: args) = _ :=
        readLevel_below rfl rfl
      rw [words, List.cons_append, List.singleton_append, hconfig, hbelow, level]
      cases readLevel .validate (.ok .nothing) args <;> rfl

end CommandName

namespace Given

/-- What was given of one option. -/
def uses (given : Given) (switch : Switch) : List (Switch × String) :=
  given.switches.filter fun entry => entry.1 == switch

/-- These options and nothing else. -/
def ofEntries (entries : List (Switch × String)) : Given :=
  ⟨entries, []⟩

variable {switch : Switch} {given own full : Given} {entries : List (Switch × String)}

theorem has_eq_any_uses (given : Given) (switch : Switch) :
    given.has switch = (given.uses switch).any fun entry => entry.1 == switch := by
  simp only [has, uses, List.any_filter, Bool.and_self]

theorem value?_eq_lookup_uses (given : Given) (switch : Switch) :
    given.value? switch = (given.uses switch).lookup switch := by
  rw [value?, uses]
  induction given.switches with
  | nil => rfl
  | cons entry entries ih =>
      obtain ⟨key, value⟩ := entry
      rw [List.filter_cons, List.lookup_cons]
      by_cases heq : key = switch
      · simp [heq]
      · simp [heq, beq_false_of_ne (Ne.symm heq), ih]

theorem uses_eq_nil (h : given.has switch = false) : given.uses switch = [] := by
  rw [has, List.any_eq_false] at h
  exact List.filter_eq_nil_iff.2 h

/-- What is given of an option of all commands is given in front. -/
theorem Extends.uses_eq (h : Extends entries own full) (hswitch : switch ∈ Switch.globals) :
    full.uses switch = (ofEntries entries).uses switch := by
  have hown := uses_eq_nil (h.has_own hswitch)
  rw [uses] at hown
  rw [uses, h.switches, List.filter_append, hown, List.append_nil]
  rfl

end Given

section Innermost

variable {levels : List (Level × Given)} {level : Level} {given front : Given}

/-- What is given of an option on the innermost level, or else further out. -/
theorem uses_innermost_append (switch : Switch) (levels : List (Level × Given)) (level : Level)
    (given : Given) : (innermost switch (levels ++ [(level, given)])).uses switch
      = if given.has switch then given.uses switch else (innermost switch levels).uses switch := by
  rw [innermost, List.map_append, List.reverse_append]
  simp only [List.map_cons, List.map_nil, List.reverse_singleton, List.singleton_append,
    List.find?_cons]
  cases given.has switch <;> rfl

/-- A command, with what is given for all commands. -/
def invocationOf (given : Given) (command : Command) : Invocation where
  verbosity := min 255 (given.uses .verbose).length
  quiet := given.has .quiet
  color := ((given.value? .color).bind ColorChoice.ofKeyword?).getD .auto
  noConfig := given.has .noConfig
  command := command

/-- If the innermost levels give of each option of all commands what is given in front, that is in
force. -/
theorem invocation?_eq {command : Command} (hcommand : command? level given = some command)
    (huses : ∀ switch ∈ Switch.globals,
      (innermost switch (levels ++ [(level, given)])).uses switch = front.uses switch) :
    invocation? (levels ++ [(level, given)]) = some (invocationOf front command) := by
  have hhas : ∀ switch ∈ Switch.globals,
      (innermost switch (levels ++ [(level, given)])).has switch = front.has switch := by
    intro switch hswitch
    rw [Given.has_eq_any_uses, huses switch hswitch, ← Given.has_eq_any_uses]
  have hcolor : (innermost .color (levels ++ [(level, given)])).value? .color
      = front.value? .color := by
    rw [Given.value?_eq_lookup_uses, huses .color (by decide), ← Given.value?_eq_lookup_uses]
  have hcount : verbosity (levels ++ [(level, given)]) = min 255 (front.uses .verbose).length := by
    rw [← huses .verbose (by decide)]
    rfl
  rw [invocation?, List.getLast?_concat]
  simp only [bind, Option.bind, hcommand, hcount, hcolor, hhas .quiet (by decide),
    hhas .noConfig (by decide), invocationOf]

/-- Above a command, an option can only have been given on the outermost level. -/
theorem uses_innermost_outer (name : CommandName) (switch : Switch) (given : Given) :
    (innermost switch (name.outer given)).uses switch = given.uses switch := by
  have hprogram : (innermost switch [(.program, given)]).uses switch = given.uses switch := by
    rw [← List.nil_append [_], uses_innermost_append]
    cases hhas : given.has switch with
    | true => rfl
    | false => exact (Given.uses_eq_nil hhas).symm
  cases name with
  | check | init | styles => exact hprogram
  | validate =>
      have hconfig := uses_innermost_append switch [(.program, given)] .config .nothing
      exact hconfig.trans hprogram

variable {entries : List (Switch × String)} {own full : Given}

/-- Options of all commands are in force if they are given in front of a command. -/
theorem invocation?_outer (name : CommandName) (h : Given.Extends entries own full)
    {command : Command} (hcommand : command? name.level own = some command) :
    invocation? (name.outer (.ofEntries entries) ++ [(name.level, own)])
      = some (invocationOf (.ofEntries entries) command) := by
  refine invocation?_eq hcommand fun switch hswitch => ?_
  rw [uses_innermost_append, h.has_own hswitch, uses_innermost_outer]
  rfl

/-- They are in force as well if they are given behind it, in front of its own. -/
theorem invocation?_own (name : CommandName) (h : Given.Extends entries own full)
    {command : Command} (hcommand : command? name.level own = some command) :
    invocation? (name.outer .nothing ++ [(name.level, full)])
      = some (invocationOf (.ofEntries entries) command) := by
  rw [← h.command?_eq] at hcommand
  refine invocation?_eq hcommand fun switch hswitch => ?_
  rw [uses_innermost_append, uses_innermost_outer, ← h.uses_eq hswitch]
  cases hhas : full.has switch with
  | true => rfl
  | false => exact (Given.uses_eq_nil hhas).symm

/-- Every level of a command means one. -/
theorem exists_command? (name : CommandName) (given : Given) :
    ∃ command, command? name.level given = some command := by
  cases name <;> exact ⟨_, rfl⟩

end Innermost

end CommandLine
end WrapLint
