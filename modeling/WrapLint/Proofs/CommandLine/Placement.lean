import WrapLint.Proofs.CommandLine.GlobalOptions

/-!
# Options of all commands on either side of a command

The options that every command has may be written before the name of a command or after it.  Before
it they belong to the level of the program, after it to that of the command, and what the command
line asks for is the same: the command with its own arguments, under these options.

One thing depends on the place.  A value that is an argument of its own is looked at when its level
is read on, and on the level of the program that is after the whole command.  So if the last of the
options is a colour with a value that is none, a request for help among the arguments of the command
is met first in the one place, and the fault in the other.

**Results.**
* `parse_command`, `parse_after`, `parse_before`: a command alone, with options behind its name, and
  with options in front of it.
* `parse_on_either_side`: the two places compared.
* `place_of_options_matters`: the one exception is needed.
-/

namespace WrapLint
namespace CommandLine

section Parsing

variable {args : List String} {reason : Stop} {levels : List (Level × Given)}

theorem parse_of_error (h : readLevel .program (.ok .nothing) args = .error reason) :
    parse args = .error reason := by
  rw [parse, h]
  rfl

theorem parse_of_ok {invocation : Invocation}
    (h : readLevel .program (.ok .nothing) args = .ok levels)
    (hlevels : invocation? levels = some invocation) : parse args = .ok invocation := by
  rw [parse, h]
  simp only [bind, Except.bind, hlevels]

end Parsing

section Placement

variable {options : List GlobalOption} {args : List String}

/-- The invocation of a command, under some options. -/
def under (options : List GlobalOption) (invocation : Invocation) : Invocation :=
  invocationOf (.ofEntries (entriesOf options)) invocation.command

/-- The options of all commands stand before everything that a command takes. -/
theorem extends_nothing (options : List GlobalOption) :
    Given.Extends (entriesOf options) .nothing (.ofEntries (entriesOf options)) where
  switches := (List.append_nil _).symm
  paths := rfl
  front := mem_globals_of_mem_entriesOf
  own := nofun

/-- The ways in which the arguments of a command are read, without options of all commands and with
these in front. -/
inductive Reads (name : CommandName) (args : List String) (options : List GlobalOption) : Prop where
  | stop (reason : Stop) (hreason : reason ≠ .version)
      (hown : readLevel name.level (.ok .nothing) args = .error reason)
      (hfull : readLevel name.level (.ok (.ofEntries (entriesOf options))) args = .error reason)
  | found (own full : Given) (command : Command)
      (hown : readLevel name.level (.ok .nothing) args = .ok [(name.level, own)])
      (hfull : readLevel name.level (.ok (.ofEntries (entriesOf options))) args
        = .ok [(name.level, full)])
      (hextends : Given.Extends (entriesOf options) own full)
      (hcommand : command? name.level own = some command)

theorem reads (name : CommandName) (hargs : WithoutGlobals name.level args)
    (options : List GlobalOption) : Reads name args options := by
  have halike := alike_readLevel name.needsCommand_level hargs (.ok .nothing)
    (.ok (.ofEntries (entriesOf options))) (.ok (extends_nothing options))
  generalize hown : readLevel name.level (.ok .nothing) args = own at halike
  generalize hfull : readLevel name.level (.ok (.ofEntries (entriesOf options))) args = full
    at halike
  cases halike with
  | help => exact .stop .help (by decide) hown hfull
  | usage => exact .stop .usage (by decide) hown hfull
  | ok h =>
      obtain ⟨own, full, rfl, rfl, hextends⟩ := h
      obtain ⟨command, hcommand⟩ := exists_command? name own
      exact .found own full command hown hfull hextends hcommand

variable {name : CommandName} {given : Except Stop Given}

theorem parse_words_of_error {reason : Stop}
    (h : readLevel name.level (.ok .nothing) args = .error reason) :
    parse (name.words ++ args) = .error reason := by
  refine parse_of_error ?_
  rw [name.readLevel_command, h]
  rfl

theorem parse_words_of_ok {entries : List (Switch × String)} {own full : Given} {command : Command}
    (h : readLevel name.level (.ok .nothing) args = .ok [(name.level, full)])
    (hextends : Given.Extends entries own full)
    (hcommand : command? name.level own = some command) :
    parse (name.words ++ args) = .ok (invocationOf (.ofEntries entries) command) := by
  refine parse_of_ok ?_ (invocation?_own name hextends hcommand)
  rw [name.readLevel_command, h]
  rfl

/-- A command without options of all commands. -/
theorem parse_command {own full : Given} {command : Command}
    (h : readLevel name.level (.ok .nothing) args = .ok [(name.level, own)])
    (hextends : Given.Extends (entriesOf options) own full)
    (hcommand : command? name.level own = some command) :
    parse (name.words ++ args) = .ok (invocationOf .nothing command) :=
  parse_words_of_ok h ⟨rfl, rfl, nofun, hextends.own⟩ hcommand

/-- Behind the name of a command, options of all commands are in force. -/
theorem parse_after (honce : NoneRepeated (entriesOf options))
    (hlegible : ∀ option ∈ options, option.isLegible = true)
    (hargs : WithoutGlobals name.level args) :
    parse (name.words ++ written options ++ args)
      = (parse (name.words ++ args)).map (under options) := by
  rw [List.append_assoc]
  obtain ⟨reason, -, hown, hfull⟩ | ⟨own, full, command, hown, hfull, hextends, hcommand⟩ :=
    reads name hargs options
  · rw [← readLevel_written honce hlegible] at hfull
    rw [parse_words_of_error hown, parse_words_of_error hfull]
    rfl
  · rw [← readLevel_written honce hlegible] at hfull
    rw [parse_command hown hextends hcommand, parse_words_of_ok hfull hextends hcommand]
    rfl

/-- In front of the name of a command, they are in force as well. -/
theorem parse_before (honce : NoneRepeated (entriesOf options))
    (hlegible : ∀ option ∈ options, option.isLegible = true)
    (hargs : WithoutGlobals name.level args) :
    parse (written options ++ name.words ++ args)
      = (parse (name.words ++ args)).map (under options) := by
  have hread : readLevel .program (.ok .nothing) (written options ++ name.words ++ args)
      = readLevel name.level (.ok .nothing) args >>= fun levels =>
          .ok (name.outer (.ofEntries (entriesOf options)) ++ levels) := by
    rw [List.append_assoc, readLevel_written honce hlegible, name.readLevel_command]
    rfl
  obtain ⟨reason, -, hown, hfull⟩ | ⟨own, full, command, hown, hfull, hextends, hcommand⟩ :=
    reads name hargs options
  · rw [hown] at hread
    rw [parse_words_of_error hown, parse_of_error hread]
    rfl
  · rw [hown] at hread
    rw [parse_command hown hextends hcommand,
      parse_of_ok hread (invocation?_outer name hextends hcommand)]
    rfl

/-- Behind the name of a command, a fault is all there is to say. -/
theorem parse_after_of_fault (honce : NoneRepeated (entriesOf options))
    (hfault : ¬ ∀ option ∈ options, option.isLegible = true) :
    parse (name.words ++ written options ++ args) = .error .usage := by
  rw [List.append_assoc]
  refine parse_words_of_error ?_
  by_cases hend : EndsInFault options
  · rw [readLevel_written_of_endsInFault honce hend]
    exact readLevel_usage name.needsCommand_level args
  · exact readLevel_written_of_fault honce hfault hend

/-- In front of it too, unless the command is read first. -/
theorem parse_before_of_fault (honce : NoneRepeated (entriesOf options))
    (hfault : ¬ ∀ option ∈ options, option.isLegible = true) (hend : ¬ EndsInFault options) :
    parse (written options ++ name.words ++ args) = .error .usage := by
  refine parse_of_error ?_
  rw [List.append_assoc]
  exact readLevel_written_of_fault honce hfault hend

theorem parse_before_of_endsInFault (honce : NoneRepeated (entriesOf options))
    (hend : EndsInFault options) (hargs : WithoutGlobals name.level args) :
    parse (written options ++ name.words ++ args)
      = if parse (name.words ++ args) = .error .help then .error .help else .error .usage := by
  have hread : readLevel .program (.ok .nothing) (written options ++ name.words ++ args)
      = readLevel name.level (.ok .nothing) args >>= fun _ => .error .usage := by
    rw [List.append_assoc, readLevel_written_of_endsInFault honce hend, name.readLevel_command]
    rfl
  -- The fault waits on the level of the program, so whatever stops the command is reported instead.
  obtain ⟨reason, hreason, hown, -⟩ | ⟨own, full, command, hown, -, hextends, hcommand⟩ :=
    reads name hargs options
  · rw [hown] at hread
    rw [parse_words_of_error hown, parse_of_error hread]
    cases reason with
    | help => rfl
    | usage => rfl
    | version => exact absurd rfl hreason
  · rw [hown] at hread
    rw [parse_command hown hextends hcommand, parse_of_error hread, if_neg nofun]

theorem not_forall_isLegible_of_endsInFault (h : EndsInFault options) :
    ¬ ∀ option ∈ options, option.isLegible = true := by
  obtain ⟨before, value, rfl, -, hvalue⟩ := h
  intro hlegible
  have hcolor := hlegible (.color value) (List.mem_append_right _ (List.mem_singleton_self _))
  rw [GlobalOption.isLegible, hvalue] at hcolor
  cases hcolor

/-- The place of a value decides what is met first. -/
theorem place_of_options_matters :
    ¬ ∀ (name : CommandName) (options : List GlobalOption) (args : List String),
      NoneRepeated (entriesOf options) → WithoutGlobals name.level args →
        parse (written options ++ name.words ++ args)
          = parse (name.words ++ written options ++ args) := by
  intro h
  have hbefore : parse ["--color", "bad", "check", "--help"] = .error .help := by decide +kernel
  have hafter : parse ["check", "--color", "bad", "--help"] = .error .usage := by decide +kernel
  have hsame := h .check [.color "bad"] ["--help"] (by decide) (by decide)
  have hstop : Except.error Stop.help = (Except.error Stop.usage : Except Stop Invocation) := by
    rw [← hbefore, ← hafter]
    exact hsame
  cases hstop

/-- Options of all commands may stand in front of a command or behind its name.  Behind it, they
are in force if their values are fine, whatever the command goes on with.  In front of it they do
the same; only a fault in the last of them, in an argument of its own, comes after a request for
help. -/
theorem parse_on_either_side (name : CommandName) {options : List GlobalOption}
    {args : List String} (honce : NoneRepeated (entriesOf options))
    (hargs : WithoutGlobals name.level args) :
    (parse (name.words ++ written options ++ args)
        = if ∀ option ∈ options, option.isLegible = true then
            (parse (name.words ++ args)).map (under options)
          else .error .usage) ∧
      (¬ (EndsInFault options ∧ parse (name.words ++ args) = .error .help) →
        parse (written options ++ name.words ++ args)
          = parse (name.words ++ written options ++ args)) ∧
      (EndsInFault options → parse (name.words ++ args) = .error .help →
        parse (written options ++ name.words ++ args) = .error .help ∧
          parse (name.words ++ written options ++ args) = .error .usage) := by
  refine ⟨?_, fun hend => ?_, fun hend hhelp => ?_⟩
  · split
    · rename_i hlegible
      exact parse_after honce hlegible hargs
    · rename_i hfault
      exact parse_after_of_fault honce hfault
  · by_cases hlegible : ∀ option ∈ options, option.isLegible = true
    · rw [parse_before honce hlegible hargs, parse_after honce hlegible hargs]
    · rw [parse_after_of_fault honce hlegible]
      by_cases hlast : EndsInFault options
      · rw [parse_before_of_endsInFault honce hlast hargs, if_neg fun hhelp => hend ⟨hlast, hhelp⟩]
      · exact parse_before_of_fault honce hlegible hlast
  · have hfault := not_forall_isLegible_of_endsInFault hend
    refine ⟨?_, parse_after_of_fault honce hfault⟩
    rw [parse_before_of_endsInFault honce hend hargs, if_pos hhelp]

/-- A command whose own arguments look like options of all commands, a file to write and, where the
options have ended, a path; and a request for help with a colour that is none in front of it. -/
theorem parse_on_either_side_two_lines :
    let options : List GlobalOption :=
      [.short .verbose [.quiet, .verbose], .noConfig, .color "always"]
    let args := ["-sround", "-o-v", "--", "-q"]
    let faulty : List GlobalOption := [.quiet, .color "bad"]
    (NoneRepeated (entriesOf options) ∧ WithoutGlobals .check args ∧
        ¬ (EndsInFault options ∧ parse (["check"] ++ args) = .error .help) ∧
        parse (["-vqv", "--no-config", "--color", "always", "check"] ++ args)
          = parse (["check", "-vqv", "--no-config", "--color", "always"] ++ args)) ∧
      (NoneRepeated (entriesOf faulty) ∧ WithoutGlobals .styles ["--help"] ∧
        EndsInFault faulty ∧ parse ["styles", "--help"] = .error .help ∧
        parse ["--quiet", "--color", "bad", "styles", "--help"] = .error .help ∧
        parse ["styles", "--quiet", "--color", "bad", "--help"] = .error .usage) := by
  intro options args faulty
  have honce : NoneRepeated (entriesOf options) := by decide
  have hargs : WithoutGlobals .check args := by decide
  have hend : ¬ (EndsInFault options ∧ parse (["check"] ++ args) = .error .help) := by
    rintro ⟨-, hhelp⟩
    have hparse : parse (["check"] ++ args) = .ok ⟨0, false, .auto, false,
        .check ⟨["-q"], none, some .round, .text, some "-v"⟩⟩ := by decide +kernel
    rw [hparse] at hhelp
    cases hhelp
  have hsame := (parse_on_either_side .check honce hargs).2.1 hend
  have hfaulty : NoneRepeated (entriesOf faulty) := by decide
  have hhelp : WithoutGlobals .styles ["--help"] := by decide
  have hlast : EndsInFault faulty := ⟨[.quiet], "bad", rfl, rfl, rfl⟩
  have hparse : parse ["styles", "--help"] = .error .help := by decide +kernel
  exact ⟨⟨honce, hargs, hend, hsame⟩, hfaulty, hhelp, hlast, hparse,
    (parse_on_either_side .styles hfaulty hhelp).2.2 hlast hparse⟩

end Placement

end CommandLine
end WrapLint
