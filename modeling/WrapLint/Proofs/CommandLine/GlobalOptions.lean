import Mathlib.Data.List.TakeWhile
import WrapLint.Proofs.CommandLine.Level
import WrapLint.Proofs.CommandLine.Meaning

/-!
# Reading options of all commands

The options that every command has can be written in several ways: by a short name, perhaps in a
bundle, or by a long one, and a colour in one argument or in two.  Every level has these options, and
reads them in the same way.  A fault in a colour is met at once, with one exception: an argument of
its own is looked at when the level is read on, so the next argument may decide before it does.

**Results.**
* `readLevel_words`, `readLevel_color`: how one such option is read.
* `readLevel_written`: some of them, with values that are fine, are all given.
* `readLevel_written_of_endsInFault`: a fault in the last one is left to the rest of the level.
* `readLevel_written_of_fault`: any other fault is reported at once.
-/

namespace WrapLint
namespace CommandLine

section Options

/-- An option of all commands whose short name may be bundled. -/
inductive ShortOption where
  | verbose
  | quiet

/-- The short name. -/
def ShortOption.letter : ShortOption → Char
  | .verbose => 'v'
  | .quiet => 'q'

/-- The option. -/
def ShortOption.switch : ShortOption → Switch
  | .verbose => .verbose
  | .quiet => .quiet

/-- Options of all commands as they may be written, with the value of those that have one. -/
inductive GlobalOption where
  /-- One short option or several in a bundle, such as `-v` and `-vvq`. -/
  | short (first : ShortOption) (more : List ShortOption)
  | verbose
  | quiet
  | noConfig
  /-- In one argument, as in `--color=never`. -/
  | colorWith (value : String)
  /-- In two arguments. -/
  | color (value : String)

namespace GlobalOption

/-- The arguments that write it. -/
def words : GlobalOption → List String
  | .short first more => [String.ofList ('-' :: (first :: more).map ShortOption.letter)]
  | .verbose => ["--verbose"]
  | .quiet => ["--quiet"]
  | .noConfig => ["--no-config"]
  | .colorWith value => ["--color=" ++ value]
  | .color value => ["--color", value]

/-- What it gives, in order. -/
def entries : GlobalOption → List (Switch × String)
  | .short first more => (first :: more).map fun option => (option.switch, "")
  | .verbose => [(.verbose, "")]
  | .quiet => [(.quiet, "")]
  | .noConfig => [(.noConfig, "")]
  | .colorWith value | .color value => [(.color, value)]

/-- Whether the value, if there is one, is a choice of colours. -/
def isLegible : GlobalOption → Bool
  | .colorWith value | .color value => (ColorChoice.ofKeyword? value).isSome
  | _ => true

end GlobalOption

/-- The arguments that write some options. -/
def written (options : List GlobalOption) : List String :=
  options.flatMap GlobalOption.words

/-- What some options give. -/
def entriesOf (options : List GlobalOption) : List (Switch × String) :=
  options.flatMap GlobalOption.entries

/-- No option but `--verbose` is there twice. -/
def NoneRepeated (entries : List (Switch × String)) : Prop :=
  ((entries.map Prod.fst).filter fun switch => switch != .verbose).Nodup

instance (entries : List (Switch × String)) : Decidable (NoneRepeated entries) :=
  inferInstanceAs (Decidable (List.Nodup _))

/-- The last option is a colour whose value is an argument of its own and no choice of colours. -/
def EndsInFault (options : List GlobalOption) : Prop :=
  ∃ before value, options = before ++ [.color value] ∧
    Argument.ofString value = .plain ∧ ColorChoice.ofKeyword? value = none

end Options

section Taking

variable {level : Level} {given : Given} {args : List String}

/-- What is given after these options, one after the other. -/
def takeAll (given : Given) (entries : List (Switch × String)) : Except Stop Given :=
  entries.foldlM (fun given entry => given.take entry.1 entry.2) given

theorem takeAll_cons (given : Given) (entry : Switch × String) (entries : List (Switch × String)) :
    takeAll given (entry :: entries)
      = given.take entry.1 entry.2 >>= fun given => takeAll given entries :=
  List.foldlM_cons

theorem takeAll_append (given : Given) (first second : List (Switch × String)) :
    takeAll given (first ++ second)
      = takeAll given first >>= fun given => takeAll given second :=
  List.foldlM_append

theorem byShort?_letter (level : Level) (option : ShortOption) :
    level.byShort? option.letter = some option.switch := by
  cases option <;> cases level <;> rfl

theorem readBundle_letters (level : Level) (given : Given) (options : List ShortOption) :
    readBundle level given (options.map ShortOption.letter)
      = takeAll given (options.map fun option => (option.switch, ""))
          >>= fun given => .ok (given, none) := by
  induction options generalizing given with
  | nil => rfl
  | cons option options ih =>
      have hvalue : option.switch.takesValue = false := by cases option <;> rfl
      rw [List.map_cons, readBundle, byShort?_letter]
      simp only [hvalue, Bool.false_eq_true, if_false, ih]
      rw [List.map_cons, takeAll_cons]
      cases given.take option.switch "" <;> rfl

/-- An option that has all it needs in one argument is read as it is taken. -/
theorem readLevel_of_reader {arg : String} {entries : List (Switch × String)}
    {read : Given → Except Stop (Given × Option Switch)}
    (hread : optionReader? level (Argument.ofString arg) = some read)
    (htake : read given = takeAll given entries >>= fun given => .ok (given, none)) :
    readLevel level (.ok given) (arg :: args)
      = takeAll given entries >>= fun given => readLevel level (.ok given) args := by
  have hoption : readLevel level (.ok given) (arg :: args)
      = read given >>= readOn level args := readLevel_option hread
  rw [hoption, htake]
  cases takeAll given entries <;> rfl

theorem readLong_flag (level : Level) (given : Given) {switch : Switch}
    (hswitch : switch ∈ [Switch.verbose, .quiet, .noConfig]) :
    readLong level given switch.long.toList
      = takeAll given [(switch, "")] >>= fun given => .ok (given, none) := by
  have hname : ∀ switch ∈ [Switch.verbose, .quiet, .noConfig],
      level.byLong? (String.ofList (switch.long.toList.takeWhile fun c => c != '=')) = some switch ∧
      switch.long.toList.drop (switch.long.toList.takeWhile fun c => c != '=').length = [] ∧
      switch.takesValue = false := by
    cases level <;> decide
  obtain ⟨hfound, hrest, hvalue⟩ := hname switch hswitch
  rw [readLong, hfound, hrest]
  simp only [hvalue, Bool.false_eq_true, if_false]
  rw [takeAll_cons]
  cases given.take switch "" <;> rfl

theorem readLevel_flag (switch : Switch) (hswitch : switch ∈ [Switch.verbose, .quiet, .noConfig])
    {arg : String} (hkind : Argument.ofString arg = .long switch.long.toList) :
    readLevel level (.ok given) (arg :: args)
      = takeAll given [(switch, "")] >>= fun given => readLevel level (.ok given) args :=
  readLevel_of_reader (by rw [hkind]; rfl) (readLong_flag level given hswitch)

theorem readLong_color (level : Level) (given : Given) (value : List Char) :
    readLong level given ("color".toList ++ '=' :: value)
      = takeAll given [(.color, String.ofList value)] >>= fun given => .ok (given, none) := by
  have hname : ("color".toList ++ '=' :: value).takeWhile (fun c => c != '=') = "color".toList :=
    rfl
  have hfound : level.byLong? (String.ofList "color".toList) = some .color := by
    cases level <;> decide
  rw [readLong, hname, hfound, List.drop_left, takeAll_cons]
  have hvalue : Switch.color.takesValue = true := rfl
  simp only [hvalue, if_true]
  cases given.take .color (String.ofList value) <;> rfl

theorem ofString_short (first : ShortOption) (more : List ShortOption) :
    Argument.ofString (String.ofList ('-' :: (first :: more).map ShortOption.letter))
      = .bundle ((first :: more).map ShortOption.letter) := by
  rw [Argument.ofString, String.toList_ofList]
  cases first <;> rfl

theorem ofString_colorWith (value : String) :
    Argument.ofString ("--color=" ++ value) = .long ("color".toList ++ '=' :: value.toList) := by
  rw [Argument.ofString, String.toList_append]
  rfl

/-- On every level, an option of all commands that is one argument is read as it is taken. -/
theorem readLevel_words {option : GlobalOption} (h : ∀ value, option ≠ .color value) :
    readLevel level (.ok given) (option.words ++ args)
      = takeAll given option.entries >>= fun given => readLevel level (.ok given) args := by
  cases option with
  | short first more =>
      have hread := readBundle_letters level given (first :: more)
      exact readLevel_of_reader (by rw [ofString_short]; rfl) hread
  | verbose => exact readLevel_flag .verbose (by decide) rfl
  | quiet => exact readLevel_flag .quiet (by decide) rfl
  | noConfig => exact readLevel_flag .noConfig (by decide) rfl
  | colorWith value =>
      have hread := readLong_color level given value.toList
      rw [String.ofList_toList] at hread
      exact readLevel_of_reader (by rw [ofString_colorWith]; rfl) hread
  | color value => exact absurd rfl (h value)

/-- A colour in an argument of its own is taken when its level is read on. -/
theorem readLevel_color (value : String) :
    readLevel level (.ok given) ((GlobalOption.color value).words ++ args)
      = match Argument.ofString value with
        | .plain => readLevel level (given.take .color value) args
        | _ => .error .usage := by
  have hread : optionReader? level (Argument.ofString "--color")
      = some fun given => readLong level given "color".toList := rfl
  have hcolor : readLong level given "color".toList = .ok (given, some .color) := by
    cases level <;> rfl
  have hoption : readLevel level (.ok given) ("--color" :: value :: args)
      = readLong level given "color".toList >>= readOn level (value :: args) :=
    readLevel_option hread
  rw [GlobalOption.words, List.cons_append, List.singleton_append, hoption, hcolor]
  rfl

/-- A fault that is not reported yet is reported at the next option of all commands. -/
theorem readLevel_words_usage (option : GlobalOption) :
    readLevel level (.error .usage) (option.words ++ args) = .error .usage := by
  have hreader : ∃ arg rest read, option.words = arg :: rest ∧
      optionReader? level (Argument.ofString arg) = some read := by
    cases option with
    | short first more => exact ⟨_, _, _, rfl, by rw [ofString_short]; rfl⟩
    | colorWith value => exact ⟨_, _, _, rfl, by rw [ofString_colorWith]; rfl⟩
    | verbose | quiet | noConfig | color value => exact ⟨_, _, _, rfl, rfl⟩
  obtain ⟨arg, rest, read, hwords, hread⟩ := hreader
  rw [hwords, List.cons_append, readLevel_option hread]
  rfl

end Taking

section Legible

variable {level : Level} {given : Given} {args : List String}

theorem accepts_of_isLegible {option : GlobalOption} (h : option.isLegible = true) :
    ∀ entry ∈ option.entries, entry.1.accepts entry.2 = true := by
  cases option with
  | short first more =>
      intro entry hentry
      obtain ⟨short, -, rfl⟩ := List.mem_map.1 hentry
      cases short <;> rfl
  | verbose | quiet | noConfig => exact fun entry hentry => by rw [List.mem_singleton.1 hentry]; rfl
  | colorWith value | color value =>
      exact fun entry hentry => by rw [List.mem_singleton.1 hentry]; exact h

theorem mem_globals_of_mem_entries {option : GlobalOption} {entry : Switch × String}
    (h : entry ∈ option.entries) : entry.1 ∈ Switch.globals := by
  cases option with
  | short first more =>
      obtain ⟨short, -, rfl⟩ := List.mem_map.1 h
      cases short <;> decide
  | verbose | quiet | noConfig | colorWith value | color value =>
      rw [List.mem_singleton.1 h]
      simp [Switch.globals]

theorem ofString_of_isLegible {value : String} (h : (GlobalOption.color value).isLegible = true) :
    Argument.ofString value = .plain := by
  obtain ⟨choice, hchoice⟩ := Option.isSome_iff_exists.1 h
  have hkeyword : choice.keyword = value := by simpa using List.find?_some hchoice
  rw [← hkeyword]
  cases choice <;> rfl

theorem exists_color_of_not_isLegible {option : GlobalOption} (h : option.isLegible = false) :
    ∃ value, (Switch.color, value) ∈ option.entries := by
  cases option with
  | short first more => cases h
  | verbose | quiet | noConfig => cases h
  | colorWith value | color value => exact ⟨value, List.mem_singleton_self _⟩

theorem take_color_of_not_isLegible {value : String}
    (h : (GlobalOption.color value).isLegible = false) :
    given.take .color value = .error .usage := by
  have haccepts : Switch.color.accepts value = false := h
  rw [Given.take_eq (by decide) (by decide), haccepts, Bool.not_false, Bool.or_true, if_pos rfl]

/-- The next of some options that are not repeated was not given before, unless it counts. -/
theorem not_has_of_noneRepeated {entry : Switch × String} {entries : List (Switch × String)}
    (h : NoneRepeated (given.switches ++ entry :: entries)) :
    (entry.1 != .verbose && given.has entry.1) = false := by
  by_cases hverbose : entry.1 = .verbose
  · rw [hverbose]
    rfl
  · have hcounts : (entry.1 != .verbose) = true := bne_iff_ne.2 hverbose
    rw [NoneRepeated, List.map_append, List.filter_append, List.nodup_append] at h
    rw [hcounts, Bool.true_and, Given.has, List.any_eq_false]
    intro other hother heq
    have hbefore : entry.1 ∈ given.switches.map Prod.fst :=
      List.mem_map.2 ⟨other, hother, beq_iff_eq.1 heq⟩
    exact h.2.2 entry.1 (List.mem_filter.2 ⟨hbefore, hcounts⟩) entry.1
      (List.mem_filter.2 ⟨List.mem_cons_self, hcounts⟩) rfl

/-- Options of all commands that are not repeated are all taken, if their values are fine. -/
theorem takeAll_eq_ok {entries : List (Switch × String)}
    (hglobal : ∀ entry ∈ entries, entry.1 ∈ Switch.globals)
    (haccepts : ∀ entry ∈ entries, entry.1.accepts entry.2 = true)
    (honce : NoneRepeated (given.switches ++ entries)) :
    takeAll given entries = .ok { given with switches := given.switches ++ entries } := by
  induction entries generalizing given with
  | nil =>
      rw [List.append_nil]
      rfl
  | cons entry entries ih =>
      rw [List.forall_mem_cons] at hglobal haccepts
      have hnew := not_has_of_noneRepeated honce
      have hhelp : entry.1 ≠ .help := fun heq => by simp [heq, Switch.globals] at hglobal
      have hversion : entry.1 ≠ .version := fun heq => by simp [heq, Switch.globals] at hglobal
      rw [takeAll_cons, Given.take_eq hhelp hversion, hnew, haccepts.1]
      have honce' : NoneRepeated ((given.switches ++ [entry]) ++ entries) := by
        rwa [List.append_assoc]
      have hrest := @ih { given with switches := given.switches ++ [entry] } hglobal.2 haccepts.2
        honce'
      rw [List.append_assoc] at hrest
      exact hrest

/-- An option of all commands that is fine is taken on every level. -/
theorem readLevel_words_of_take {option : GlobalOption} {next : Given}
    (hlegible : option.isLegible = true) (htake : takeAll given option.entries = .ok next) :
    readLevel level (.ok given) (option.words ++ args) = readLevel level (.ok next) args := by
  by_cases hcolor : ∃ value, option = .color value
  · obtain ⟨value, rfl⟩ := hcolor
    have htake' : given.take .color value = .ok next := by
      rw [GlobalOption.entries, takeAll_cons] at htake
      cases h : given.take .color value with
      | error reason => rw [h] at htake; cases htake
      | ok found => rw [h] at htake; exact htake
    rw [readLevel_color, ofString_of_isLegible hlegible, htake']
  · rw [readLevel_words fun value h => hcolor ⟨value, h⟩, htake]
    rfl

theorem readLevel_written_of_take {options : List GlobalOption} {last : Given}
    (hlegible : ∀ option ∈ options, option.isLegible = true)
    (htake : takeAll given (entriesOf options) = .ok last) :
    readLevel level (.ok given) (written options ++ args) = readLevel level (.ok last) args := by
  induction options generalizing given with
  | nil =>
      cases htake
      rfl
  | cons option options ih =>
      rw [List.forall_mem_cons] at hlegible
      rw [entriesOf, List.flatMap_cons, takeAll_append] at htake
      cases hnext : takeAll given option.entries with
      | error reason => rw [hnext] at htake; cases htake
      | ok next =>
          rw [hnext] at htake
          rw [written, List.flatMap_cons, List.append_assoc,
            readLevel_words_of_take hlegible.1 hnext]
          exact ih hlegible.2 htake

theorem mem_globals_of_mem_entriesOf {options : List GlobalOption} :
    ∀ entry ∈ entriesOf options, entry.1 ∈ Switch.globals := by
  intro entry hentry
  obtain ⟨option, -, hoption⟩ := List.mem_flatMap.1 hentry
  exact mem_globals_of_mem_entries hoption

theorem NoneRepeated.left {first second : List (Switch × String)}
    (h : NoneRepeated (first ++ second)) : NoneRepeated first := by
  rw [NoneRepeated, List.map_append, List.filter_append] at h
  exact (List.nodup_append.1 h).1

/-- On any level, options of all commands whose values are fine are given one after the other. -/
theorem readLevel_written {options : List GlobalOption} (honce : NoneRepeated (entriesOf options))
    (hlegible : ∀ option ∈ options, option.isLegible = true) :
    readLevel level (.ok .nothing) (written options ++ args)
      = readLevel level (.ok (.ofEntries (entriesOf options))) args := by
  have haccepts : ∀ entry ∈ entriesOf options, entry.1.accepts entry.2 = true := by
    intro entry hentry
    obtain ⟨option, hoption, hmem⟩ := List.mem_flatMap.1 hentry
    exact accepts_of_isLegible (hlegible option hoption) entry hmem
  have htake : takeAll .nothing (entriesOf options) = .ok (.ofEntries (entriesOf options)) :=
    takeAll_eq_ok mem_globals_of_mem_entriesOf haccepts honce
  exact readLevel_written_of_take hlegible htake

/-- Up to the first option with a fault. -/
theorem readLevel_written_append {before after : List GlobalOption} {option : GlobalOption}
    (honce : NoneRepeated (entriesOf (before ++ option :: after)))
    (hlegible : ∀ option ∈ before, option.isLegible = true) :
    readLevel level (.ok .nothing) (written (before ++ option :: after) ++ args)
      = readLevel level (.ok (.ofEntries (entriesOf before)))
          (option.words ++ (written after ++ args)) := by
  have hbefore : NoneRepeated (entriesOf before) := by
    rw [entriesOf, List.flatMap_append] at honce
    exact honce.left
  rw [written, List.flatMap_append, List.flatMap_cons, List.append_assoc, List.append_assoc]
  exact readLevel_written hbefore hlegible

/-- In front of a colour that is not repeated, there is no other value that could be at fault. -/
theorem isLegible_of_before_color {before : List GlobalOption} {value : String}
    (honce : NoneRepeated (entriesOf (before ++ [.color value]))) :
    ∀ option ∈ before, option.isLegible = true := by
  have hentries : entriesOf (before ++ [.color value]) = entriesOf before ++ [(.color, value)] := by
    rw [entriesOf, List.flatMap_append]
    rfl
  rw [hentries] at honce
  have hnone : (Given.ofEntries (entriesOf before)).has .color = false :=
    @not_has_of_noneRepeated (.ofEntries (entriesOf before)) (.color, value) [] honce
  rw [Given.has, List.any_eq_false] at hnone
  intro option hoption
  by_contra hfault
  rw [Bool.not_eq_true] at hfault
  obtain ⟨other, hother⟩ := exists_color_of_not_isLegible hfault
  exact hnone _ (List.mem_flatMap.2 ⟨option, hoption, hother⟩) rfl

/-- A fault in the last option is left to the rest of its level, if the value is an argument of its
own. -/
theorem readLevel_written_of_endsInFault {options : List GlobalOption}
    (honce : NoneRepeated (entriesOf options)) (h : EndsInFault options) :
    readLevel level (.ok .nothing) (written options ++ args)
      = readLevel level (.error .usage) args := by
  obtain ⟨before, value, rfl, hplain, hvalue⟩ := h
  have hfault : (GlobalOption.color value).isLegible = false := by
    rw [GlobalOption.isLegible, hvalue, Option.isSome_none]
  rw [readLevel_written_append honce (isLegible_of_before_color honce), readLevel_color, hplain,
    take_color_of_not_isLegible hfault]
  rfl

theorem exists_first_fault {options : List GlobalOption}
    (h : ¬ ∀ option ∈ options, option.isLegible = true) :
    ∃ before option after, options = before ++ option :: after ∧
      (∀ option ∈ before, option.isLegible = true) ∧ option.isLegible = false := by
  have hsplit := List.takeWhile_append_dropWhile (p := GlobalOption.isLegible) (l := options)
  have hbefore : ∀ option ∈ options.takeWhile GlobalOption.isLegible, option.isLegible = true :=
    fun _ hoption => List.mem_takeWhile_imp hoption
  have hhead := List.head?_dropWhile_not GlobalOption.isLegible options
  cases hrest : options.dropWhile GlobalOption.isLegible with
  | nil =>
      rw [hrest, List.append_nil] at hsplit
      rw [hsplit] at hbefore
      exact absurd hbefore h
  | cons option after =>
      rw [hrest] at hsplit hhead
      exact ⟨_, option, after, hsplit.symm, hbefore, by simpa using hhead⟩

/-- Any other fault is reported at once. -/
theorem readLevel_written_of_fault {options : List GlobalOption}
    (honce : NoneRepeated (entriesOf options))
    (hfault : ¬ ∀ option ∈ options, option.isLegible = true) (hend : ¬ EndsInFault options) :
    readLevel level (.ok .nothing) (written options ++ args) = .error .usage := by
  obtain ⟨before, option, after, rfl, hbefore, hoption⟩ := exists_first_fault hfault
  rw [readLevel_written_append honce hbefore]
  cases option with
  | short first more => cases hoption
  | verbose | quiet | noConfig => cases hoption
  | colorWith value =>
      have hvalue : (GlobalOption.color value).isLegible = false := hoption
      rw [readLevel_words (by simp), GlobalOption.entries, takeAll_cons,
        take_color_of_not_isLegible hvalue]
      rfl
  | color value =>
      rw [readLevel_color, take_color_of_not_isLegible hoption]
      cases hkind : Argument.ofString value with
      | endOfOptions | long text | bundle text => rfl
      | plain =>
          -- With another option behind it the fault is met there; with none it is the last one.
          cases after with
          | nil =>
              have hvalue : ColorChoice.ofKeyword? value = none := Option.not_isSome_iff_eq_none.1
                (Bool.not_eq_true _ ▸ hoption)
              exact absurd ⟨before, value, rfl, hkind, hvalue⟩ hend
          | cons next after =>
              rw [written, List.flatMap_cons, List.append_assoc]
              exact readLevel_words_usage next

end Legible

end CommandLine
end WrapLint
