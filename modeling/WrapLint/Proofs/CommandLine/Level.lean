import WrapLint.Proofs.CommandLine.Given

/-!
# Reading the arguments of one command

Below a command there is no further one, so all that is left of a command line belongs to it.  A
value that was an argument of its own and is at fault cannot be overtaken there by anything but
the same fault, and options of all commands in front of the others go with them to the end.

**Results.**
* `readLevel_option`: an argument that is an option, long or short, is read and perhaps handed a
  value.
* `readLevel_usage`: on the level of a command a fault that is not reported yet decides.
* `alike_readLevel`: arguments without options of all commands are read alike, whatever options of
  all commands were given before them.
-/

namespace WrapLint
namespace CommandLine

section Named

/-- The options that a bundle names, as far as it can be read. -/
def Level.bundled (level : Level) : List Char → List Switch
  | [] => []
  | c :: text =>
    match level.byShort? c with
    | none => []
    | some switch => if switch.takesValue then [switch] else switch :: level.bundled text

/-- The options that an argument names. -/
def Level.named (level : Level) : Argument → List Switch
  | .long text => (level.byLong? (String.ofList (text.takeWhile fun c => c != '='))).toList
  | .bundle text => level.bundled text
  | .endOfOptions | .plain => []

/-- Up to the argument that ends the options, none of the options of all commands is named. -/
def WithoutGlobals (level : Level) (args : List String) : Prop :=
  ∀ arg ∈ args.takeWhile fun arg => arg != "--",
    ∀ switch ∈ level.named (Argument.ofString arg), switch ∉ Switch.globals

instance (level : Level) (args : List String) : Decidable (WithoutGlobals level args) :=
  inferInstanceAs (Decidable (∀ arg ∈ args.takeWhile fun arg => arg != "--",
    ∀ switch ∈ level.named (Argument.ofString arg), switch ∉ Switch.globals))

theorem withoutGlobals_cons {level : Level} {arg : String} {args : List String}
    (harg : arg ≠ "--") : WithoutGlobals level (arg :: args) ↔
      (∀ switch ∈ level.named (Argument.ofString arg), switch ∉ Switch.globals) ∧
        WithoutGlobals level args := by
  rw [WithoutGlobals, List.takeWhile_cons_of_pos (by simpa using harg), List.forall_mem_cons]
  rfl

theorem mem_switches_of_bundled {level : Level} {text : List Char} :
    ∀ switch ∈ level.bundled text, switch ∈ level.switches := by
  induction text with
  | nil => exact nofun
  | cons c text ih =>
      rw [Level.bundled]
      cases hc : level.byShort? c with
      | none => exact nofun
      | some switch =>
          have hmem := List.mem_of_find?_eq_some hc
          cases hvalue : switch.takesValue with
          | true => simpa [hvalue] using hmem
          | false => simpa [hvalue] using ⟨hmem, ih⟩

/-- What is named on the level of a command, if no command has it as one of all, is its own. -/
theorem isOwn_of_named {level : Level} {argument : Argument} (hlevel : level.needsCommand = false)
    (h : ∀ switch ∈ level.named argument, switch ∉ Switch.globals) :
    ∀ switch ∈ level.named argument, switch.IsOwn := by
  have hversion : .version ∉ level.switches := by
    cases level <;> first | decide | cases hlevel
  have hswitches : ∀ switch ∈ level.named argument, switch ∈ level.switches := by
    cases argument with
    | long text => exact fun _ hswitch => List.mem_of_find?_eq_some (Option.mem_toList.1 hswitch)
    | bundle text => exact mem_switches_of_bundled
    | endOfOptions | plain => exact nofun
  intro switch hswitch
  exact ⟨h switch hswitch, fun heq => hversion (heq ▸ hswitches switch hswitch)⟩

theorem ne_of_ofString_ne {arg : String} (h : Argument.ofString arg ≠ .endOfOptions) :
    arg ≠ "--" := by
  rintro rfl
  exact h rfl

end Named

section Reading

variable {level : Level} {given : Except Stop Given} {arg : String} {args : List String}

/-- How an argument that is an option is read. -/
def optionReader? (level : Level) :
    Argument → Option (Given → Except Stop (Given × Option Switch))
  | .long text => some fun given => readLong level given text
  | .bundle text => some fun given => readBundle level given text
  | .endOfOptions | .plain => none

theorem endOfOptions_or_plain_or_option (level : Level) (argument : Argument) :
    argument = .endOfOptions ∨ argument = .plain ∨
      ∃ read, optionReader? level argument = some read := by
  cases argument with
  | endOfOptions => exact Or.inl rfl
  | plain => exact Or.inr (Or.inl rfl)
  | long text | bundle text => exact Or.inr (Or.inr ⟨_, rfl⟩)

/-- Reading goes on after an option; if it still lacks its value, the next argument is taken. -/
def readOn (level : Level) (args : List String) :
    Given × Option Switch → Except Stop (List (Level × Given))
  | (given, none) => readLevel level (.ok given) args
  | (given, some switch) =>
    match args with
    | [] => .error .usage
    | value :: args =>
      match Argument.ofString value with
      | .plain => readLevel level (given.take switch value) args
      | _ => .error .usage

theorem readLevel_option {read : Given → Except Stop (Given × Option Switch)}
    (h : optionReader? level (Argument.ofString arg) = some read) :
    readLevel level given (arg :: args)
      = given >>= fun given => read given >>= readOn level args := by
  rw [readLevel]
  cases harg : Argument.ofString arg with
  | long text | bundle text =>
      rw [harg, optionReader?, Option.some.injEq] at h
      subst h
      rfl
  | endOfOptions | plain =>
      rw [harg] at h
      cases h

theorem readLevel_endOfOptions (hlevel : level.needsCommand = false)
    (h : Argument.ofString arg = .endOfOptions) :
    readLevel level given (arg :: args) =
      if level.takesPaths then do
        let found ← args.foldlM Given.takePath (← given)
        .ok [(level, found)]
      else if args = [] then do .ok [(level, ← given)]
      else .error .usage := by
  rw [readLevel, h]
  simp [hlevel]

theorem readLevel_plain (hlevel : level.needsCommand = false)
    (h : Argument.ofString arg = .plain) :
    readLevel level given (arg :: args) =
      if level.takesPaths then do
        let found ← (← given).takePath arg
        readLevel level (.ok found) args
      else .error .usage := by
  have hbelow : level.command? arg = none := by
    cases level <;> first | rfl | cases hlevel
  rw [readLevel, h]
  simp [hlevel, hbelow]

/-- On the level of a command, nothing comes before a fault that is not reported yet. -/
theorem readLevel_usage (hlevel : level.needsCommand = false) (args : List String) :
    readLevel level (.error .usage) args = .error .usage := by
  cases args with
  | nil => simp [readLevel, hlevel, bind, Except.bind]
  | cons arg args =>
      rcases endOfOptions_or_plain_or_option level (Argument.ofString arg)
        with hend | hplain | ⟨read, hread⟩
      · rw [readLevel_endOfOptions hlevel hend]
        split_ifs <;> rfl
      · rw [readLevel_plain hlevel hplain]
        split_ifs <;> rfl
      · rw [readLevel_option hread]
        rfl

end Reading

section InFront

variable {level : Level} {entries : List (Switch × String)} {own full : Given}

/-- What is read of one option, without and with others in front, and the option of a command
that still lacks its value. -/
structure ExtendsPending (entries : List (Switch × String)) (own full : Given × Option Switch) :
    Prop where
  given : Given.Extends entries own.1 full.1
  pending : full.2 = own.2
  own : ∀ switch ∈ own.2, switch.IsOwn

/-- An option that is taken with its value is read alike. -/
theorem alike_take_done (h : Given.Extends entries own full) {switch : Switch}
    (hswitch : switch.IsOwn) (value : String) :
    Alike (ExtendsPending entries) (do .ok (← own.take switch value, none))
      (do .ok (← full.take switch value, none)) :=
  (h.take hswitch value).bind fun _ _ hmore => .ok ⟨hmore, rfl, nofun⟩

theorem alike_readBundle (h : Given.Extends entries own full) {text : List Char}
    (htext : ∀ switch ∈ level.bundled text, switch.IsOwn) :
    Alike (ExtendsPending entries) (readBundle level own text) (readBundle level full text) := by
  induction text generalizing own full with
  | nil => exact .ok ⟨h, rfl, nofun⟩
  | cons c text ih =>
      rw [readBundle, readBundle]
      rw [Level.bundled] at htext
      cases hc : level.byShort? c with
      | none => exact .usage
      | some switch =>
          simp only [hc] at htext ⊢
          cases hvalue : switch.takesValue with
          | true =>
              simp only [hvalue, if_true, List.forall_mem_singleton] at htext ⊢
              split
              · exact .ok ⟨h, rfl, by simpa using htext⟩
              · exact alike_take_done h htext _
              · exact alike_take_done h htext _
          | false =>
              simp only [hvalue, Bool.false_eq_true, if_false, List.forall_mem_cons] at htext ⊢
              exact (h.take htext.1 "").bind fun _ _ hmore => ih hmore htext.2

theorem alike_readLong (h : Given.Extends entries own full) {text : List Char}
    (htext : ∀ switch ∈ level.named (.long text), switch.IsOwn) :
    Alike (ExtendsPending entries) (readLong level own text) (readLong level full text) := by
  rw [Level.named] at htext
  rw [readLong, readLong]
  cases hname : level.byLong? (String.ofList (text.takeWhile fun c => c != '=')) with
  | none => exact .usage
  | some switch =>
      have hswitch : switch.IsOwn := htext switch (by rw [hname]; simp)
      cases text.drop (text.takeWhile fun c => c != '=').length with
      | nil =>
          simp only
          split_ifs
          · exact .ok ⟨h, rfl, by simpa using hswitch⟩
          · exact alike_take_done h hswitch ""
      | cons equals value =>
          simp only
          split_ifs
          · exact alike_take_done h hswitch _
          · exact .usage

/-- An option that names none of all commands is read alike. -/
theorem alike_option {argument : Argument} {read : Given → Except Stop (Given × Option Switch)}
    (hread : optionReader? level argument = some read)
    (hnamed : ∀ switch ∈ level.named argument, switch.IsOwn)
    (h : Given.Extends entries own full) :
    Alike (ExtendsPending entries) (read own) (read full) := by
  cases argument with
  | long text =>
      cases hread
      exact alike_readLong h hnamed
  | bundle text =>
      cases hread
      exact alike_readBundle h hnamed
  | endOfOptions | plain => cases hread

/-- What is given on the level of a command, without and with others in front. -/
def ExtendsLevels (level : Level) (entries : List (Switch × String))
    (own full : List (Level × Given)) : Prop :=
  ∃ plain more, own = [(level, plain)] ∧ full = [(level, more)] ∧ Given.Extends entries plain more

theorem alike_level {x y : Except Stop Given} (h : Alike (Given.Extends entries) x y) :
    Alike (ExtendsLevels level entries) (do .ok [(level, ← x)]) (do .ok [(level, ← y)]) :=
  h.bind fun _ _ hmore => .ok ⟨_, _, rfl, rfl, hmore⟩

/-- If fewer arguments are read alike, then so are those behind an option, the first of which may
be its value. -/
theorem alike_readOn {args : List String} (hargs : WithoutGlobals level args)
    (hfewer : ∀ later : List String, later.length ≤ args.length → WithoutGlobals level later →
      ∀ x y, Alike (Given.Extends entries) x y →
        Alike (ExtendsLevels level entries) (readLevel level x later) (readLevel level y later))
    {own full : Given × Option Switch} (h : ExtendsPending entries own full) :
    Alike (ExtendsLevels level entries) (readOn level args own) (readOn level args full) := by
  obtain ⟨plain, pending⟩ := own
  obtain ⟨more, pending⟩ := full
  obtain ⟨hgiven, hsame, hpending⟩ := h
  cases hsame
  cases pending with
  | none => exact hfewer args (Nat.le_refl _) hargs _ _ (.ok hgiven)
  | some switch =>
      cases args with
      | nil => exact .usage
      | cons value args =>
          rw [readOn, readOn]
          cases hvalue : Argument.ofString value with
          | plain =>
              have hne : value ≠ "--" := ne_of_ofString_ne (by rw [hvalue]; nofun)
              exact hfewer args (Nat.le_succ _) ((withoutGlobals_cons hne).1 hargs).2 _ _
                (hgiven.take (hpending switch rfl) value)
          | long text | bundle text | endOfOptions => exact .usage

/-- Arguments of a command that name no option of all commands are read alike, whatever such
options are given in front. -/
theorem alike_readLevel (hlevel : level.needsCommand = false) {args : List String}
    (hargs : WithoutGlobals level args) (x y : Except Stop Given)
    (h : Alike (Given.Extends entries) x y) :
    Alike (ExtendsLevels level entries) (readLevel level x args) (readLevel level y args) := by
  -- An option may take the argument behind it along, so the induction is on the length.
  induction hlength : args.length using Nat.strongRecOn generalizing args x y with
  | ind length ih =>
      subst hlength
      cases args with
      | nil =>
          rw [readLevel, readLevel]
          simp only [hlevel, Bool.false_eq_true, if_false]
          exact alike_level h
      | cons arg args =>
          have hfewer : ∀ later : List String, later.length ≤ args.length →
              WithoutGlobals level later → ∀ x y, Alike (Given.Extends entries) x y →
                Alike (ExtendsLevels level entries) (readLevel level x later)
                  (readLevel level y later) :=
            fun later hlater hwithout x y h =>
              ih later.length (Nat.lt_succ_of_le hlater) hwithout x y h rfl
          rcases endOfOptions_or_plain_or_option level (Argument.ofString arg)
            with hend | hplain | ⟨read, hread⟩
          · rw [readLevel_endOfOptions hlevel hend, readLevel_endOfOptions hlevel hend]
            split_ifs
            · exact h.bind fun _ _ hmore =>
                alike_level (.foldlM (fun _ _ path hpath => hpath.takePath path) args hmore)
            · exact alike_level h
            · exact .usage
          · have hne : arg ≠ "--" := ne_of_ofString_ne (by rw [hplain]; nofun)
            have hlater := ((withoutGlobals_cons hne).1 hargs).2
            rw [readLevel_plain hlevel hplain, readLevel_plain hlevel hplain]
            split_ifs
            · exact h.bind fun _ _ hmore => (hmore.takePath arg).bind
                fun _ _ hpath => hfewer args (Nat.le_refl _) hlater _ _ (.ok hpath)
            · exact .usage
          · have hne : arg ≠ "--" := by
              rintro rfl
              cases hread
            obtain ⟨hnamed, hlater⟩ := (withoutGlobals_cons hne).1 hargs
            rw [readLevel_option hread, readLevel_option hread]
            have hown := isOwn_of_named hlevel hnamed
            exact h.bind fun _ _ hmore => (alike_option hread hown hmore).bind
              fun _ _ hpending => alike_readOn hlater hfewer hpending

end InFront

end CommandLine
end WrapLint
