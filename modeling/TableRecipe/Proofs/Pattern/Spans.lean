import Mathlib.Logic.Relation
import TableRecipe.Pattern.Program

/-!
# What expressions span

An expression spans a stretch of a text: it leads from the spot where the stretch begins to the spot
where it ends. The program of an expression goes the same ways, and no others.

* `Expression.Spans` — the stretches of an expression;
* `Accepts` — the ways through a program;
* `Implements` — a part of a program goes the ways of a relation between spots;
* `emits_compile` — what compiling an expression adds goes the ways of the expression;
* `Program.accepts_ofExpression` — the program of an expression.
-/

namespace TableRecipe.Pattern

open Relation (Comp)

/-! ## Stretches of a text -/

/-- a spot in a text: the characters passed, last first, and the rest -/
structure Spot where
  /-- the characters passed, last first -/
  passed : List Char
  /-- the characters that follow -/
  rest : List Char

/-- one way after the other, a number of times -/
def Repeated (ways : Spot → Spot → Prop) : (count : Nat) → Spot → Spot → Prop
  | 0 => Eq
  | count + 1 => Comp (Repeated ways count) ways

/-- the spots that an expression leads to -/
def Expression.Spans : Expression → Spot → Spot → Prop
  | empty, here, there => here = there
  | set chars, here, there =>
    ∃ c rest, here.rest = c :: rest ∧ chars.contains c ∧ there = ⟨c :: here.passed, rest⟩
  | check assertion, here, there =>
    assertion.holds here.passed.head? here.rest.head? ∧ here = there
  | capture _ inner, here, there => inner.Spans here there
  | andThen first second, here, there => Comp first.Spans second.Spans here there
  | orElse first second, here, there => first.Spans here there ∨ second.Spans here there
  | times least most _ inner, here, there =>
    ∃ count, least ≤ count ∧ (∀ limit, most = some limit → count ≤ max least limit) ∧
      Repeated inner.Spans count here there

variable {ways ways' : Spot → Spot → Prop} {here there middle : Spot} {count : Nat}

theorem Repeated.head (hfirst : ways here middle) (hrest : Repeated ways count middle there) :
    Repeated ways (count + 1) here there := by
  induction count generalizing there with
  | zero =>
    obtain rfl : middle = there := hrest
    exact ⟨here, rfl, hfirst⟩
  | succ count ih =>
    obtain ⟨last, hbefore, hlast⟩ := hrest
    exact ⟨last, ih hbefore, hlast⟩

/-- The first of several ways comes before the others. -/
theorem repeated_succ_iff :
    Repeated ways (count + 1) here there ↔ Comp ways (Repeated ways count) here there := by
  refine ⟨fun h => ?_, fun ⟨middle, hfirst, hrest⟩ => hrest.head hfirst⟩
  induction count generalizing there with
  | zero =>
    obtain ⟨_, rfl, h⟩ := h
    exact ⟨there, h, rfl⟩
  | succ count ih =>
    obtain ⟨last, hbefore, hlast⟩ := h
    obtain ⟨middle, hfirst, hmiddle⟩ := ih hbefore
    exact ⟨middle, hfirst, last, hmiddle, hlast⟩

theorem repeated_add_iff {more : Nat} :
    Repeated ways (count + more) here there ↔
      Comp (Repeated ways count) (Repeated ways more) here there := by
  induction more generalizing there with
  | zero => exact ⟨fun h => ⟨there, h, rfl⟩, fun ⟨_, h, hrefl⟩ => hrefl ▸ h⟩
  | succ more ih =>
    refine ⟨?_, ?_⟩
    · rintro ⟨last, hbefore, hlast⟩
      obtain ⟨middle, hfirst, hmore⟩ := ih.mp hbefore
      exact ⟨middle, hfirst, last, hmore, hlast⟩
    · rintro ⟨middle, hfirst, last, hmore, hlast⟩
      exact ⟨last, ih.mpr ⟨middle, hfirst, hmore⟩, hlast⟩

/-! ## Ways through programs -/

variable {program final : Program} {place start next : Nat} {spot : Spot} {steps : Nat}

/-- an instruction leads to a match of the text at a spot, in a number of steps -/
inductive Accepts (program : Program) : (steps place : Nat) → Spot → Prop where
  /-- the text matches -/
  | accept {place : Nat} {spot : Spot} (hat : program[place]? = some .accept) :
    Accepts program 0 place spot
  /-- a character of a set -/
  | read {steps place next : Nat} {chars : CharSet} {c : Char} {passed rest : List Char}
    (hat : program[place]? = some (.read chars next)) (hc : chars.contains c)
    (hnext : Accepts program steps next ⟨c :: passed, rest⟩) :
    Accepts program (steps + 1) place ⟨passed, c :: rest⟩
  /-- the preferred way -/
  | preferred {steps place first other : Nat} {spot : Spot}
    (hat : program[place]? = some (.split first other)) (hnext : Accepts program steps first spot) :
    Accepts program (steps + 1) place spot
  /-- the other way -/
  | other {steps place first other : Nat} {spot : Spot}
    (hat : program[place]? = some (.split first other)) (hnext : Accepts program steps other spot) :
    Accepts program (steps + 1) place spot
  /-- a position is remembered -/
  | save {steps place slot next : Nat} {spot : Spot}
    (hat : program[place]? = some (.save slot next)) (hnext : Accepts program steps next spot) :
    Accepts program (steps + 1) place spot
  /-- a condition that holds -/
  | check {steps place next : Nat} {assertion : Assertion} {spot : Spot}
    (hat : program[place]? = some (.check assertion next))
    (hholds : assertion.holds spot.passed.head? spot.rest.head?)
    (hnext : Accepts program steps next spot) : Accepts program (steps + 1) place spot

/-- from `start` on, a program goes the ways of a relation and then on at `next` -/
structure Implements (program : Program) (ways : Spot → Spot → Prop) (start next : Nat) :
    Prop where
  /-- it goes no other ways, and each takes its steps -/
  sound : ∀ {steps : Nat} {here : Spot}, Accepts program steps start here →
    ∃ there, ways here there ∧ ∃ fewer ≤ steps, Accepts program fewer next there
  /-- it goes all of these ways -/
  complete : ∀ {steps : Nat} {here there : Spot}, ways here there →
    Accepts program steps next there → ∃ more, Accepts program more start here

namespace Implements

theorem refl : Implements program Eq next next where
  sound := fun h => ⟨_, rfl, _, Nat.le_refl _, h⟩
  complete := by
    rintro steps here _ rfl h
    exact ⟨steps, h⟩

theorem congr (h : Implements program ways start next)
    (hways : ∀ here there, ways here there ↔ ways' here there) :
    Implements program ways' start next := by
  obtain rfl : ways = ways' := funext₂ fun here there => propext (hways here there)
  exact h

/-- One part of a program after another. -/
theorem comp {between : Nat} (h : Implements program ways start between)
    (h' : Implements program ways' between next) :
    Implements program (Comp ways ways') start next where
  sound := by
    intro steps here haccepts
    obtain ⟨middle, hfirst, fewer, hfewer, hmiddle⟩ := h.sound haccepts
    obtain ⟨there, hsecond, least, hleast, hthere⟩ := h'.sound hmiddle
    exact ⟨there, ⟨middle, hfirst, hsecond⟩, least, Nat.le_trans hleast hfewer, hthere⟩
  complete := by
    rintro steps here there ⟨middle, hfirst, hsecond⟩ hthere
    obtain ⟨more, hmiddle⟩ := h'.complete hsecond hthere
    exact h.complete hfirst hmiddle

theorem read {chars : CharSet} (hat : program[place]? = some (.read chars next)) :
    Implements program (Expression.set chars).Spans place next where
  sound := by
    intro steps here haccepts
    cases haccepts with
    | read hread hc hnext =>
      rw [hat] at hread
      cases hread
      exact ⟨_, ⟨_, _, rfl, hc, rfl⟩, _, Nat.le_succ _, hnext⟩
    | accept hother | preferred hother | other hother | save hother | check hother =>
      rw [hat] at hother
      cases hother
  complete := by
    rintro steps ⟨passed, rest⟩ there ⟨c, rest, rfl, hc, rfl⟩ hthere
    exact ⟨_, .read hat hc hthere⟩

theorem check {assertion : Assertion} (hat : program[place]? = some (.check assertion next)) :
    Implements program (Expression.check assertion).Spans place next where
  sound := by
    intro steps here haccepts
    cases haccepts with
    | check hcheck hholds hnext =>
      rw [hat] at hcheck
      cases hcheck
      exact ⟨_, ⟨hholds, rfl⟩, _, Nat.le_succ _, hnext⟩
    | accept hother | read hother | preferred hother | other hother | save hother =>
      rw [hat] at hother
      cases hother
  complete := by
    rintro steps here there ⟨hholds, rfl⟩ hthere
    exact ⟨_, .check hat hholds hthere⟩

theorem save {slot : Nat} (hat : program[place]? = some (.save slot next)) :
    Implements program Eq place next where
  sound := by
    intro steps here haccepts
    cases haccepts with
    | save hsave hnext =>
      rw [hat] at hsave
      cases hsave
      exact ⟨_, rfl, _, Nat.le_succ _, hnext⟩
    | accept hother | read hother | preferred hother | other hother | check hother =>
      rw [hat] at hother
      cases hother
  complete := by
    rintro steps here _ rfl hthere
    exact ⟨_, .save hat hthere⟩

end Implements

/-- A choice takes a step, and then one of two ways. -/
theorem accepts_split_iff {first other : Nat} (hat : program[place]? = some (.split first other)) :
    Accepts program steps place spot ↔ ∃ fewer, steps = fewer + 1 ∧
      (Accepts program fewer first spot ∨ Accepts program fewer other spot) := by
  refine ⟨?_, ?_⟩
  · intro h
    cases h with
    | preferred hsplit hnext =>
      rw [hat] at hsplit
      cases hsplit
      exact ⟨_, rfl, .inl hnext⟩
    | other hsplit hnext =>
      rw [hat] at hsplit
      cases hsplit
      exact ⟨_, rfl, .inr hnext⟩
    | accept hother | read hother | save hother | check hother =>
      rw [hat] at hother
      cases hother
  · rintro ⟨fewer, rfl, h | h⟩
    · exact .preferred hat h
    · exact .other hat h

/-- A choice about a repetition is one between two ways, whichever is preferred. -/
theorem accepts_choose_iff {greedy : Bool} {inside after : Nat}
    (hat : program[place]? = some (Program.choose greedy inside after)) :
    Accepts program steps place spot ↔ ∃ fewer, steps = fewer + 1 ∧
      (Accepts program fewer inside spot ∨ Accepts program fewer after spot) := by
  cases greedy with
  | true => exact accepts_split_iff hat
  | false =>
    rw [accepts_split_iff hat]
    simp only [or_comm]

namespace Implements

theorem either {first other : Nat} (h : Implements program ways first next)
    (h' : Implements program ways' other next)
    (hat : ∀ {steps spot}, Accepts program steps place spot ↔ ∃ fewer, steps = fewer + 1 ∧
      (Accepts program fewer first spot ∨ Accepts program fewer other spot)) :
    Implements program (fun here there => ways here there ∨ ways' here there) place next where
  sound := by
    intro steps here haccepts
    obtain ⟨fewer, rfl, hfirst | hother⟩ := hat.mp haccepts
    · obtain ⟨there, hways, least, hleast, hthere⟩ := h.sound hfirst
      exact ⟨there, .inl hways, least, Nat.le_succ_of_le hleast, hthere⟩
    · obtain ⟨there, hways, least, hleast, hthere⟩ := h'.sound hother
      exact ⟨there, .inr hways, least, Nat.le_succ_of_le hleast, hthere⟩
  complete := by
    rintro steps here there (hways | hways) hthere
    · obtain ⟨more, hmore⟩ := h.complete hways hthere
      exact ⟨more + 1, hat.mpr ⟨more, rfl, .inl hmore⟩⟩
    · obtain ⟨more, hmore⟩ := h'.complete hways hthere
      exact ⟨more + 1, hat.mpr ⟨more, rfl, .inr hmore⟩⟩

/-- A part that comes back to a choice is gone through once or more. -/
theorem onceOrMore {greedy : Bool} {again : Nat} (h : Implements program ways start again)
    (hat : program[again]? = some (Program.choose greedy start next)) :
    Implements program (fun here there => ∃ count, Repeated ways (count + 1) here there) start
      next where
  sound := by
    intro steps
    -- each time the part is gone through, fewer steps are left
    induction steps using Nat.strongRecOn with
    | ind steps ih =>
    intro here haccepts
    obtain ⟨middle, hfirst, fewer, hfewer, hmiddle⟩ := h.sound haccepts
    obtain ⟨least, rfl, hmore | hdone⟩ := (accepts_choose_iff hat).mp hmiddle
    · obtain ⟨there, ⟨count, hrest⟩, last, hlast, hthere⟩ := ih least (by omega) hmore
      exact ⟨there, ⟨count + 1, hrest.head hfirst⟩, last, by omega, hthere⟩
    · exact ⟨middle, ⟨0, here, rfl, hfirst⟩, least, by omega, hdone⟩
  complete := by
    rintro steps here there ⟨count, hways⟩ hthere
    have hagain : ∃ more, Accepts program more again there :=
      ⟨steps + 1, (accepts_choose_iff hat).mpr ⟨steps, rfl, .inr hthere⟩⟩
    clear hthere
    induction count generalizing there with
    | zero =>
      obtain ⟨_, rfl, hlast⟩ := hways
      exact h.complete hlast hagain.choose_spec
    | succ count ih =>
      obtain ⟨middle, hbefore, hlast⟩ := hways
      obtain ⟨more, hmiddle⟩ := h.complete hlast hagain.choose_spec
      exact ih hbefore ⟨more + 1, (accepts_choose_iff hat).mpr ⟨more, rfl, .inl hmiddle⟩⟩

end Implements

/-! ## Parts of programs -/

/-- whether a program has the instructions of another one from a place on -/
def Agrees (final built : Program) (first : Nat) : Prop :=
  ∀ place, first ≤ place → place < built.size → final[place]? = built[place]?

theorem size_lt_size_push (program : Program) (instruction : Instruction) :
    program.size < (program.push instruction).size := by
  simp

theorem getElem?_push_of_lt (instruction : Instruction) (h : place < program.size) :
    (program.push instruction)[place]? = program[place]? := by
  rw [Array.getElem?_push_lt h, Array.getElem?_eq_getElem h]

/-- what is added to a program before `next`: it goes the ways of a relation, in every program that
has the instructions added -/
structure Emits (build : StateM Program Nat) (ways : Spot → Spot → Prop) (next : Nat) : Prop where
  /-- nothing is lost -/
  grows : ∀ program : Program, program.size ≤ (build program).2.size
  /-- nothing is changed -/
  keeps : ∀ (program : Program) (place : Nat), place < program.size →
    (build program).2[place]? = program[place]?
  /-- what is added goes the ways -/
  implements : ∀ program final : Program, Agrees final (build program).2 program.size →
    Implements final ways (build program).1 next

namespace Emits

variable {build : StateM Program Nat} {part second : Nat → StateM Program Nat} {greedy : Bool}

theorem nothing : Emits (return next) Eq next where
  grows := fun _ => Nat.le_refl _
  keeps := fun _ _ _ => rfl
  implements := fun _ _ _ => .refl

theorem congr (h : Emits build ways next)
    (hways : ∀ here there, ways here there ↔ ways' here there) : Emits build ways' next where
  grows := h.grows
  keeps := h.keeps
  implements := fun program final hagrees => (h.implements program final hagrees).congr hways

/-- What is added first is gone through last. -/
theorem comp (h : Emits build ways' next) (h' : ∀ middle, Emits (second middle) ways middle) :
    Emits (build >>= second) (Comp ways ways') next where
  grows := fun program => Nat.le_trans (h.grows program) ((h' _).grows _)
  keeps := by
    intro program place hplace
    rw [← h.keeps program place hplace]
    exact (h' _).keeps _ _ (Nat.lt_of_lt_of_le hplace (h.grows program))
  implements := by
    intro program final hagrees
    have hlater := (h' (build program).1).implements (build program).2 final fun place hplace =>
      hagrees place (Nat.le_trans (h.grows program) hplace)
    refine hlater.comp (h.implements program final fun place hnew hplace => ?_)
    rw [← (h' _).keeps _ _ hplace]
    exact hagrees place hnew (Nat.lt_of_lt_of_le hplace ((h' _).grows _))

/-- One instruction is added. -/
theorem add {instruction : Instruction}
    (h : ∀ {program : Program} {place : Nat}, program[place]? = some instruction →
      Implements program ways place next) : Emits (Program.add instruction) ways next where
  grows := fun program => Nat.le_of_lt (size_lt_size_push program instruction)
  keeps := fun program place hplace => getElem?_push_of_lt instruction hplace
  implements := by
    intro program final hagrees
    have hat : final[program.size]? = some instruction := by
      rw [hagrees _ (Nat.le_refl _) (size_lt_size_push program instruction)]
      exact Array.getElem?_push_size
    exact h hat

/-- A choice between a part and what comes behind it is added. -/
theorem choose (h : Emits build ways next) :
    Emits (do let start ← build; Program.add (Program.choose greedy start next))
      (fun here there => ways here there ∨ here = there) next where
  grows := fun program => Nat.le_trans (h.grows program)
    (Nat.le_of_lt (size_lt_size_push (build program).2 _))
  keeps := fun program place hplace => by
    rw [← h.keeps program place hplace]
    exact getElem?_push_of_lt _ (Nat.lt_of_lt_of_le hplace (h.grows program))
  implements := by
    intro program final hagrees
    have hbuilt := h.implements program final fun place hnew hplace => by
      rw [hagrees place hnew (Nat.lt_trans hplace (size_lt_size_push (build program).2 _))]
      exact getElem?_push_of_lt _ hplace
    have hat : final[(build program).2.size]? =
        some (Program.choose greedy (build program).1 next) := by
      rw [hagrees _ (h.grows program) (size_lt_size_push (build program).2 _)]
      exact Array.getElem?_push_size
    exact hbuilt.either .refl (accepts_choose_iff hat)

/-- A choice between two parts is added. -/
theorem split {left right : StateM Program Nat} (h : Emits left ways next)
    (h' : Emits right ways' next) :
    Emits (do let first ← left; let other ← right; Program.add (.split first other))
      (fun here there => ways here there ∨ ways' here there) next where
  grows := fun program => Nat.le_trans (h.grows program) (Nat.le_trans (h'.grows _)
    (Nat.le_of_lt (size_lt_size_push (right (left program).2).2 _)))
  keeps := fun program place hplace => by
    have hfirst := Nat.lt_of_lt_of_le hplace (h.grows program)
    rw [← h.keeps program place hplace, ← h'.keeps _ place hfirst]
    exact getElem?_push_of_lt _ (Nat.lt_of_lt_of_le hfirst (h'.grows _))
  implements := by
    intro program final hagrees
    let first := left program
    let other := right first.2
    have hlast : other.2.size < (other.2.push (.split first.1 other.1)).size :=
      size_lt_size_push _ _
    have hother : Agrees final other.2 program.size := fun place hnew hplace => by
      rw [hagrees place hnew (Nat.lt_trans hplace hlast)]
      exact getElem?_push_of_lt _ hplace
    have hat : final[other.2.size]? = some (.split first.1 other.1) := by
      rw [hagrees _ (Nat.le_trans (h.grows program) (h'.grows _)) hlast]
      exact Array.getElem?_push_size
    refine Implements.either (h.implements program final fun place hnew hplace => ?_)
      (h'.implements _ final fun place hnew hplace => ?_) (accepts_split_iff hat)
    · rw [hother place hnew (Nat.lt_of_lt_of_le hplace (h'.grows _))]
      exact h'.keeps _ _ hplace
    · exact hother place (Nat.le_trans (h.grows program) hnew) hplace

/-! ## Repetitions -/

theorem copies (h : ∀ next, Emits (part next) ways next) (count : Nat) :
    ∀ next, Emits (Program.copies part count next) (Repeated ways count) next := by
  induction count with
  | zero => exact fun next => .nothing
  | succ count ih => exact fun next => (h next).comp ih

theorem optionalCopies (h : ∀ next, Emits (part next) ways next) (count : Nat) :
    Emits (Program.optionalCopies greedy part next count)
      (fun here there => ∃ fewer ≤ count, Repeated ways fewer here there) next := by
  induction count with
  | zero => exact .congr .nothing fun here there => by simp [Repeated]
  | succ count ih =>
    refine .congr (.choose (ih.comp h)) fun here there => ?_
    refine ⟨?_, ?_⟩
    · rintro (⟨middle, hfirst, fewer, hfewer, hrest⟩ | rfl)
      · exact ⟨fewer + 1, by omega, hrest.head hfirst⟩
      · exact ⟨0, by omega, rfl⟩
    · rintro ⟨_ | fewer, hfewer, hways⟩
      · exact .inr hways
      · obtain ⟨middle, hfirst, hrest⟩ := repeated_succ_iff.mp hways
        exact .inl ⟨middle, hfirst, fewer, by omega, hrest⟩

/-- A part that comes back to a choice in front of it: the choice is added first, and changed when
it is known where the part starts. -/
theorem loop (h : ∀ next, Emits (part next) ways next) (program : Program) :
    let built := part program.size (program.push .accept)
    let patched := built.2.setIfInBounds program.size (Program.choose greedy built.1 next)
    program.size ≤ patched.size ∧
      (∀ place < program.size, patched[place]? = program[place]?) ∧
      ∀ final, Agrees final patched program.size →
        final[program.size]? = some (Program.choose greedy built.1 next) ∧
          Implements final ways built.1 program.size := by
  intro built patched
  have hgrows : program.size + 1 ≤ built.2.size := by
    have := (h program.size).grows (program.push .accept)
    rwa [Array.size_push] at this
  have hsize : patched.size = built.2.size := Array.size_setIfInBounds
  refine ⟨by omega, fun place hplace => ?_, fun final hagrees => ⟨?_, ?_⟩⟩
  · have hpushed := Nat.lt_trans hplace (size_lt_size_push program .accept)
    rw [Array.getElem?_setIfInBounds_ne (by omega), (h _).keeps _ _ hpushed]
    exact getElem?_push_of_lt _ hplace
  · rw [hagrees _ (Nat.le_refl _) (by omega)]
    exact Array.getElem?_setIfInBounds_self_of_lt (by omega)
  · refine (h program.size).implements _ final fun place hnew hplace => ?_
    rw [Array.size_push] at hnew
    have hbuilt : place < built.2.size := hplace
    rw [hagrees place (by omega) (by omega), Array.getElem?_setIfInBounds_ne (by omega)]

theorem onceOrMore (h : ∀ next, Emits (part next) ways next) :
    Emits (Program.onceOrMore greedy part next)
      (fun here there => ∃ count, Repeated ways (count + 1) here there) next where
  grows := fun program => (loop h program).1
  keeps := fun program => (loop h program).2.1
  implements := fun program final hagrees => by
    obtain ⟨hat, hpart⟩ := (loop h program).2.2 final hagrees
    exact hpart.onceOrMore hat

theorem repeated_iff_or_eq :
    (∃ count, Repeated ways count here there) ↔
      (∃ count, Repeated ways (count + 1) here there) ∨ here = there := by
  refine ⟨?_, ?_⟩
  · rintro ⟨_ | count, h⟩
    · exact .inr h
    · exact .inl ⟨count, h⟩
  · rintro (⟨count, h⟩ | rfl)
    · exact ⟨count + 1, h⟩
    · exact ⟨0, rfl⟩

theorem anyNumber (h : ∀ next, Emits (part next) ways next) (nullable : Bool) :
    Emits (Program.anyNumber greedy nullable part next)
      (fun here there => ∃ count, Repeated ways count here there) next := by
  cases nullable with
  | true => exact .congr (.choose (.onceOrMore h)) fun _ _ => repeated_iff_or_eq.symm
  | false =>
    refine ⟨fun program => (loop h program).1, fun program => (loop h program).2.1,
      fun program final hagrees => ?_⟩
    obtain ⟨hat, hpart⟩ := (loop h program).2.2 final hagrees
    exact ((hpart.onceOrMore hat).either .refl (accepts_choose_iff hat)).congr fun _ _ =>
      repeated_iff_or_eq.symm

end Emits

/-! ## Programs of expressions -/

theorem spans_times_iff {least : Nat} {greedy : Bool} {limit : Nat} {inner : Expression} :
    (Expression.times least (some limit) greedy inner).Spans here there ↔
      Comp (Repeated inner.Spans least)
        (fun here there => ∃ fewer ≤ limit - least, Repeated inner.Spans fewer here there)
        here there := by
  refine ⟨?_, ?_⟩
  · rintro ⟨count, hleast, hlimit, hways⟩
    have hcount := hlimit limit rfl
    obtain ⟨more, rfl⟩ := Nat.exists_eq_add_of_le hleast
    obtain ⟨middle, hfirst, hrest⟩ := repeated_add_iff.mp hways
    exact ⟨middle, hfirst, more, by omega, hrest⟩
  · rintro ⟨middle, hfirst, more, hmore, hrest⟩
    refine ⟨least + more, by omega, ?_, repeated_add_iff.mpr ⟨middle, hfirst, hrest⟩⟩
    intro limit' hlimit
    obtain rfl := Option.some.inj hlimit
    omega

theorem spans_times_none_iff {least : Nat} {greedy : Bool} {inner : Expression} :
    (Expression.times least none greedy inner).Spans here there ↔
      ∃ count, Repeated inner.Spans (least + count) here there := by
  refine ⟨?_, ?_⟩
  · rintro ⟨count, hleast, -, hways⟩
    obtain ⟨more, rfl⟩ := Nat.exists_eq_add_of_le hleast
    exact ⟨more, hways⟩
  · rintro ⟨more, hways⟩
    exact ⟨least + more, by omega, nofun, hways⟩

/-- **Compiling.** What is added for an expression goes the ways of the expression, and no
others. -/
theorem emits_compile (expression : Expression) :
    ∀ next, Emits (Program.compile expression next) expression.Spans next := by
  induction expression with
  | empty => exact fun next => .nothing
  | set chars => exact fun next => .add .read
  | check assertion => exact fun next => .add .check
  | capture number inner ih =>
    intro next
    -- remembering positions leads from each spot to itself
    refine .congr (.comp (.add .save) fun close => .comp (ih close) fun start => .add .save)
      fun here there => ?_
    refine ⟨?_, ?_⟩
    · rintro ⟨_, ⟨_, rfl, hways⟩, rfl⟩
      exact hways
    · exact fun hways => ⟨there, ⟨here, rfl, hways⟩, rfl⟩
  | andThen first second ihfirst ihsecond => exact fun next => (ihsecond next).comp ihfirst
  | orElse first second ihfirst ihsecond => exact fun next => (ihfirst next).split (ihsecond next)
  | times least most greedy inner ih =>
    intro next
    cases most with
    | some limit =>
      exact .congr (.comp (.optionalCopies ih _) (.copies ih least)) fun _ _ => spans_times_iff.symm
    | none =>
      cases least with
      | zero =>
        refine .congr (.anyNumber ih inner.nullable) fun here there => ?_
        simp only [spans_times_none_iff, Nat.zero_add]
      | succ least =>
        -- the last of the copies that must be is the one that is repeated
        refine .congr (.comp (.onceOrMore ih) (.copies ih least)) fun here there => ?_
        have hcount (count : Nat) : least + 1 + count = least + (count + 1) := by omega
        simp only [spans_times_none_iff, hcount]
        refine ⟨?_, ?_⟩
        · rintro ⟨middle, hfirst, count, hrest⟩
          exact ⟨count, repeated_add_iff.mpr ⟨middle, hfirst, hrest⟩⟩
        · rintro ⟨count, hways⟩
          obtain ⟨middle, hfirst, hrest⟩ := repeated_add_iff.mp hways
          exact ⟨middle, hfirst, count, hrest⟩

/-- The program of an expression accepts where the expression leads anywhere. -/
theorem Program.accepts_ofExpression {expression : Expression} :
    (∃ steps, Accepts (ofExpression expression).1 steps (ofExpression expression).2 here) ↔
      ∃ there, expression.Spans here there := by
  have hemits := emits_compile (.capture 0 expression) 0
  have hbuilt := hemits.implements #[.accept] _ fun _ _ _ => rfl
  have haccept : (ofExpression expression).1[0]? = some .accept :=
    hemits.keeps #[.accept] 0 (by simp)
  refine ⟨?_, ?_⟩
  · rintro ⟨steps, h⟩
    obtain ⟨there, hways, -⟩ := hbuilt.sound h
    exact ⟨there, hways⟩
  · rintro ⟨there, hways⟩
    exact hbuilt.complete hways (.accept haccept)

end TableRecipe.Pattern
