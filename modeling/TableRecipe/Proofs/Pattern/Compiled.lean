import TableRecipe.Proofs.Pattern.Matcher

/-!
# Compiling patterns

The program of an expression that repeats nothing but single characters carries out the moves of the
expression, so that a search finds the leftmost match that they lead to.

* `Compiled` — what compiling adds to a program;
* `compiled_compile` — what is added for an expression;
* `Regex.find?_eq` — what a search finds;
* `leftmost_textStart` — moves that begin at the start of the text lead to matches there only.
-/

namespace TableRecipe.Pattern

variable {program : Program} {next : Nat} {moves moves' : List Move}

/-! ## Programs that grow -/

/-- whether a program has the instructions of another one at their places -/
def Extends (program extended : Program) : Prop :=
  ∀ (place : Nat) (instruction : Instruction),
    program[place]? = some instruction → extended[place]? = some instruction

theorem extends_push (instruction : Instruction) : Extends program (program.push instruction) := by
  intro place found hat
  rwa [Array.getElem?_push_lt (Array.getElem?_eq_some_iff.mp hat).1,
    ← Array.getElem?_eq_getElem]

theorem Carries.extend {extended : Program} {place : Nat} (h : Carries program place moves)
    (hextends : Extends program extended) : Carries extended place moves := by
  induction h with
  | accept hat => exact .accept (hextends _ _ hat)
  | read hat _ ih => exact .read (hextends _ _ hat) ih
  | many hat hinside _ ih => exact .many (hextends _ _ hat) (hextends _ _ hinside) ih
  | check hat _ ih => exact .check (hextends _ _ hat) ih
  | save hat _ ih => exact .save (hextends _ _ hat) ih

/-- what is added to a program before `next`, and the place where it starts: it carries out moves -/
structure Compiled (program : Program) (next : Nat) (moves : List Move)
    (result : Nat × Program) : Prop where
  /-- nothing is lost -/
  grows : Extends program result.2
  /-- the moves are carried out, and then those that are carried out from `next` on -/
  carries : ∀ rest, Carries program next rest → Carries result.2 result.1 (moves ++ rest)
  /-- every new instruction carries out some moves -/
  complete : ∀ rest, Carries program next rest →
    ∀ place < result.2.size, program.size ≤ place → ∃ moves, Carries result.2 place moves

theorem compiled_nothing : Compiled program next [] (next, program) where
  grows := fun _ _ => id
  carries := fun _ => id
  complete := fun _ _ _ hplace hnew => absurd hplace (Nat.not_lt.mpr hnew)

/-- What is added first is carried out last. -/
theorem Compiled.andThen {middle result : Nat × Program}
    (hfirst : Compiled program next moves' middle)
    (hsecond : Compiled middle.2 middle.1 moves result) :
    Compiled program next (moves ++ moves') result where
  grows := fun _ _ hat => hsecond.grows _ _ (hfirst.grows _ _ hat)
  carries := by
    intro rest hrest
    rw [List.append_assoc]
    exact hsecond.carries _ (hfirst.carries _ hrest)
  complete := by
    intro rest hrest place hplace hnew
    by_cases hmiddle : place < middle.2.size
    · obtain ⟨found, hfound⟩ := hfirst.complete rest hrest place hmiddle hnew
      exact ⟨found, hfound.extend hsecond.grows⟩
    · exact hsecond.complete _ (hfirst.carries _ hrest) place hplace (Nat.not_lt.mp hmiddle)

/-- One instruction is added. -/
theorem compiled_add {instruction : Instruction} {move : Move}
    (hcarries : ∀ {program : Program} {place : Nat} {rest : List Move},
      program[place]? = some instruction → Carries program next rest →
        Carries program place (move :: rest)) :
    Compiled program next [move] (Program.add instruction program) := by
  have hadded (rest : List Move) (hnext : Carries program next rest) :
      Carries (program.push instruction) program.size (move :: rest) :=
    hcarries Array.getElem?_push_size (hnext.extend (extends_push _))
  refine ⟨extends_push _, hadded, fun rest hnext place hplace hnew => ?_⟩
  have hsize : place < (program.push instruction).size := hplace
  rw [Array.size_push] at hsize
  obtain rfl : place = program.size := by omega
  exact ⟨_, hadded rest hnext⟩

/-- A repetition of characters of a set is added: a choice, and the instruction that comes back to
it. -/
theorem compiled_many (chars : CharSet) :
    Compiled program next [.many chars]
      (Program.anyNumber true false (Program.compile (.set chars)) next program) := by
  let pushed := (program.push .accept).push (.read chars program.size)
  let built := pushed.setIfInBounds program.size (.split (program.size + 1) next)
  have hbuilt : Program.anyNumber true false (Program.compile (.set chars)) next program =
      (program.size, built) := by
    show (program.size, ((program.push .accept).push (.read chars program.size)).setIfInBounds
      program.size (.split (program.push .accept).size next)) = _
    rw [Array.size_push]
  have hpushed : pushed.size = program.size + 2 := by simp [pushed]
  have hgrows : Extends program built := by
    intro place found hat
    have hlt : place < program.size := (Array.getElem?_eq_some_iff.mp hat).1
    rw [Array.getElem?_setIfInBounds_ne (by omega)]
    exact extends_push (.read chars program.size) _ _ (extends_push .accept _ _ hat)
  have hchoice : built[program.size]? = some (.split (program.size + 1) next) :=
    Array.getElem?_setIfInBounds_self_of_lt (by omega)
  have hback : built[program.size + 1]? = some (.read chars program.size) := by
    rw [Array.getElem?_setIfInBounds_ne (by omega), ← Array.size_push .accept]
    exact Array.getElem?_push_size
  rw [hbuilt]
  have hcarries (rest : List Move) (hnext : Carries program next rest) :
      Carries built program.size (.many chars :: rest) :=
    .many hchoice hback (hnext.extend hgrows)
  refine ⟨hgrows, hcarries, fun rest hnext place hplace hnew => ?_⟩
  obtain rfl | rfl : place = program.size ∨ place = program.size + 1 := by
    have hsize : place < built.size := hplace
    rw [Array.size_setIfInBounds] at hsize
    omega
  · exact ⟨_, hcarries rest hnext⟩
  · exact ⟨_, .read hback (hcarries rest hnext)⟩

/-- **Compiling.** What is compiled from an expression carries out its moves. -/
theorem compiled_compile {expression : Expression} (hmoves : expression.moves? = some moves) :
    Compiled program next moves (Program.compile expression next program) := by
  induction expression generalizing program next moves with
  | empty =>
    obtain rfl : [] = moves := Option.some.inj hmoves
    exact compiled_nothing
  | set chars =>
    obtain rfl : [.read chars] = moves := Option.some.inj hmoves
    exact compiled_add .read
  | check assertion =>
    obtain rfl : [.check assertion] = moves := Option.some.inj hmoves
    exact compiled_add .check
  | capture number inner ih =>
    obtain ⟨inside, hinside, rfl⟩ := Option.map_eq_some_iff.mp hmoves
    exact ((compiled_add .save).andThen (ih hinside)).andThen (compiled_add .save)
  | andThen first second ihfirst ihsecond =>
    obtain ⟨before, hbefore, hrest⟩ := Option.bind_eq_some_iff.mp hmoves
    obtain ⟨after, hafter, hboth⟩ := Option.bind_eq_some_iff.mp hrest
    obtain rfl : before ++ after = moves := Option.some.inj hboth
    exact (ihsecond hafter).andThen (ihfirst hbefore)
  | orElse => cases hmoves
  | times least most greedy inner =>
    -- only sets of characters are repeated, any number of times
    unfold Expression.moves? at hmoves
    split at hmoves
    case h_6 chars hrepeated =>
      obtain ⟨rfl, rfl, rfl, rfl⟩ := Expression.times.inj hrepeated
      obtain rfl : [.many chars] = moves := Option.some.inj hmoves
      exact compiled_many chars
    all_goals simp_all

/-! ## What a search finds -/

/-- The program of an expression carries out its moves, as group zero. -/
theorem exists_carriesOut {expression : Expression} (hmoves : expression.moves? = some moves) :
    ∃ found : Nat → List Move,
      CarriesOut (Program.ofExpression expression).1 found ∧
      (Program.ofExpression expression).2 < (Program.ofExpression expression).1.size ∧
      found (Program.ofExpression expression).2 = .save 0 :: (moves ++ [.save 1]) := by
  have hwhole : (Expression.capture 0 expression).moves? =
      some (.save 0 :: (moves ++ [.save 1])) := by
    rw [Expression.moves?, hmoves]
    rfl
  have haccept : Carries #[.accept] 0 [] := .accept rfl
  have hcompiled : Compiled #[.accept] 0 _ (Program.ofExpression expression).swap :=
    compiled_compile hwhole
  have hstart : Carries (Program.ofExpression expression).1 (Program.ofExpression expression).2
      (.save 0 :: (moves ++ [.save 1])) := by
    simpa using hcompiled.carries [] haccept
  have hall (place : Nat) : ∃ found, place < (Program.ofExpression expression).1.size →
      Carries (Program.ofExpression expression).1 place found := by
    by_cases hplace : place < (Program.ofExpression expression).1.size
    · by_cases hzero : place = 0
      · exact ⟨[], fun _ => hzero ▸ haccept.extend hcompiled.grows⟩
      · obtain ⟨found, hfound⟩ := hcompiled.complete [] haccept place hplace (by simp; omega)
        exact ⟨found, fun _ => hfound⟩
    · exact ⟨[], fun h => absurd h hplace⟩
  choose found hfound using hall
  exact ⟨found, hfound, hstart.lt_size, (hfound _ hstart.lt_size).unique hstart⟩

/-- **What a search finds.** The leftmost match that the moves of the expression lead to. -/
theorem Regex.find?_eq {regex : Regex} (hmoves : regex.expression.moves? = some moves)
    (text : List Char) :
    regex.find? text = leftmost (.save 0 :: (moves ++ [.save 1])) [] text := by
  obtain ⟨found, hcarries, hstart, hfound⟩ := exists_carriesOut hmoves
  have hrun := @run_eq _ [] text _ [] hcarries _ hstart (by simp) none
  rw [outcome_nil, Option.none_or, Option.none_or, hfound] at hrun
  exact hrun

/-- Moves that begin at the start of the text lead to no match further on. -/
theorem leftmost_textStart (text : List Char) :
    leftmost (.save 0 :: .check .textStart :: moves) [] text = attempt moves [(0, 0)] [] text := by
  have hbehind (c : Char) (passed rest : List Char) :
      leftmost (.save 0 :: .check .textStart :: moves) (c :: passed) rest = none := by
    induction rest generalizing c passed with
    | nil => rfl
    | cons d rest ih => exact ih d (c :: passed)
  cases text with
  | nil => rfl
  | cons c rest =>
    rw [leftmost, hbehind, Option.or_none]
    rfl

end TableRecipe.Pattern
