import Mathlib.Data.List.Perm.Subperm
import TableRecipe.Proofs.Pattern.Moves

/-!
# Following programs

A program carries out moves if each of its instructions takes up where the one before it left off.
All ways through it are then followed side by side, and what is found is what trying the moves one
after the other finds: of several ways the first one that leads to a match, in order of preference.

* `Carries`, `CarriesOut` — an instruction, and a whole program, carries out moves;
* `outcome` — what the first successful one of several threads finds;
* `follow_found` — following threads up to the next character;
* `run_eq` — what a program finds.
-/

namespace TableRecipe.Pattern

variable {program : Program} {place : Nat} {slots : Slots} {passed rest : List Char}

/-! ## Carrying out moves -/

/-- from an instruction on, a program carries out moves and accepts -/
inductive Carries (program : Program) : (place : Nat) → (moves : List Move) → Prop where
  /-- nothing is left -/
  | accept {place : Nat} (hat : program[place]? = some .accept) : Carries program place []
  /-- one character -/
  | read {place next : Nat} {chars : CharSet} {moves : List Move}
    (hat : program[place]? = some (.read chars next)) (hnext : Carries program next moves) :
    Carries program place (.read chars :: moves)
  /-- many characters: the instruction inside comes back -/
  | many {place inside next : Nat} {chars : CharSet} {moves : List Move}
    (hat : program[place]? = some (.split inside next))
    (hinside : program[inside]? = some (.read chars place)) (hnext : Carries program next moves) :
    Carries program place (.many chars :: moves)
  /-- a condition -/
  | check {place next : Nat} {assertion : Assertion} {moves : List Move}
    (hat : program[place]? = some (.check assertion next)) (hnext : Carries program next moves) :
    Carries program place (.check assertion :: moves)
  /-- a position -/
  | save {place slot next : Nat} {moves : List Move}
    (hat : program[place]? = some (.save slot next)) (hnext : Carries program next moves) :
    Carries program place (.save slot :: moves)

/-- An instruction carries out one list of moves only. -/
theorem Carries.unique {moves moves' : List Move} (h : Carries program place moves)
    (h' : Carries program place moves') : moves = moves' := by
  induction h generalizing moves' with
  | accept hat => cases h' <;> simp_all
  | read hat _ ih | check hat _ ih | save hat _ ih | many hat hinside _ ih =>
    -- the instruction tells which move comes first, and where it leads
    cases h' <;> simp_all
    exact ih ‹_›

theorem Carries.lt_size {moves : List Move} (h : Carries program place moves) :
    place < program.size := by
  cases h <;> exact (Array.getElem?_eq_some_iff.mp ‹program[place]? = some _›).1

/-- every instruction of a program carries out the moves given for it -/
def CarriesOut (program : Program) (moves : Nat → List Move) : Prop :=
  ∀ place < program.size, Carries program place (moves place)

variable {moves : Nat → List Move}

theorem CarriesOut.eq (hmoves : CarriesOut program moves) {found : List Move}
    (h : Carries program place found) : moves place = found :=
  (hmoves place h.lt_size).unique h

/-- whether an instruction waits for a character or accepts -/
def Waits (program : Program) (place : Nat) : Prop :=
  program[place]? = some .accept ∨ ∃ chars next, program[place]? = some (.read chars next)

/-! ## What threads find -/

/-- what the first successful one of several threads finds -/
def outcome (moves : Nat → List Move) (passed rest : List Char) (threads : List Thread) :
    Option Slots :=
  threads.findSome? fun thread => attempt (moves thread.1) thread.2 passed rest

theorem outcome_nil : outcome moves passed rest [] = none := rfl

theorem outcome_append (threads more : List Thread) :
    outcome moves passed rest (threads ++ more) =
      (outcome moves passed rest threads).or (outcome moves passed rest more) :=
  List.findSome?_append

theorem outcome_cons (thread : Thread) (threads : List Thread) :
    outcome moves passed rest (thread :: threads) =
      (attempt (moves thread.1) thread.2 passed rest).or (outcome moves passed rest threads) := by
  rw [outcome, List.findSome?_cons]
  cases attempt (moves thread.1) thread.2 passed rest <;> rfl

theorem outcome_singleton :
    outcome moves passed rest [(place, slots)] = attempt (moves place) slots passed rest := by
  rw [outcome_cons, outcome_nil, Option.or_none]

/-- whether what an instruction leads to has been found already, should it be a match -/
def Settled (moves : Nat → List Move) (passed rest : List Char) (found : List Thread)
    (place : Nat) : Prop :=
  (attempt (moves place) [] passed rest).isSome → (outcome moves passed rest found.reverse).isSome

/-! ## Following threads -/

/-- what following threads comes to: it takes `steps` steps, after which the instructions of
`entered'` have been entered and the threads of `found'` have been found -/
structure Followed (program : Program) (moves : Nat → List Move) (passed rest : List Char)
    (threads : List Thread) (entered : List Nat) (found : List Thread) (steps : Nat)
    (entered' : List Nat) (found' : List Thread) : Prop where
  /-- the steps -/
  follows : ∀ fuel pending,
    follow program passed.length passed.head? rest.head? (fuel + steps) (threads ++ pending)
      entered found =
    follow program passed.length passed.head? rest.head? fuel pending entered' found'
  /-- there is one for each thread, and at most two more for each instruction entered -/
  few : steps + 2 * entered.length ≤ threads.length + 2 * entered'.length
  /-- no instruction is entered twice -/
  nodup : entered.Nodup → entered'.Nodup
  /-- only instructions of the program are entered -/
  inside : (∀ other ∈ entered, other < program.size) → ∀ other ∈ entered', other < program.size
  /-- threads found wait -/
  waits : ∀ other ∈ found', other ∈ found ∨ Waits program other.1
  /-- what the threads find comes after what had been found -/
  finds : outcome moves passed rest found'.reverse =
    (outcome moves passed rest found.reverse).or (outcome moves passed rest threads)
  /-- every instruction entered is settled -/
  settled : ∀ other ∈ entered', other ∈ entered ∨ Settled moves passed rest found' other

variable {threads more : List Thread} {entered entered' entered'' : List Nat}
  {found found' found'' : List Thread} {steps steps' : Nat}

/-- What is settled stays settled. -/
theorem Followed.settled_mono
    (h : Followed program moves passed rest threads entered found steps entered' found')
    {other : Nat} (hsettled : Settled moves passed rest found other) :
    Settled moves passed rest found' other := by
  intro hother
  rw [h.finds, Option.isSome_or, hsettled hother, Bool.true_or]

theorem followed_nil : Followed program moves passed rest [] entered found 0 entered found where
  follows := fun _ _ => rfl
  few := by simp
  nodup := id
  inside := id
  waits := fun _ => .inl
  finds := (Option.or_none ..).symm
  settled := fun _ => .inl

/-- Threads are followed one after the other. -/
theorem Followed.append
    (h : Followed program moves passed rest threads entered found steps entered' found')
    (h' : Followed program moves passed rest more entered' found' steps' entered'' found'') :
    Followed program moves passed rest (threads ++ more) entered found (steps' + steps) entered''
      found'' where
  follows := by
    intro fuel pending
    rw [List.append_assoc, ← Nat.add_assoc, h.follows, h'.follows]
  few := by
    have hfirst := h.few
    have hsecond := h'.few
    rw [List.length_append]
    omega
  nodup := h'.nodup ∘ h.nodup
  inside := h'.inside ∘ h.inside
  waits := by
    intro other hother
    exact (h'.waits other hother).elim (h.waits other) .inr
  finds := by rw [h'.finds, h.finds, outcome_append, Option.or_assoc]
  settled := by
    intro other hother
    obtain hother | hsettled := h'.settled other hother
    · exact (h.settled other hother).imp_right h'.settled_mono
    · exact .inr hsettled

/-- A thread at an instruction entered before is dropped: it finds nothing new. -/
theorem followed_again (hentered : place ∈ entered)
    (hsettled : Settled moves passed rest found place) :
    Followed program moves passed rest [(place, slots)] entered found 1 entered found where
  follows := by
    intro fuel pending
    rw [List.singleton_append, follow, if_pos (by simpa using hentered)]
  few := by simp
  nodup := id
  inside := id
  waits := fun _ => .inl
  finds := by
    rw [Settled, attempt_isSome _ [] slots] at hsettled
    rw [outcome_singleton]
    rcases hattempt : attempt (moves place) slots passed rest with _ | result
    · rw [Option.or_none]
    · rw [hattempt] at hsettled
      obtain ⟨first, hfirst⟩ := Option.isSome_iff_exists.mp (hsettled rfl)
      rw [hfirst, Option.some_or]
  settled := fun _ => .inl

/-- A thread that waits is found. -/
theorem followed_waiting (hentered : place ∉ entered) (hplace : place < program.size)
    (hwaits : Waits program place) :
    Followed program moves passed rest [(place, slots)] entered found 1 (place :: entered)
      ((place, slots) :: found) := by
  have hfinds : outcome moves passed rest ((place, slots) :: found).reverse =
      (outcome moves passed rest found.reverse).or
        (outcome moves passed rest [(place, slots)]) := by
    rw [List.reverse_cons, outcome_append]
  refine ⟨?_, ?_, ?_, ?_, ?_, hfinds, ?_⟩
  · intro fuel pending
    rw [List.singleton_append, follow, if_neg (by simpa using hentered)]
    obtain hat | ⟨chars, next, hat⟩ := hwaits <;> simp only [hat]
  · rw [List.length_singleton, List.length_cons]
    omega
  · exact fun h => List.nodup_cons.mpr ⟨hentered, h⟩
  · exact fun h => List.forall_mem_cons.mpr ⟨hplace, h⟩
  · intro other hother
    obtain rfl | hother := List.mem_cons.mp hother
    · exact .inr hwaits
    · exact .inl hother
  · intro other hother
    obtain rfl | hother := List.mem_cons.mp hother
    · refine .inr fun hsome => ?_
      rw [hfinds, outcome_singleton, Option.isSome_or, attempt_isSome _ slots [], hsome,
        Bool.or_true]
    · exact .inl hother

/-- A thread whose instruction is entered is followed by the ways that lead on from it. -/
theorem Followed.enter {ways : List Thread} (hentered : place ∉ entered)
    (hplace : place < program.size) (hfew : ways.length ≤ 2)
    (hstep : ∀ fuel pending,
      follow program passed.length passed.head? rest.head? (fuel + 1) ((place, slots) :: pending)
        entered found =
      follow program passed.length passed.head? rest.head? fuel (ways ++ pending)
        (place :: entered) found)
    (hways : outcome moves passed rest ways = attempt (moves place) slots passed rest)
    (h : Followed program moves passed rest ways (place :: entered) found steps entered' found') :
    Followed program moves passed rest [(place, slots)] entered found (steps + 1) entered'
      found' where
  follows := by
    intro fuel pending
    rw [List.singleton_append, ← Nat.add_assoc, hstep, h.follows]
  few := by
    have hfew' := h.few
    simp only [List.length_cons, List.length_nil] at hfew' ⊢
    omega
  nodup := fun hnodup => h.nodup (List.nodup_cons.mpr ⟨hentered, hnodup⟩)
  inside := fun hinside => h.inside (List.forall_mem_cons.mpr ⟨hplace, hinside⟩)
  waits := h.waits
  finds := by rw [h.finds, hways, outcome_singleton]
  settled := by
    intro other hother
    obtain hother | hsettled := h.settled other hother
    · obtain rfl | hother := List.mem_cons.mp hother
      · refine .inr fun hsome => ?_
        rw [h.finds, hways, Option.isSome_or, attempt_isSome _ slots [], hsome, Bool.or_true]
      · exact .inl hother
    · exact .inr hsettled

/-- how far a thread may be from the next character: the number of moves left, or nothing if it
waits -/
def distance (program : Program) (moves : Nat → List Move) (place : Nat) : Nat :=
  match program[place]? with
  | some .accept | some (.read _ _) => 0
  | _ => (moves place).length

theorem distance_le (program : Program) (moves : Nat → List Move) (place : Nat) :
    distance program moves place ≤ (moves place).length := by
  rw [distance]
  split <;> omega

/-- A move that waits for no character leads nearer to the next one. -/
theorem distance_lt {move : Move} {plan : List Move} {next : Nat}
    (hmoves : CarriesOut program moves) (hplan : moves place = move :: plan)
    (hnext : Carries program next plan)
    (hgoes : distance program moves place = (moves place).length) :
    distance program moves next < distance program moves place := by
  have hle := distance_le program moves next
  rw [hmoves.eq hnext] at hle
  rw [hgoes, hplan, List.length_cons]
  omega

/-- A thread is followed, provided that the instructions entered before and not further from the
next character are settled. -/
theorem exists_followed (hmoves : CarriesOut program moves) (slots : Slots)
    (hplace : place < program.size)
    (hsettled : ∀ other ∈ entered, distance program moves other ≤ distance program moves place →
      Settled moves passed rest found other) :
    ∃ steps entered' found',
      Followed program moves passed rest [(place, slots)] entered found steps entered' found' := by
  induction hdistance : distance program moves place using Nat.strongRecOn
    generalizing place slots entered found with
  | ind n ih =>
    subst hdistance
    by_cases hentered : place ∈ entered
    · exact ⟨_, _, _, followed_again hentered (hsettled place hentered (Nat.le_refl _))⟩
    -- the ways that lead on are nearer to the next character, so that this instruction, which is
    -- not settled yet, does not come in their way
    have hfollow {next : Nat} (slots : Slots) {found : List Thread} {entered' : List Nat}
        (hnext : next < program.size)
        (hnear : distance program moves next < distance program moves place)
        (hentered' : ∀ other ∈ entered', other ∈ place :: entered ∨
          Settled moves passed rest found other)
        (hfound : ∀ other ∈ entered, distance program moves other ≤ distance program moves place →
          Settled moves passed rest found other) :
        ∃ steps entered'' found', Followed program moves passed rest [(next, slots)] entered' found
          steps entered'' found' := by
      refine ih _ hnear slots hnext (fun other hother hle => ?_) rfl
      obtain hother | hdone := hentered' other hother
      · obtain rfl | hother := List.mem_cons.mp hother
        · omega
        · exact hfound other hother (by omega)
      · exact hdone
    have hcarries := hmoves place hplace
    generalize hplan : moves place = plan at hcarries
    cases hcarries with
    | accept hat => exact ⟨_, _, _, followed_waiting hentered hplace (.inl hat)⟩
    | read hat _ => exact ⟨_, _, _, followed_waiting hentered hplace (.inr ⟨_, _, hat⟩)⟩
    | @save _ slot next plan hat hnext =>
      have hnear := distance_lt hmoves hplan hnext (by simp [distance, hat])
      obtain ⟨_, _, _, hways⟩ := hfollow ((slot, passed.length) :: slots) hnext.lt_size hnear
        (fun _ => .inl) hsettled
      refine ⟨_, _, _, hways.enter hentered hplace (by simp) ?_ ?_⟩
      · intro fuel pending
        rw [follow, if_neg (by simpa using hentered)]
        simp only [hat, List.singleton_append]
      · rw [outcome_singleton, hmoves.eq hnext, hplan]
        rfl
    | @check _ next assertion plan hat hnext =>
      have hnear := distance_lt hmoves hplan hnext (by simp [distance, hat])
      by_cases hholds : assertion.holds passed.head? rest.head?
      · obtain ⟨_, _, _, hways⟩ := hfollow slots hnext.lt_size hnear (fun _ => .inl) hsettled
        refine ⟨_, _, _, hways.enter hentered hplace (by simp) ?_ ?_⟩
        · intro fuel pending
          rw [follow, if_neg (by simpa using hentered)]
          simp only [hat, hholds, if_true, List.singleton_append]
        · rw [outcome_singleton, hmoves.eq hnext, hplan, attempt, if_pos hholds]
      · refine ⟨_, _, _, followed_nil.enter hentered hplace (by simp) ?_ ?_⟩
        · intro fuel pending
          rw [follow, if_neg (by simpa using hentered)]
          simp only [hat, hholds, Bool.false_eq_true, if_false, List.nil_append]
        · rw [outcome_nil, hplan, attempt, if_neg hholds]
    | @many _ inside next chars plan hat hinside hnext =>
      have hnear := distance_lt hmoves hplan hnext (by simp [distance, hat])
      have hback : Carries program inside (.read chars :: .many chars :: plan) :=
        .read hinside (.many hat hinside hnext)
      have hwaits : distance program moves inside = 0 := by simp [distance, hinside]
      obtain ⟨_, _, _, hfirst⟩ := hfollow slots hback.lt_size (by omega) (fun _ => .inl) hsettled
      obtain ⟨_, _, _, hsecond⟩ := hfollow slots hnext.lt_size hnear hfirst.settled
        fun other hother hle => hfirst.settled_mono (hsettled other hother hle)
      refine ⟨_, _, _, (hfirst.append hsecond).enter hentered hplace (by simp) ?_ ?_⟩
      · intro fuel pending
        rw [follow, if_neg (by simpa using hentered)]
        simp only [hat, List.cons_append, List.nil_append]
      · rw [outcome_append, outcome_singleton, outcome_singleton, hmoves.eq hback,
          hmoves.eq hnext, hplan, attempt_many]

/-- Threads are followed one after the other, if every instruction entered before is settled. -/
theorem exists_followed_all (hmoves : CarriesOut program moves)
    (hthreads : ∀ thread ∈ threads, thread.1 < program.size)
    (hsettled : ∀ other ∈ entered, Settled moves passed rest found other) :
    ∃ steps entered' found',
      Followed program moves passed rest threads entered found steps entered' found' := by
  induction threads generalizing entered found with
  | nil => exact ⟨_, _, _, followed_nil⟩
  | cons thread threads ih =>
    obtain ⟨hthread, hothers⟩ := List.forall_mem_cons.mp hthreads
    obtain ⟨_, _, _, hfirst⟩ := exists_followed hmoves thread.2 hthread
      fun other hother _ => hsettled other hother
    obtain ⟨_, _, _, hmore⟩ := ih hothers fun other hother =>
      (hfirst.settled other hother).elim (fun h => hfirst.settled_mono (hsettled other h)) id
    exact ⟨_, _, _, hfirst.append hmore⟩

/-- **Following threads.** With fuel for every instruction of the program, following threads finds
threads that wait, of which the first successful one finds what the first successful one of them
finds. -/
theorem follow_found (hmoves : CarriesOut program moves)
    (hthreads : ∀ thread ∈ threads, thread.1 < program.size) {fuel : Nat}
    (hfuel : 2 * program.size + threads.length ≤ fuel) :
    ∃ entered found,
      follow program passed.length passed.head? rest.head? fuel threads [] [] = (entered, found) ∧
      (∀ thread ∈ found, Waits program thread.1) ∧
      outcome moves passed rest found.reverse = outcome moves passed rest threads := by
  have hnone : ∀ other ∈ [], Settled moves passed rest [] other := nofun
  obtain ⟨steps, entered, found, h⟩ := exists_followed_all hmoves hthreads hnone
  have hlength : entered.length ≤ program.size := by
    have hsubset : entered ⊆ List.range program.size :=
      fun place hplace => List.mem_range.mpr (h.inside nofun place hplace)
    simpa using (List.subperm_of_subset (h.nodup List.nodup_nil) hsubset).length_le
  have hfew := h.few
  obtain ⟨left, rfl⟩ := Nat.exists_eq_add_of_le' (show steps ≤ fuel by simp at hfew; omega)
  refine ⟨entered, found, ?_, fun thread hthread => ?_, ?_⟩
  · have hfollows := h.follows left []
    rw [List.append_nil] at hfollows
    rw [hfollows]
    cases left <;> rfl
  · exact (h.waits thread hthread).elim nofun id
  · simpa [outcome_nil] using h.finds

/-! ## Moving over a character -/

/-- Moving threads that wait over a character leaves those that go on; a thread that accepts comes
after them, and hides what comes after it. -/
theorem advance_cons (hmoves : CarriesOut program moves) (c : Char)
    (hwaits : ∀ thread ∈ threads, Waits program thread.1) :
    ∃ moved accepted, advance program (some c) threads = (moved, accepted) ∧
      (∀ thread ∈ moved, thread.1 < program.size) ∧
      outcome moves passed (c :: rest) threads =
        (outcome moves (c :: passed) rest moved).or accepted := by
  induction threads with
  | nil => exact ⟨[], none, rfl, nofun, rfl⟩
  | cons thread threads ih =>
    obtain ⟨place, slots⟩ := thread
    obtain ⟨hfirst, hothers⟩ := List.forall_mem_cons.mp hwaits
    obtain ⟨moved, accepted, hadvance, hinside, houtcome⟩ := ih hothers
    obtain hat | ⟨chars, next, hat⟩ := hfirst
    · refine ⟨[], some slots, by simp only [advance, hat], nofun, ?_⟩
      rw [outcome_cons, hmoves.eq (.accept hat)]
      rfl
    · have hcarries := hmoves place (Array.getElem?_eq_some_iff.mp hat).1
      generalize hplan : moves place = plan at hcarries
      cases hcarries with
      | read hat' hnext =>
        obtain ⟨rfl, rfl⟩ := Instruction.read.inj (Option.some.inj (hat.symm.trans hat'))
        rw [outcome_cons, hplan, houtcome, attempt]
        cases hchars : chars.contains c with
        | true =>
          refine ⟨(next, slots) :: moved, accepted, ?_, ?_, ?_⟩
          · simp [advance, hat, hadvance, hchars]
          · exact List.forall_mem_cons.mpr ⟨hnext.lt_size, hinside⟩
          · rw [if_pos rfl, outcome_cons, hmoves.eq hnext, Option.or_assoc]
        | false =>
          refine ⟨moved, accepted, ?_, hinside, ?_⟩
          · simp [advance, hat, hadvance, hchars]
          · rw [if_neg Bool.false_ne_true, Option.none_or]
      | accept hat' | many hat' | check hat' | save hat' => cases hat.symm.trans hat'

/-- Where the text ends, threads that wait do not go on. -/
theorem advance_nil (hmoves : CarriesOut program moves)
    (hwaits : ∀ thread ∈ threads, Waits program thread.1) :
    advance program none threads = ([], outcome moves passed [] threads) := by
  induction threads with
  | nil => rfl
  | cons thread threads ih =>
    obtain ⟨place, slots⟩ := thread
    obtain ⟨hfirst, hothers⟩ := List.forall_mem_cons.mp hwaits
    rw [outcome_cons]
    obtain hat | ⟨chars, next, hat⟩ := hfirst
    · simp only [advance, hat, hmoves.eq (.accept hat)]
      rfl
    · have hcarries := hmoves place (Array.getElem?_eq_some_iff.mp hat).1
      generalize hplan : moves place = plan at hcarries
      cases hcarries with
      | read hat' hnext => simp [advance, hat, ih hothers, attempt]
      | accept hat' | many hat' | check hat' | save hat' => cases hat.symm.trans hat'

/-! ## Running -/

/-- the threads under way where a match may start unless one has been found -/
def underWay (start : Nat) (threads : List Thread) (best : Option Slots) : List Thread :=
  if best.isNone then threads ++ [(start, [])] else threads

theorem outcome_underWay {start : Nat} {threads : List Thread} {best : Option Slots} :
    (outcome moves passed rest (underWay start threads best)).or best =
      (outcome moves passed rest threads).or
        (best.or (attempt (moves start) [] passed rest)) := by
  cases best with
  | none => simp [underWay, outcome_append, outcome_singleton]
  | some slots => simp [underWay]

/-- One round of a program: threads are followed, and moved over the next character. -/
theorem run_round (hmoves : CarriesOut program moves) {start : Nat} (hstart : start < program.size)
    (hthreads : ∀ thread ∈ threads, thread.1 < program.size) (best : Option Slots)
    (passed rest : List Char) :
    ∃ found, (∀ thread ∈ found, Waits program thread.1) ∧
      (outcome moves passed rest found).or best =
        (outcome moves passed rest threads).or
          (best.or (attempt (moves start) [] passed rest)) ∧
      ∀ moved accepted, advance program rest.head? found = (moved, accepted) →
        run program start passed.length passed.head? threads best rest =
          match rest with
          | [] => accepted.or best
          | c :: rest =>
            if moved.isEmpty && (accepted.or best).isSome then accepted.or best
            else run program start (passed.length + 1) (some c) moved (accepted.or best) rest := by
  have hpending : ∀ thread ∈ underWay start threads best, thread.1 < program.size := by
    rw [underWay]
    split
    · exact List.forall_mem_append.mpr ⟨hthreads, List.forall_mem_singleton.mpr hstart⟩
    · exact hthreads
  have hfuel : 2 * program.size + (underWay start threads best).length ≤
      3 * program.size + (underWay start threads best).length + 3 := by omega
  obtain ⟨entered, found, hfollow, hwaits, hfound⟩ := follow_found hmoves hpending hfuel
  refine ⟨found.reverse, by simpa using hwaits, ?_, ?_⟩
  · rw [hfound, outcome_underWay]
  · intro moved accepted hadvance
    have horElse : (accepted.orElse fun _ => best) = accepted.or best := by
      cases accepted <;> rfl
    unfold underWay at hfollow
    cases rest with
    | nil =>
      rw [run, hfollow]
      dsimp only
      rw [hadvance]
      exact horElse
    | cons c rest =>
      rw [run, hfollow]
      dsimp only
      rw [hadvance]
      dsimp only
      rw [horElse]

/-- **What a program finds.** Of the threads that are under way what the first successful one finds,
or else the match found before, or else the leftmost match from here on. -/
theorem run_eq (hmoves : CarriesOut program moves) {start : Nat} (hstart : start < program.size)
    (hthreads : ∀ thread ∈ threads, thread.1 < program.size) (best : Option Slots) :
    run program start passed.length passed.head? threads best rest =
      (outcome moves passed rest threads).or (best.or (leftmost (moves start) passed rest)) := by
  induction rest generalizing passed threads best with
  | nil =>
    obtain ⟨found, hwaits, hfound, hrun⟩ := run_round hmoves hstart hthreads best passed []
    rw [hrun [] (outcome moves passed [] found) (advance_nil hmoves hwaits), hfound]
    rfl
  | cons c rest ih =>
    obtain ⟨found, hwaits, hfound, hrun⟩ := run_round hmoves hstart hthreads best passed (c :: rest)
    obtain ⟨moved, accepted, hadvance, hinside, hmoved⟩ := advance_cons hmoves c hwaits
    -- stopping early makes no difference: nothing is under way, and a match has been found
    have hnext : run program start passed.length passed.head? threads best (c :: rest) =
        (outcome moves (c :: passed) rest moved).or
          ((accepted.or best).or (leftmost (moves start) (c :: passed) rest)) := by
      rw [hrun moved accepted hadvance]
      dsimp only
      split
      case isTrue hstop =>
        obtain ⟨hempty, hsome⟩ := Bool.and_eq_true_iff.mp hstop
        obtain ⟨slots, hslots⟩ := Option.isSome_iff_exists.mp hsome
        rw [List.isEmpty_iff.mp hempty, outcome_nil, hslots]
        rfl
      case isFalse => exact @ih (c :: passed) moved hinside (accepted.or best)
    calc run program start passed.length passed.head? threads best (c :: rest)
      _ = ((outcome moves passed (c :: rest) found).or best).or
            (leftmost (moves start) (c :: passed) rest) := by
        rw [hnext, hmoved]
        simp only [Option.or_assoc]
      _ = (outcome moves passed (c :: rest) threads).or
            (best.or (leftmost (moves start) passed (c :: rest))) := by
        rw [hfound, leftmost]
        simp only [Option.or_assoc]

end TableRecipe.Pattern
