import Mathlib.Algebra.Ring.Nat
import TableRecipe.Proofs.Remote.Answers
import TableRecipe.Proofs.Remote.Attempts

/-!
# Chunks sent one after the other

A list of values is cut into slices of one size, which are sent in order. The call goes on as long
as each slice is answered and its answer can be added to those before it; the first one that fails
ends the call, and nothing is sent after it.

* `Remote.Slices` — what the chunks of a list are;
* `Remote.afterRounds` — the world after chunks were sent, each in some attempts;
* `Remote.Answered` — chunks that were all answered;
* `Remote.sendAll_outcome` — when a call for a list succeeds and when it fails, and what it did.
-/

namespace TableRecipe.Remote

section Slices

variable {α : Type} {size : Nat} {items : List α}

/-- consecutive slices of a list, all of one size but for the last, which may be shorter -/
structure Slices (size : Nat) (items : List α) (slices : List (List α)) : Prop where
  /-- so many as it takes -/
  count : slices.length = (items.length + size - 1) / size
  /-- one behind the other they are the list -/
  joined : slices.flatten = items
  /-- those before the last are full -/
  full : ∀ slice ∈ slices.dropLast, slice.length = size
  /-- none is empty or longer than the others -/
  sized : ∀ slice ∈ slices, 0 < slice.length ∧ slice.length ≤ size

theorem flatten_chunksOf : (chunksOf size items).flatten = items := by
  fun_induction chunksOf size items with
  | case1 => rfl
  | case2 item rest ih => rw [List.flatten_cons, ih, List.cons_append, List.take_append_drop]

theorem length_chunksOf : (chunksOf size items).length = (items.length + size) / (size + 1) := by
  fun_induction chunksOf size items with
  | case1 => exact (Nat.div_eq_of_lt (by simp)).symm
  | case2 item rest ih =>
    rw [List.length_cons, ih, List.length_drop, List.length_cons]
    rcases Nat.lt_or_ge size rest.length with hlt | hge
    · rw [show rest.length + 1 + size = rest.length - size + size + (size + 1) by omega,
        Nat.add_div_right _ (Nat.succ_pos size)]
    · rw [show rest.length + 1 + size = rest.length + (size + 1) by omega,
        Nat.add_div_right _ (Nat.succ_pos size), Nat.div_eq_of_lt (by omega),
        Nat.div_eq_of_lt (by omega)]

theorem sized_chunksOf :
    ∀ slice ∈ chunksOf size items, 0 < slice.length ∧ slice.length ≤ size + 1 := by
  fun_induction chunksOf size items with
  | case1 => exact nofun
  | case2 item rest ih =>
    refine List.forall_mem_cons.mpr ⟨?_, ih⟩
    rw [List.length_cons, List.length_take]
    omega

theorem full_chunksOf : ∀ slice ∈ (chunksOf size items).dropLast, slice.length = size + 1 := by
  fun_induction chunksOf size items with
  | case1 => exact nofun
  | case2 item rest ih =>
    rcases hlater : chunksOf size (rest.drop size) with _ | ⟨next, later⟩
    · exact nofun
    · -- something follows, so the first slice is full
      have hlength : rest.drop size ≠ [] := by
        intro hnil
        rw [hnil, chunksOf] at hlater
        cases hlater
      rw [hlater] at ih
      refine List.forall_mem_cons.mpr ⟨?_, ih⟩
      rw [ne_eq, List.drop_eq_nil_iff] at hlength
      rw [List.length_cons, List.length_take]
      omega

/-- The chunks of a list are its slices; a size of zero counts as one. -/
theorem slices_chunks (size : Nat) (items : List α) :
    Slices (max size 1) items (chunks size items) := by
  have hsize : max size 1 = size - 1 + 1 := by omega
  rw [chunks, hsize]
  exact ⟨length_chunksOf, flatten_chunksOf, full_chunksOf, sized_chunksOf⟩

end Slices

variable {context : Context} {world after : World} {request : Request} {payload : Value}
  {chunk : List Value} {slices : List (List Value)} {answers result : Answers} {e : Error}

/-! ## Rounds -/

/-- Whatever a call comes to, it does nothing but post its value and wait between two posts, and it
was posted if an answer came back. -/
theorem send_exchange (context : Context) (request : Request) (payload : Value) (world : World) :
    ∃ result attempts, (send request payload).runIn context world =
        (result, afterAttempts context request payload world 0 attempts) ∧
      ((∃ answer, result = .ok answer) → 0 < attempts) := by
  rw [send, Engine.runIn_read_bind]
  rcases htotal : attempts context.settings.retries with _ | left
  · refine ⟨.error (.of (.noResponse request.url 0)), 0, ?_, ?_⟩
    · simp [attempt, afterAttempts, exchange]
    · rintro ⟨answer, h⟩
      cases h
  · obtain ⟨last, -, result, hrun, -⟩ := attempt_run request payload (left + 1) left 0 world
    exact ⟨result, last + 1, hrun, fun _ => Nat.succ_pos last⟩

/-- the world after chunks were sent, each in so many attempts -/
def afterRounds (context : Context) (request : Request) (world : World)
    (rounds : List (List Value × Nat)) : World :=
  { world with
    posts := world.posts + (rounds.map (·.2)).sum
    trace := world.trace ++ rounds.flatMap fun (chunk, attempts) =>
      exchange context.settings request (.list chunk) 0 attempts }

theorem afterRounds_nil : afterRounds context request world [] = world := by
  simp [afterRounds]

theorem afterRounds_cons {attempts : Nat} {rounds : List (List Value × Nat)} :
    afterRounds context request world ((chunk, attempts) :: rounds) =
      afterRounds context request (afterAttempts context request (.list chunk) world 0 attempts)
        rounds := by
  simp [afterRounds, afterAttempts, Nat.add_assoc]

/-- chunks that were sent one after the other, in some attempts each, and what was answered -/
inductive Answered (context : Context) (request : Request) :
    World → List (List Value × Nat) → List Value → Prop
  /-- nothing was sent -/
  | nil {world : World} : Answered context request world [] []
  /-- a chunk was answered, and so were all that follow -/
  | cons {world : World} {chunk : List Value} {attempts : Nat} {answer : Value}
      {rounds : List (List Value × Nat)} {answers : List Value} (hattempts : 0 < attempts)
      (hsend : (send request (.list chunk)).runIn context world =
        (.ok answer, afterAttempts context request (.list chunk) world 0 attempts))
      (hrest : Answered context request
        (afterAttempts context request (.list chunk) world 0 attempts) rounds answers) :
    Answered context request world ((chunk, attempts) :: rounds) (answer :: answers)

theorem Answered.length_eq {rounds : List (List Value × Nat)} {payloads : List Value}
    (h : Answered context request world rounds payloads) : payloads.length = rounds.length := by
  induction h with
  | nil => rfl
  | cons _ _ _ ih => exact congrArg (· + 1) ih

/-- A chunk is sent, its answer is added, and the others follow. -/
theorem runIn_sendChunks_cons {sent : Except Error Value}
    (h : (send request (.list chunk)).runIn context world = (sent, after)) :
    (sendChunks request answers (chunk :: slices)).runIn context world =
      match (sent >>= answers.absorb : Except Error Answers) with
      | .error e => (.error e, after)
      | .ok answers => (sendChunks request answers slices).runIn context after := by
  rw [sendChunks, Engine.runIn_bind, h]
  cases sent with
  | error e => rfl
  | ok payload =>
    have hadded : (Except.ok payload >>= answers.absorb) = answers.absorb payload := rfl
    simp only [Engine.runIn_bind, Engine.runIn_ofExcept, hadded]
    cases answers.absorb payload <;> rfl

/-- Chunks come to something if all were answered and the answers can be put together. -/
theorem sendChunks_eq_ok :
    (sendChunks request answers slices).runIn context world = (.ok result, after) ↔
      ∃ rounds payloads, slices = rounds.map (·.1) ∧
        Answered context request world rounds payloads ∧
        payloads.foldlM Answers.absorb answers = .ok result ∧
        after = afterRounds context request world rounds := by
  induction slices generalizing world answers with
  | nil =>
    rw [sendChunks, Engine.runIn_pure, Prod.mk.injEq, Except.ok.injEq]
    constructor
    · rintro ⟨rfl, rfl⟩
      exact ⟨[], [], rfl, .nil, rfl, afterRounds_nil.symm⟩
    · rintro ⟨rounds, payloads, hslices, hanswered, hresult, rfl⟩
      obtain rfl := List.map_eq_nil_iff.mp hslices.symm
      cases hanswered
      exact ⟨pure_eq_ok.mp hresult, afterRounds_nil.symm⟩
  | cons chunk rest ih =>
    constructor
    · intro h
      obtain ⟨sent, attempts, hsend, hpositive⟩ :=
        send_exchange context request (.list chunk) world
      rw [runIn_sendChunks_cons hsend] at h
      rcases hadded : sent >>= answers.absorb with e | together <;> rw [hadded] at h
      · cases h
      obtain ⟨payload, rfl, habsorb⟩ := bind_eq_ok.mp hadded
      obtain ⟨rounds, payloads, rfl, hanswered, hresult, rfl⟩ := ih.mp h
      exact ⟨(chunk, attempts) :: rounds, payload :: payloads, rfl,
        .cons (hpositive ⟨payload, rfl⟩) hsend hanswered,
        bind_eq_ok.mpr ⟨together, habsorb, hresult⟩, afterRounds_cons.symm⟩
    · rintro ⟨rounds, payloads, hslices, hanswered, hresult, rfl⟩
      cases hanswered with
      | nil => cases hslices
      | cons hattempts hsend hrest =>
        obtain ⟨rfl, htail⟩ := List.cons.inj hslices
        obtain ⟨together, habsorb, hresult⟩ := bind_eq_ok.mp hresult
        rw [runIn_sendChunks_cons hsend, bind_eq_ok.mpr ⟨_, rfl, habsorb⟩]
        exact ih.mpr ⟨_, _, htail, hrest, hresult, afterRounds_cons⟩

/-- Chunks fail with the first one that is not answered, or whose answer cannot be added to those
before it. -/
theorem sendChunks_eq_error :
    (sendChunks request answers slices).runIn context world = (.error e, after) ↔
      ∃ rounds chunk later payloads earlier sent,
        slices = rounds.map (·.1) ++ chunk :: later ∧
        Answered context request world rounds payloads ∧
        payloads.foldlM Answers.absorb answers = .ok earlier ∧
        (send request (.list chunk)).runIn context (afterRounds context request world rounds) =
          (sent, after) ∧
        sent >>= earlier.absorb = .error e := by
  induction slices generalizing world answers with
  | nil =>
    rw [sendChunks, Engine.runIn_pure]
    constructor
    · intro h
      cases h
    · rintro ⟨rounds, chunk, later, _, _, _, hslices, -⟩
      simp at hslices
  | cons chunk rest ih =>
    constructor
    · intro h
      obtain ⟨sent, attempts, hsend, hpositive⟩ :=
        send_exchange context request (.list chunk) world
      rw [runIn_sendChunks_cons hsend] at h
      rcases hadded : sent >>= answers.absorb with e' | together <;> rw [hadded] at h
      · -- this chunk fails
        obtain ⟨he, rfl⟩ := Prod.mk.inj h
        obtain rfl := Except.error.inj he
        exact ⟨[], chunk, rest, [], answers, sent, rfl, .nil, rfl, by rwa [afterRounds_nil], hadded⟩
      · obtain ⟨payload, rfl, habsorb⟩ := bind_eq_ok.mp hadded
        obtain ⟨rounds, failing, later, payloads, earlier, sent, rfl, hanswered, hearlier, hfails,
          he⟩ := ih.mp h
        exact ⟨(chunk, attempts) :: rounds, failing, later, payload :: payloads, earlier, sent, rfl,
          .cons (hpositive ⟨payload, rfl⟩) hsend hanswered,
          bind_eq_ok.mpr ⟨together, habsorb, hearlier⟩, by rwa [afterRounds_cons], he⟩
    · rintro ⟨rounds, failing, later, payloads, earlier, sent, hslices, hanswered, hearlier, hfails,
        he⟩
      cases hanswered with
      | nil =>
        obtain ⟨rfl, rfl⟩ := List.cons.inj hslices
        obtain rfl := pure_eq_ok.mp hearlier
        rw [afterRounds_nil] at hfails
        rw [runIn_sendChunks_cons hfails, he]
      | cons hattempts hsend hrest =>
        obtain ⟨rfl, htail⟩ := List.cons.inj hslices
        obtain ⟨together, habsorb, hearlier⟩ := bind_eq_ok.mp hearlier
        rw [afterRounds_cons] at hfails
        rw [runIn_sendChunks_cons hsend, bind_eq_ok.mpr ⟨_, rfl, habsorb⟩]
        exact ih.mpr ⟨_, _, _, _, _, _, htail, hrest, hearlier, hfails, he⟩

/-- A call for a list succeeds if all of its chunks are answered and the answers can be put
together. -/
theorem sendAll_eq_ok {items : List Value} {size : Nat} :
    (sendAll request items size).runIn context world = (.ok answers, after) ↔
      ∃ rounds payloads, chunks size items = rounds.map (·.1) ∧
        Answered context request world rounds payloads ∧
        Answers.Gathered payloads answers ∧
        after = afterRounds context request world rounds := by
  rw [sendAll, sendChunks_eq_ok]
  simp only [Answers.foldlM_absorb_eq_ok]

end TableRecipe.Remote
