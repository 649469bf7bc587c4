import Mathlib.Algebra.Group.Nat.Defs
import TableRecipe.Proofs.Outcome
import TableRecipe.Remote.Send

/-!
# Attempts of a call

A call to a remote service is a run over the outcomes of its attempts: all but the last are outcomes
that another attempt may mend, and the last one decides what the call comes to. What the call does
to its surroundings is one post for each attempt, with a wait between two of them that doubles.

* `Remote.isRetried`, `Remote.ending` — which outcomes are followed by another attempt, and what a
  call comes to that ends with an outcome;
* `Remote.exchange` — the posts and waits of a call;
* `Remote.attempt_run` — the attempts that are left, for every budget and every wait;
* `Remote.send_ends` — a whole call whose waits can be told.
-/

namespace TableRecipe

namespace Engine

variable {context : Context} {world : World}

/-- Sending a value is one effect, and its outcome depends on how many values were sent before. -/
theorem runIn_post (request : Request) (payload : Value) :
    (post request payload).runIn context world =
      (.ok (context.post world.posts request payload),
        { world with
          posts := world.posts + 1
          trace := world.trace ++ [.post request payload (context.settings.timeout * 1000)] }) :=
  rfl

end Engine

namespace Remote

variable {context : Context} {world : World} {request : Request} {payload : Value}
  {outcome : Except String Response} {total left number : Nat}

/-! ## Outcomes -/

/-- whether another attempt may mend an outcome: the service was not reached, or it failed -/
def isRetried : Except String Response → Bool
  | .error _ => true
  | .ok response => 500 ≤ response.status && response.status < 600

/-- what a call comes to that ends with an outcome, having made so many attempts -/
def ending (request : Request) (attempts : Nat) : Except String Response → Except Error Value
  | .error message => .error (.of (.transport request.url message))
  | .ok response =>
    if 200 ≤ response.status ∧ response.status < 300 then valueOf response
    else if 500 ≤ response.status ∧ response.status < 600 then
      .error (.of (.noResponse request.url attempts))
    else .error (.of (.remoteRefusal response.status response.reason response.body))

theorem verdict_of_not_retried (h : isRetried outcome = false) :
    verdict request total outcome = .done (ending request total outcome) := by
  cases outcome with
  | error message => cases h
  | ok response =>
    have hserver : ¬(500 ≤ response.status ∧ response.status < 600) := by simpa [isRetried] using h
    by_cases hsuccess : 200 ≤ response.status ∧ response.status < 300
    · simp [verdict, ending, Response.isSuccess, hsuccess]
    · simp [verdict, ending, Response.isSuccess, Response.isServerError, hsuccess, hserver]

theorem verdict_of_retried (h : isRetried outcome = true) :
    ∃ last, verdict request total outcome = .again last ∧
      ending request total outcome = .error last := by
  cases outcome with
  | error message => exact ⟨_, rfl, rfl⟩
  | ok response =>
    have hserver : 500 ≤ response.status ∧ response.status < 600 := by simpa [isRetried] using h
    have hsuccess : ¬(200 ≤ response.status ∧ response.status < 300) := by omega
    refine ⟨.of (.noResponse request.url total), ?_, ?_⟩
    · simp [verdict, Response.isSuccess, Response.isServerError, hsuccess, hserver]
    · simp [ending, hsuccess, hserver]

/-! ## Waits -/

/-- The wait doubles, as far as 32 bits go. -/
theorem factor_eq : factor number = min (2 ^ number) (2 ^ 32 - 1) := by
  rw [factor]
  split
  · rename_i h
    have hpow : 2 ^ number ≤ 2 ^ 31 := Nat.pow_le_pow_right (by decide) (by omega)
    rw [Nat.min_eq_left (Nat.le_trans hpow (by decide))]
    rfl
  · rename_i h
    have hpow : 2 ^ 32 ≤ 2 ^ number := Nat.pow_le_pow_right (by decide) (by omega)
    exact (Nat.min_eq_right (Nat.le_trans (by decide) hpow)).symm

/-- the wait after an attempt, in milliseconds -/
def waitAfter (settings : Settings) (number : Nat) : Nat :=
  settings.backoffUnit * min (2 ^ number) (2 ^ 32 - 1)

/-- whether the wait after an attempt can be told in 64 bits of seconds -/
def CanWait (settings : Settings) (number : Nat) : Prop :=
  waitAfter settings number / 1000 < 2 ^ 64

instance (settings : Settings) (number : Nat) : Decidable (CanWait settings number) :=
  inferInstanceAs (Decidable (_ < _))

theorem pause_eq :
    pause context.settings.backoffUnit number = waitAfter context.settings number := by
  rw [pause, factor_eq, waitAfter]

theorem runIn_wait (h : CanWait context.settings number) :
    (wait number).runIn context world =
      (.ok (), { world with
        trace := world.trace ++ [.sleep (waitAfter context.settings number)] }) := by
  have hlong : ¬longestPause < waitAfter context.settings number / 1000 := by
    rw [CanWait] at h
    rw [longestPause]
    change ¬2 ^ 64 - 1 < _
    omega
  rw [wait, Engine.runIn_read_bind, pause_eq, if_neg hlong]
  rfl

theorem runIn_wait_overflow (h : ¬CanWait context.settings number) :
    (wait number).runIn context world = (.error (.of .overflow), world) := by
  have hlong : longestPause < waitAfter context.settings number / 1000 := by
    rw [CanWait] at h
    rw [longestPause]
    change 2 ^ 64 - 1 < _
    omega
  rw [wait, Engine.runIn_read_bind, pause_eq, if_pos hlong]
  rfl

/-! ## Attempts -/

/-- the outcome of an attempt, counted from the posts that were made before -/
def outcomeAt (context : Context) (request : Request) (payload : Value) (world : World)
    (number : Nat) : Except String Response :=
  context.post (world.posts + number) request payload

/-- the effects of so many attempts, the first one having the number `first`: a post, and for every
further attempt a wait and another post of the same value -/
def exchange (settings : Settings) (request : Request) (payload : Value) (first : Nat) :
    (attempts : Nat) → List Effect
  | 0 => []
  | waits + 1 =>
    let post := Effect.post request payload (settings.timeout * 1000)
    post :: (List.range' first waits).flatMap fun number =>
      [.sleep (waitAfter settings number), post]

/-- the world after so many attempts -/
def afterAttempts (context : Context) (request : Request) (payload : Value) (world : World)
    (first attempts : Nat) : World :=
  { world with
    posts := world.posts + attempts
    trace := world.trace ++ exchange context.settings request payload first attempts }

/-- the world after an attempt and the wait that follows it -/
def afterWait (context : Context) (request : Request) (payload : Value) (world : World)
    (number : Nat) : World :=
  { afterAttempts context request payload world number 1 with
    trace := (afterAttempts context request payload world number 1).trace ++
      [.sleep (waitAfter context.settings number)] }

/-- What an attempt and its wait leave behind is where the further attempts begin. -/
theorem afterAttempts_afterWait (attempts : Nat) :
    afterAttempts context request payload (afterWait context request payload world number)
        (number + 1) (attempts + 1) =
      afterAttempts context request payload world number (attempts + 2) := by
  simp [afterAttempts, afterWait, exchange, List.range'_succ, Nat.add_comm, Nat.add_left_comm]

theorem outcomeAt_afterWait (attempt : Nat) :
    outcomeAt context request payload (afterWait context request payload world number) attempt =
      outcomeAt context request payload world (attempt + 1) := by
  simp [outcomeAt, afterWait, afterAttempts, Nat.add_comm, Nat.add_left_comm]

/-- An attempt posts the value once and goes on with the outcome. -/
theorem runIn_attempt_succ (request : Request) (payload : Value) (total left number : Nat) :
    (attempt request payload total (left + 1) number).runIn context world =
      Engine.runIn (match verdict request total (outcomeAt context request payload world 0) with
        | .done result => Engine.ofExcept result
        | .again last => do
          if left = 0 then throw last
          wait number
          attempt request payload total left (number + 1))
        context (afterAttempts context request payload world number 1) := by
  rw [attempt, Engine.runIn_bind, Engine.runIn_post]
  rfl

theorem runIn_attempt_final
    (h : isRetried (outcomeAt context request payload world 0) = false ∨ left = 0) :
    (attempt request payload total (left + 1) number).runIn context world =
      (ending request total (outcomeAt context request payload world 0),
        afterAttempts context request payload world number 1) := by
  rw [runIn_attempt_succ]
  cases hretried : isRetried (outcomeAt context request payload world 0) with
  | false => rw [verdict_of_not_retried hretried, Engine.runIn_ofExcept]
  | true =>
    obtain rfl : left = 0 := by simpa [hretried] using h
    obtain ⟨last, hverdict, hending⟩ := @verdict_of_retried request _ total hretried
    rw [hverdict, hending]
    rfl

theorem runIn_attempt_again (h : isRetried (outcomeAt context request payload world 0) = true)
    (hwait : CanWait context.settings number) :
    (attempt request payload total (left + 2) number).runIn context world =
      (attempt request payload total (left + 1) (number + 1)).runIn context
        (afterWait context request payload world number) := by
  obtain ⟨last, hverdict, -⟩ := @verdict_of_retried request _ total h
  rw [runIn_attempt_succ, hverdict]
  simp only [Nat.add_eq_zero_iff, Nat.succ_ne_self, and_false, if_false]
  change Engine.runIn (wait number >>= fun _ => _) _ _ = _
  rw [Engine.runIn_bind, runIn_wait hwait]
  rfl

theorem runIn_attempt_overflow (h : isRetried (outcomeAt context request payload world 0) = true)
    (hwait : ¬CanWait context.settings number) :
    (attempt request payload total (left + 2) number).runIn context world =
      (.error (.of .overflow), afterAttempts context request payload world number 1) := by
  obtain ⟨last, hverdict, -⟩ := @verdict_of_retried request _ total h
  rw [runIn_attempt_succ, hverdict]
  simp only [Nat.add_eq_zero_iff, Nat.succ_ne_self, and_false, if_false]
  change Engine.runIn (wait number >>= fun _ => _) _ _ = _
  rw [Engine.runIn_bind, runIn_wait_overflow hwait]

/-- The attempts that are left end with the first outcome that is not retried, or with the last
attempt there is, or before a wait that cannot be told. -/
theorem attempt_run (request : Request) (payload : Value) (total left number : Nat)
    (world : World) :
    ∃ last ≤ left, ∃ result,
      (attempt request payload total (left + 1) number).runIn context world =
        (result, afterAttempts context request payload world number (last + 1)) ∧
      (∀ earlier < last, isRetried (outcomeAt context request payload world earlier)) ∧
      ((last < left → isRetried (outcomeAt context request payload world last) = false) ∧
          result = ending request total (outcomeAt context request payload world last) ∨
        last < left ∧ ¬CanWait context.settings (number + last) ∧
          result = .error (.of .overflow)) := by
  induction left generalizing number world with
  | zero =>
    exact ⟨0, Nat.le_refl 0, _, runIn_attempt_final (.inr rfl), nofun, .inl ⟨nofun, rfl⟩⟩
  | succ left ih =>
    cases hretried : isRetried (outcomeAt context request payload world 0) with
    | false =>
      exact ⟨0, Nat.zero_le _, _, runIn_attempt_final (.inl hretried), nofun,
        .inl ⟨fun _ => hretried, rfl⟩⟩
    | true =>
      by_cases hwait : CanWait context.settings number
      · obtain ⟨last, hlast, result, hrun, hearlier, hend⟩ :=
          ih (number + 1) (afterWait context request payload world number)
        simp only [outcomeAt_afterWait] at hearlier hend
        refine ⟨last + 1, Nat.succ_le_succ hlast, result, ?_, ?_, ?_⟩
        · rw [runIn_attempt_again hretried hwait, hrun, afterAttempts_afterWait]
        · intro earlier hlt
          cases earlier with
          | zero => exact hretried
          | succ earlier => exact hearlier earlier (Nat.lt_of_succ_lt_succ hlt)
        · rcases hend with ⟨hfinal, hresult⟩ | ⟨hlt, hlong, hresult⟩
          · exact .inl ⟨fun h => hfinal (Nat.lt_of_succ_lt_succ h), hresult⟩
          · refine .inr ⟨Nat.succ_lt_succ hlt, ?_, hresult⟩
            rwa [Nat.add_right_comm] at hlong
      · exact ⟨0, Nat.zero_le _, _, runIn_attempt_overflow hretried hwait, nofun,
          .inr ⟨Nat.succ_pos _, hwait, rfl⟩⟩

/-- A call whose waits can all be told posts its value up to the first outcome that is not retried,
or as often as it may, with a wait between two posts, and that outcome decides what comes back. -/
theorem send_ends (hretries : context.settings.retries < 2 ^ 32 - 1)
    (hwait : ∀ number < context.settings.retries, CanWait context.settings number) :
    ∃ last ≤ context.settings.retries,
      (∀ earlier < last, isRetried (outcomeAt context request payload world earlier)) ∧
      (last < context.settings.retries →
        isRetried (outcomeAt context request payload world last) = false) ∧
      (send request payload).runIn context world =
        (ending request (context.settings.retries + 1)
            (outcomeAt context request payload world last),
          afterAttempts context request payload world 0 (last + 1)) := by
  have htotal : attempts context.settings.retries = context.settings.retries + 1 := by
    rw [attempts]
    refine Nat.mod_eq_of_lt ?_
    change _ < 2 ^ 32
    omega
  obtain ⟨last, hlast, result, hrun, hearlier, hend⟩ := @attempt_run context request payload
    (context.settings.retries + 1) context.settings.retries 0 world
  refine ⟨last, hlast, hearlier, ?_⟩
  rw [send, Engine.runIn_read_bind]
  simp only [htotal]
  rcases hend with ⟨hfinal, hresult⟩ | ⟨hlt, hlong, -⟩
  · exact ⟨hfinal, hrun.trans (by rw [hresult])⟩
  · exact absurd (hwait last hlt) (by rwa [Nat.zero_add] at hlong)

/-- a context whose service gives the outcomes of a list, one after the other -/
def scripted (settings : Settings) (outcomes : List (Except String Response)) : Context where
  settings := settings
  post posts _ _ := (outcomes[posts]?).getD (.error "no outcome is left")

/-- settings with three repetitions and a short first wait -/
def threeRepetitions : Settings := { retries := 3, backoffUnit := 5 }

theorem send_ends_thirdAttempt :
    let context := scripted threeRepetitions
      [.error "connection reset", .ok ⟨503, "busy"⟩, .ok ⟨200, "[1]"⟩]
    (send { url := "a" } (.ofInt 7)).runIn context {} =
      (.ok (.list [.ofInt 1]),
        { posts := 3
          trace := [.post { url := "a" } (.ofInt 7) 60000, .sleep 5,
            .post { url := "a" } (.ofInt 7) 60000, .sleep 10,
            .post { url := "a" } (.ofInt 7) 60000] }) := by
  intro context
  obtain ⟨last, hlast, hearlier, hfinal, hrun⟩ :=
    @send_ends context {} { url := "a" } (.ofInt 7) (by decide) (by decide)
  have hthird : isRetried (outcomeAt context { url := "a" } (.ofInt 7) {} 2) = false := rfl
  obtain rfl : last = 2 := by
    rcases Nat.lt_trichotomy last 2 with hlt | heq | hgt
    · -- the first two outcomes are retried
      have hretried : ∀ number < 2,
          isRetried (outcomeAt context { url := "a" } (.ofInt 7) {} number) = true := by decide
      exact absurd (hretried last hlt) (by simp [hfinal (Nat.lt_trans hlt (by decide))])
    · exact heq
    · exact absurd (hearlier 2 hgt) (by simp [hthird])
  rw [hrun]
  decide +kernel

end Remote

end TableRecipe
