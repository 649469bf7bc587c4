import TableRecipe.Proofs.Number.Whole
import TableRecipe.Proofs.Remote.Attempts

/-!
# Widths of a call

The budget of a call has 32 bits, and so has the count of its attempts, which is one more. The first
wait has 64 bits of milliseconds; a wait is told in 64 bits of seconds. A call leaves these widths
at the greatest budget, where the count comes out as zero and nothing is sent, and at a wait that is
too long to be told.

* `Settings.Admitted` — settings that have their widths, `Settings.admitted_ofEnvironment` — those
  that an environment gives;
* `Remote.attempts_eq` — the count of attempts, for every budget;
* `Remote.canWait_mono`, `Remote.canWait_all_iff` — which waits can be told;
* `Remote.attempt_overflows_iff` — the attempts that are left stop at a wait that cannot be told;
* `Remote.told_of_attempt` — those that are made can be told;
* `Remote.send_staysInWidths_iff` — when a whole call stays within the widths.
-/

namespace TableRecipe

/-! ## Settings -/

theorem Decimal.whole?_lt {bits n : Nat} {cs : List Char} (h : whole? bits cs = some n) :
    n < 2 ^ bits := by
  rw [whole?] at h
  split at h
  · cases h
  · obtain ⟨value, hvalue, rfl⟩ := Option.map_eq_some_iff.mp h
    have hbounds := integer?_bounds hvalue
    have hpos := Nat.two_pow_pos bits
    rw [Nat.pow_eq] at hbounds
    omega

namespace Settings

/-- settings that have their widths -/
structure Admitted (settings : Settings) : Prop where
  /-- the budget has 32 bits -/
  retries : settings.retries < 2 ^ 32
  /-- the first wait has 64 bits -/
  backoffUnit : settings.backoffUnit < 2 ^ 64

/-- Variables of the environment that do not have the width of a setting are passed over. -/
theorem admitted_ofEnvironment (environment : List (String × String)) :
    (ofEnvironment environment).Admitted := by
  have hread (bits : Nat) (name : String) (usual : Nat) (husual : usual < 2 ^ bits) :
      (((environment.lookup name).bind fun text =>
        Decimal.whole? bits (Split.trim text.toList)).getD usual) < 2 ^ bits := by
    rcases hfound : (environment.lookup name).bind fun text =>
      Decimal.whole? bits (Split.trim text.toList) with _ | n
    · exact husual
    · obtain ⟨text, -, htext⟩ := Option.bind_eq_some_iff.mp hfound
      exact Decimal.whole?_lt htext
  exact ⟨hread 32 "LADLE_REQUEST_RETRIES" 5 (by decide),
    hread 64 "LADLE_BACKOFF_UNIT_MS" 1000 (by decide)⟩

end Settings

namespace Remote

variable {context : Context} {world : World} {request : Request} {payload : Value}
  {settings : Settings} {total left number retries : Nat}

/-! ## The count of attempts -/

/-- the greatest budget -/
def greatestBudget : Nat := 2 ^ 32 - 1

/-- The count of attempts comes out as zero at the greatest budget. -/
theorem attempts_eq (h : retries < 2 ^ 32) :
    attempts retries = if retries = greatestBudget then 0 else retries + 1 := by
  rw [attempts, Nat.pow_eq, greatestBudget]
  split <;> omega

/-! ## Waits that can be told -/

/-- Where a wait can be told, the shorter ones before it can be told. -/
theorem canWait_mono {earlier : Nat} (hle : earlier ≤ number) (h : CanWait settings number) :
    CanWait settings earlier := by
  have hpow : 2 ^ earlier ≤ 2 ^ number := Nat.pow_le_pow_right (by decide) hle
  have hwait : waitAfter settings earlier ≤ waitAfter settings number :=
    Nat.mul_le_mul_left _ (by omega)
  exact Nat.lt_of_le_of_lt (Nat.div_le_div_right hwait) h

/-- All waits of a budget can be told if the last one can. -/
theorem canWait_all_iff :
    (∀ number < settings.retries, CanWait settings number) ↔
      settings.retries = 0 ∨
        settings.backoffUnit * min (2 ^ (settings.retries - 1)) (2 ^ 32 - 1) < 1000 * 2 ^ 64 := by
  have hlast : CanWait settings (settings.retries - 1) ↔
      settings.backoffUnit * min (2 ^ (settings.retries - 1)) (2 ^ 32 - 1) < 1000 * 2 ^ 64 := by
    rw [CanWait, waitAfter, Nat.div_lt_iff_lt_mul (by decide), Nat.mul_comm 1000]
  rw [← hlast]
  constructor
  · intro h
    by_cases hzero : settings.retries = 0
    · exact .inl hzero
    · exact .inr (h _ (by omega))
  · rintro (hzero | h) number hlt
    · omega
    · exact canWait_mono (by omega) h

/-! ## Attempts -/

/-- What a call comes to by an outcome is no overflow. -/
theorem ending_ne_overflow (outcome : Except String Response) :
    ending request total outcome ≠ .error (.of .overflow) := by
  cases outcome with
  | error message => simp [ending, Error.of]
  | ok response =>
    simp only [ending]
    split
    · rw [valueOf]
      split <;> simp [Error.unexpectedResponse, Error.of]
    · split <;> simp [Error.of]

/-- The attempts that are left stop at the first wait that cannot be told, if all outcomes up to it
are retried. -/
theorem attempt_overflows_iff :
    ((attempt request payload total (left + 1) number).runIn context world).1 =
        .error (.of .overflow) ↔
      ∃ further < left, ¬CanWait context.settings (number + further) ∧
        ∀ earlier ≤ further, isRetried (outcomeAt context request payload world earlier) := by
  induction left generalizing number world with
  | zero =>
    rw [runIn_attempt_final (.inr rfl)]
    exact ⟨fun h => (ending_ne_overflow _ h).elim, nofun⟩
  | succ left ih =>
    cases hretried : isRetried (outcomeAt context request payload world 0) with
    | false =>
      rw [runIn_attempt_final (.inl hretried)]
      refine ⟨fun h => (ending_ne_overflow _ h).elim, ?_⟩
      rintro ⟨further, -, -, hall⟩
      simp [hall 0 (Nat.zero_le _)] at hretried
    | true =>
      by_cases hwait : CanWait context.settings number
      · rw [runIn_attempt_again hretried hwait, ih]
        simp only [outcomeAt_afterWait]
        constructor
        · rintro ⟨further, hlt, hlong, hall⟩
          refine ⟨further + 1, Nat.succ_lt_succ hlt, by rwa [Nat.add_right_comm] at hlong, ?_⟩
          intro earlier hle
          cases earlier with
          | zero => exact hretried
          | succ earlier => exact hall earlier (Nat.le_of_succ_le_succ hle)
        · rintro ⟨further, hlt, hlong, hall⟩
          cases further with
          | zero => exact (hlong hwait).elim
          | succ further =>
            refine ⟨further, Nat.lt_of_succ_lt_succ hlt, by rwa [Nat.add_right_comm], ?_⟩
            exact fun earlier hle => hall (earlier + 1) (Nat.succ_le_succ hle)
      · rw [runIn_attempt_overflow hretried hwait]
        refine ⟨fun _ => ⟨0, Nat.succ_pos _, hwait, ?_⟩, fun _ => rfl⟩
        rintro earlier hle
        obtain rfl := Nat.le_zero.mp hle
        exact hretried

/-- One attempt makes no wait. -/
theorem sleep_mem_afterAttempts_one {milliseconds : Nat} :
    Effect.sleep milliseconds ∈ (afterAttempts context request payload world number 1).trace ↔
      Effect.sleep milliseconds ∈ world.trace := by
  simp [afterAttempts, exchange]

/-- The waits that are made can be told. -/
theorem told_of_attempt {milliseconds : Nat}
    (h : Effect.sleep milliseconds ∈
      ((attempt request payload total (left + 1) number).runIn context world).2.trace) :
    Effect.sleep milliseconds ∈ world.trace ∨ milliseconds / 1000 < 2 ^ 64 := by
  induction left generalizing number world with
  | zero =>
    rw [runIn_attempt_final (.inr rfl)] at h
    exact .inl (sleep_mem_afterAttempts_one.mp h)
  | succ left ih =>
    cases hretried : isRetried (outcomeAt context request payload world 0) with
    | false =>
      rw [runIn_attempt_final (.inl hretried)] at h
      exact .inl (sleep_mem_afterAttempts_one.mp h)
    | true =>
      by_cases hwait : CanWait context.settings number
      · rw [runIn_attempt_again hretried hwait] at h
        rcases ih h with hbefore | htold
        · rcases List.mem_append.mp hbefore with hbefore | hmade
          · exact .inl (sleep_mem_afterAttempts_one.mp hbefore)
          · obtain rfl := Effect.sleep.inj (List.mem_singleton.mp hmade)
            exact .inr hwait
        · exact .inr htold
      · rw [runIn_attempt_overflow hretried hwait] at h
        exact .inl (sleep_mem_afterAttempts_one.mp h)

/-! ## A whole call -/

/-- a call that stays within the widths of its numbers -/
structure StaysInWidths (context : Context) (world : World) (request : Request) (payload : Value) :
    Prop where
  /-- the count of attempts is one more than the budget -/
  counted : attempts context.settings.retries = context.settings.retries + 1
  /-- the value is sent at least once -/
  sent : world.posts < ((send request payload).runIn context world).2.posts
  /-- every wait that is due can be told -/
  told : ((send request payload).runIn context world).1 ≠ .error (.of .overflow)

theorem runIn_send (total : Nat) (h : attempts context.settings.retries = total) :
    (send request payload).runIn context world =
      (attempt request payload total total 0).runIn context world := by
  rw [send, Engine.runIn_read_bind, h]

/-- At the greatest budget the count of attempts is zero, and nothing is sent. -/
theorem runIn_send_greatestBudget (h : context.settings.retries = greatestBudget) :
    (send request payload).runIn context world =
      (.error (.of (.noResponse request.url 0)), world) := by
  rw [runIn_send 0 (by rw [h]; rfl)]
  rfl

/-- settings with the greatest budget that can be counted, and the longest first wait -/
def greatestCounted : Settings := { retries := 2 ^ 32 - 2, backoffUnit := 2 ^ 64 - 1 }

end Remote

end TableRecipe
