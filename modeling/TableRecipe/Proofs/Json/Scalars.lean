import Mathlib.Tactic.SplitIfs
import TableRecipe.Json.Parser

/-!
# Texts and numbers read back

The reader of JSON takes what is written of a text or a number, and leaves what follows. A text ends
with its quote. A number ends where neither a digit nor a point nor an exponent follows, and is read
in the same way whatever follows then.

* `Json.readText_quoted` — a text in quotes comes back, whatever its characters are;
* `Json.Ends` — what ends a number;
* `Json.Frames` — parts of a number that are read in the same way whatever follows the number;
* `Json.readNumber_append` — a number with something behind it.
-/

namespace TableRecipe.Json

variable {c d : Char} {cs rest after : List Char} {value : Value}

/-! ## Texts -/

/-- a character in front of a text that was read -/
def before (c : Char) (found : List Char × List Char) : List Char × List Char :=
  (c :: found.1, found.2)

theorem bind_before (x : Option (List Char × List Char)) :
    (x.bind fun found => some (c :: found.1, found.2)) = x.map (before c) := by
  cases x <;> rfl

/-- A character that is no surrogate may be escaped by its number. -/
theorem readText_number {e f g h : Char} {code : Nat} (hcode : hex4? e f g h = some code)
    (hlow : code < 0xd800) :
    readText ('\\' :: 'u' :: e :: f :: g :: h :: rest) =
      (readText rest).map (before (Char.ofNat code)) := by
  have hnot : ¬0xd800 ≤ code := by omega
  have hnot' : ¬0xdc00 ≤ code := by omega
  by_cases hpair : ∃ e' f' g' h' more, rest = '\\' :: 'u' :: e' :: f' :: g' :: h' :: more
  · -- another such escape is read after this one, not together with it
    obtain ⟨_, _, _, _, _, rfl⟩ := hpair
    rw [readText]
    simp [hcode, hnot, hnot', bind_before]
  · rw [readText]
    · simp [hcode, hnot, bind_before]
    · intro _ _ _ _ _ heq
      exact hpair ⟨_, _, _, _, _, heq⟩

/-- A character may be escaped by a letter that stands for it. -/
theorem readText_letter (h : escaped? c = some d) :
    readText ('\\' :: c :: rest) = (readText rest).map (before d) := by
  have hc : c ≠ 'u' := by
    rintro rfl
    cases h
  rw [readText]
  · simp [h, bind_before]
  · exact fun _ _ _ _ _ _ _ _ _ heq => absurd heq hc
  · exact fun _ _ _ _ _ heq => absurd heq hc

/-- Every other character stands for itself, controls excepted. -/
theorem readText_plain (hquote : c ≠ '"') (hbackslash : c ≠ '\\') (h : ¬c.toNat < 32) :
    readText (c :: rest) = (readText rest).map (before c) := by
  rw [readText]
  · simp [h, hbackslash, bind_before]
  all_goals simp [hquote, hbackslash]

theorem hex4?_control {n : Nat} (h : n < 32) :
    hex4? '0' '0' (hexDigit (n / 16)) (hexDigit (n % 16)) = some n := by
  have hcontrols : ∀ n < 32, hex4? '0' '0' (hexDigit (n / 16)) (hexDigit (n % 16)) = some n := by
    decide
  exact hcontrols n h

theorem eq_ofNat_of_toNat {n : Nat} (h : c.toNat = n) : Char.ofNat n = c := by
  rw [← h, Char.ofNat_toNat]

/-- What is written of a character is read as this character. -/
theorem readText_escape (c : Char) (rest : List Char) :
    readText (escape c ++ rest) = (readText rest).map (before c) := by
  rw [escape]
  split_ifs with hquote hbackslash hline hreturn htab hback hfeed hcontrol
  · subst hquote
    exact readText_letter rfl
  · subst hbackslash
    exact readText_letter rfl
  · subst hline
    exact readText_letter rfl
  · subst hreturn
    exact readText_letter rfl
  · subst htab
    exact readText_letter rfl
  · rw [← eq_ofNat_of_toNat hback]
    exact readText_letter rfl
  · rw [← eq_ofNat_of_toNat hfeed]
    exact readText_letter rfl
  · refine (readText_number (hex4?_control hcontrol) (by omega)).trans ?_
    rw [Char.ofNat_toNat]
    rfl
  · exact readText_plain hquote hbackslash hcontrol

/-- A text in quotes is read up to its closing quote. -/
theorem readText_quoted (cs rest : List Char) :
    readText (cs.flatMap escape ++ '"' :: rest) = some (cs, rest) := by
  induction cs with
  | nil => rw [List.flatMap_nil, List.nil_append, readText]
  | cons c cs ih =>
    rw [List.flatMap_cons, List.append_assoc, readText_escape, ih]
    rfl

/-! ## Numbers -/

/-- whether a number that stands in front of a character would go on with it -/
def continues (c : Char) : Bool := Decimal.isDigit c || c = '.' || c = 'e' || c = 'E'

/-- whether a number that stands in front of characters ends there -/
def Ends (cs : List Char) : Prop := ∀ c more, cs = c :: more → continues c = false

theorem ends_nil : Ends [] := nofun

theorem Ends.not_isDigit (h : Ends rest) :
    ∀ c more, rest = c :: more → Decimal.isDigit c = false := by
  intro c more heq
  have hc := h c more heq
  simp only [continues, Bool.or_eq_false_iff] at hc
  exact hc.1.1.1

theorem head?_append_iff (hends : Ends rest) (hc : continues c = true) :
    (cs ++ rest).head? = some c ↔ cs.head? = some c := by
  cases cs with
  | nil =>
    refine ⟨fun h => ?_, nofun⟩
    obtain ⟨more, hmore⟩ := List.head?_eq_some_iff.mp h
    rw [hends c more hmore] at hc
    cases hc
  | cons => rfl

/-- What is taken while a property holds ends before characters of which the first one lacks it. -/
theorem takeWhile_append_ends {p : Char → Bool} (h : ∀ c more, rest = c :: more → p c = false)
    (cs : List Char) : (cs ++ rest).takeWhile p = cs.takeWhile p := by
  induction cs with
  | nil =>
    cases rest with
    | nil => rfl
    | cons c more => simp [h c more rfl]
  | cons c cs ih => simp [List.takeWhile_cons, ih]

theorem dropWhile_append_ends {p : Char → Bool} (h : ∀ c more, rest = c :: more → p c = false)
    (cs : List Char) : (cs ++ rest).dropWhile p = cs.dropWhile p ++ rest := by
  induction cs with
  | nil =>
    cases rest with
    | nil => rfl
    | cons c more => simp [h c more rfl]
  | cons c cs ih =>
    by_cases hc : p c
    · simp [hc, ih]
    · simp [hc]

/-! ## Parts of a number -/

/-- a part of a number is read in the same way whatever follows the number -/
def Frames (read : List Char → Option (Value × List Char)) : Prop :=
  ∀ cs value after rest, Ends rest → read cs = some (value, after) →
    read (cs ++ rest) = some (value, after ++ rest)

theorem readSignificand_append (hends : Ends rest) {significand taken : Nat} :
    readSignificand significand taken (cs ++ rest) =
      ((readSignificand significand taken cs).1, (readSignificand significand taken cs).2.1,
        (readSignificand significand taken cs).2.2 ++ rest) := by
  induction cs generalizing significand taken with
  | nil =>
    cases rest with
    | nil => rfl
    | cons c more => simp [readSignificand, hends.not_isDigit c more rfl]
  | cons c cs ih =>
    rw [List.cons_append, readSignificand, readSignificand]
    split
    · exact ih
    · rfl

/-- the digits of an exponent, and what an exponent with them comes to -/
def ofExponent (negative : Bool) (significand : Nat) (exponent : Int) (down : Bool)
    (body : List Char) : Option (Value × List Char) :=
  let digits := body.takeWhile Decimal.isDigit
  let rest := body.dropWhile Decimal.isDigit
  if digits.isEmpty then none
  else
    let magnitude := Decimal.natural digits
    if Nat.pow 2 31 ≤ magnitude then
      if significand = 0 || down then some (.number (.decimal (.finite negative 0)), rest)
      else none
    else do
      let exponent := if down then exponent - magnitude else exponent + magnitude
      some (← decimal? negative significand exponent, rest)

theorem frames_ofExponent (negative : Bool) (significand : Nat) (exponent : Int) (down : Bool) :
    Frames (ofExponent negative significand exponent down) := by
  intro cs value after rest hends h
  simp only [ofExponent] at h ⊢
  rw [takeWhile_append_ends hends.not_isDigit, dropWhile_append_ends hends.not_isDigit]
  -- digits and rest are all that is looked at, and only the rest comes out
  generalize cs.takeWhile Decimal.isDigit = digits at h ⊢
  generalize cs.dropWhile Decimal.isDigit = remaining at h ⊢
  split at h
  · cases h
  split at h
  · split at h
    · obtain ⟨rfl, rfl⟩ := Prod.mk.inj (Option.some.inj h)
      simp [*]
    · cases h
  · obtain ⟨x, hx, h⟩ := Option.bind_eq_some_iff.mp h
    obtain ⟨rfl, rfl⟩ := Prod.mk.inj (Option.some.inj h)
    simp [*]

/-- An exponent may have a sign. -/
theorem readExponent_cons (negative : Bool) (significand : Nat) (exponent : Int) (c : Char)
    (cs : List Char) : readExponent negative significand exponent (c :: cs) =
      if c = '+' then ofExponent negative significand exponent false cs
      else if c = '-' then ofExponent negative significand exponent true cs
      else ofExponent negative significand exponent false (c :: cs) := by
  unfold readExponent
  split
  rename_i heq
  split at heq <;> simp_all [ofExponent, Decimal.spanDigits]

theorem frames_readExponent (negative : Bool) (significand : Nat) (exponent : Int) :
    Frames (readExponent negative significand exponent) := by
  intro cs value after rest hends h
  cases cs with
  | nil => cases h
  | cons c cs =>
    rw [readExponent_cons] at h
    rw [List.cons_append, readExponent_cons]
    by_cases hplus : c = '+'
    · rw [if_pos hplus] at h ⊢
      exact frames_ofExponent _ _ _ _ _ _ _ _ hends h
    rw [if_neg hplus] at h ⊢
    by_cases hminus : c = '-'
    · rw [if_pos hminus] at h ⊢
      exact frames_ofExponent _ _ _ _ _ _ _ _ hends h
    · rw [if_neg hminus] at h ⊢
      exact frames_ofExponent _ _ _ _ _ _ _ _ hends h

theorem readScaled_of_head? (negative : Bool) (significand : Nat) (exponent : Int)
    (he : cs.head? ≠ some 'e') (hE : cs.head? ≠ some 'E') :
    readScaled negative significand exponent cs =
      (decimal? negative significand exponent).map (·, cs) := by
  rw [readScaled]
  · cases decimal? negative significand exponent <;> rfl
  · rintro more rfl
    exact he rfl
  · rintro more rfl
    exact hE rfl

theorem frames_readScaled (negative : Bool) (significand : Nat) (exponent : Int) :
    Frames (readScaled negative significand exponent) := by
  intro cs value after rest hends h
  by_cases he : cs.head? = some 'e'
  · obtain ⟨more, rfl⟩ := List.head?_eq_some_iff.mp he
    exact frames_readExponent _ _ _ _ _ _ _ hends h
  by_cases hE : cs.head? = some 'E'
  · obtain ⟨more, rfl⟩ := List.head?_eq_some_iff.mp hE
    exact frames_readExponent _ _ _ _ _ _ _ hends h
  rw [readScaled_of_head? _ _ _ he hE] at h
  rw [readScaled_of_head? _ _ _ (mt (head?_append_iff hends rfl).mp he)
    (mt (head?_append_iff hends rfl).mp hE)]
  obtain ⟨x, hx, heq⟩ := Option.map_eq_some_iff.mp h
  obtain ⟨rfl, rfl⟩ := Prod.mk.inj heq
  rw [hx]
  rfl

theorem frames_readFraction (negative : Bool) (significand : Nat) (exponent : Int) :
    Frames (readFraction negative significand exponent) := by
  intro cs value after rest hends h
  cases cs with
  | nil => cases h
  | cons c cs =>
    rw [List.cons_append]
    simp only [readFraction] at h ⊢
    split at h
    · rename_i hdigit
      rw [← List.cons_append, readSignificand_append hends,
        dropWhile_append_ends hends.not_isDigit, if_pos hdigit]
      exact frames_readScaled _ _ _ _ _ _ _ hends h
    · cases h

/-- a number after the digits in front, of which some were beyond the significand -/
def ofDigits (negative : Bool) (significand : Nat) (beyond : List Char) (cs : List Char) :
    Option (Value × List Char) :=
  match cs with
  | '.' :: more => readFraction negative significand beyond.length more
  | after =>
    if after.head? = some 'e' || after.head? = some 'E' || !beyond.isEmpty then
      readScaled negative significand beyond.length after
    else if !negative then some (.ofInt significand, after)
    else if 0 < significand && significand ≤ Nat.pow 2 63 then
      some (.ofInt (-(significand : Int)), after)
    else some (.number (.decimal (Binary64.ofInt significand).negate), after)

theorem ofDigits_of_head? (negative : Bool) (significand : Nat) (beyond : List Char)
    (h : cs.head? ≠ some '.') : ofDigits negative significand beyond cs =
      if cs.head? = some 'e' || cs.head? = some 'E' || !beyond.isEmpty then
        readScaled negative significand beyond.length cs
      else if !negative then some (.ofInt significand, cs)
      else if 0 < significand && significand ≤ Nat.pow 2 63 then
        some (.ofInt (-(significand : Int)), cs)
      else some (.number (.decimal (Binary64.ofInt significand).negate), cs) := by
  rw [ofDigits]
  rintro more rfl
  exact h rfl

theorem frames_ofDigits (negative : Bool) (significand : Nat) (beyond : List Char) :
    Frames (ofDigits negative significand beyond) := by
  intro cs value after rest hends h
  by_cases hpoint : cs.head? = some '.'
  · obtain ⟨more, rfl⟩ := List.head?_eq_some_iff.mp hpoint
    exact frames_readFraction _ _ _ _ _ _ _ hends h
  have hpoint' : (cs ++ rest).head? ≠ some '.' := mt (head?_append_iff hends rfl).mp hpoint
  rw [ofDigits_of_head? _ _ _ hpoint] at h
  rw [ofDigits_of_head? _ _ _ hpoint']
  simp only [head?_append_iff hends (show continues 'e' = true from rfl),
    head?_append_iff hends (show continues 'E' = true from rfl)]
  split_ifs at h ⊢
  · exact frames_readScaled _ _ _ _ _ _ _ hends h
  all_goals
    obtain ⟨rfl, rfl⟩ := Prod.mk.inj (Option.some.inj h)
    rfl

theorem frames_readUnsigned (negative : Bool) : Frames (readUnsigned negative) := by
  intro cs value after rest hends h
  cases cs with
  | nil => cases h
  | cons c cs =>
    rw [List.cons_append]
    simp only [readUnsigned] at h ⊢
    rw [← List.cons_append, readSignificand_append hends]
    dsimp only
    rw [dropWhile_append_ends hends.not_isDigit, takeWhile_append_ends hends.not_isDigit]
    split at h
    · cases h
    split at h
    · cases h
    simp only [*]
    exact frames_ofDigits _ _ _ _ _ _ _ hends h

/-- A number is read in the same way whatever follows it. -/
theorem readNumber_append (hends : Ends rest) (h : readNumber cs = some (value, after)) :
    readNumber (cs ++ rest) = some (value, after ++ rest) := by
  by_cases hminus : cs.head? = some '-'
  · obtain ⟨more, rfl⟩ := List.head?_eq_some_iff.mp hminus
    exact frames_readUnsigned _ _ _ _ _ hends h
  cases cs with
  | nil => cases h
  | cons c cs =>
    have hunsigned : ∀ more, readNumber (c :: more) = readUnsigned false (c :: more) := by
      intro more
      rw [readNumber]
      rintro _ ⟨⟩
      exact hminus rfl
    rw [List.cons_append, hunsigned]
    exact frames_readUnsigned _ _ _ _ _ hends ((hunsigned cs).symm.trans h)

/-- whether a number may start with a character -/
def startsNumber (c : Char) : Bool := c = '-' || Decimal.isDigit c

/-- A number starts with its sign or a digit. -/
theorem readNumber_head (h : readNumber cs = some (value, after)) :
    ∃ c more, cs = c :: more ∧ startsNumber c = true := by
  cases cs with
  | nil => cases h
  | cons c more =>
    refine ⟨c, more, rfl, ?_⟩
    by_cases hminus : c = '-'
    · simp [startsNumber, hminus]
    rw [readNumber] at h
    · by_cases hdigit : Decimal.isDigit c
      · simp [startsNumber, hdigit]
      · simp [readUnsigned, hdigit] at h
    · rintro _ ⟨⟩
      exact hminus rfl

end TableRecipe.Json
