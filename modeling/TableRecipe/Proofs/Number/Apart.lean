import Mathlib.Data.List.Basic
import TableRecipe.Proofs.Number.Texts

/-!
# Texts that tell numbers apart

Different numbers have different texts. The text of a floating-point number shows digits around a
point or in front of an exponent, and these denote a quotient in the interval around this number;
no other number has it in its interval. The text of an integer shows digits alone.

* `Shortest.eq_of_contains` — a quotient lies in the interval around one number only;
* `DecimalFormat.scientific_inj` — scientific notation tells digits and exponents apart;
* `DecimalFormat.Shows` — what the text of a floating-point number shows behind its sign;
* `Number.text_inj` — the text of a number tells which number it is;
* `Number.isPart_of_mem_text` — the characters that it is made of.
-/

namespace TableRecipe

open Decimal (natural isDigit)
open Binary64 (Representable)

/-- A quotient lies in the interval around one number only. -/
theorem Shortest.eq_of_contains {units units' num den : Nat} (hden : 0 < den)
    (hunits : Representable units) (hunits' : Representable units')
    (h : (interval units).Contains num den) (h' : (interval units').Contains num den) :
    units = units' := by
  have hrounded : Binary64.ofRatio false num den = .finite false units :=
    Binary64.ofRatio_of_contains h hden hunits
  rw [Binary64.ofRatio_of_contains h' hden hunits'] at hrounded
  exact (Binary64.finite.inj hrounded).2.symm

theorem Decimal.toDigits_inj {m n : Nat} (h : Nat.toDigits 10 m = Nat.toDigits 10 n) : m = n := by
  rw [← natural_toDigits m, h, natural_toDigits]

/-! ## Digits with a point or an exponent -/

namespace DecimalFormat

open Shortest (interval power)

variable {units units' : Nat} {digits digits' whole fraction cs : List Char}
  {exponent exponent' : Int} {c : Char}

/-- a point behind the first of several digits -/
def withPoint : List Char → List Char
  | [] => []
  | [d] => [d]
  | d :: rest => d :: '.' :: rest

theorem mem_withPoint (h : c ∈ withPoint digits) : c ∈ digits ∨ c = '.' := by
  match digits with
  | [] => cases h
  | [d] => exact .inl h
  | d :: next :: rest =>
    simp only [withPoint, List.mem_cons] at h ⊢
    tauto

/-- Without the point the digits are left. -/
theorem filter_withPoint (h : ∀ c ∈ digits, isDigit c) :
    (withPoint digits).filter (· ≠ '.') = digits := by
  have hpoint : digits.filter (· ≠ '.') = digits := by
    refine List.filter_eq_self.mpr fun c hc => ?_
    have hdigit := h c hc
    rw [decide_eq_true_eq]
    rintro rfl
    cases hdigit
  match digits with
  | [] => rfl
  | [d] => exact hpoint
  | d :: next :: rest => simpa [withPoint, List.filter_cons] using hpoint

theorem scientific_eq (digits : List Char) (exponent : Int) :
    json.scientific digits exponent = withPoint digits ++
      'e' :: (if exponent < 0 then '-' else '+') :: Nat.toDigits 10 exponent.natAbs := by
  have hsign : (if exponent < 0 then ['-'] else if json.plusSign then ['+'] else []) =
      [if exponent < 0 then '-' else '+'] := by
    split <;> rfl
  unfold scientific
  rw [hsign]
  match digits with
  | [] => rfl
  | [d] => rfl
  | d :: next :: rest => simp [withPoint]

theorem not_mem_of_digits (h : ∀ c ∈ cs, isDigit c) (hc : isDigit c = false) : c ∉ cs := by
  intro hmem
  rw [h c hmem] at hc
  cases hc

/-- Scientific notation tells digits and exponents apart. -/
theorem scientific_inj (hdigits : ∀ c ∈ digits, isDigit c) (hdigits' : ∀ c ∈ digits', isDigit c)
    (h : json.scientific digits exponent = json.scientific digits' exponent') :
    digits = digits' ∧ exponent = exponent' := by
  have hfront : 'e' ∉ withPoint digits := fun hmem => by
    rcases mem_withPoint hmem with hmem | hpoint
    · exact not_mem_of_digits hdigits rfl hmem
    · exact absurd hpoint (by decide)
  have hback : 'e' ∉ (if exponent < 0 then '-' else '+') :: Nat.toDigits 10 exponent.natAbs := by
    have hwritten : 'e' ∉ Nat.toDigits 10 exponent.natAbs :=
      not_mem_of_digits (fun c hc => Decimal.isDigit_of_mem_toDigits hc) rfl
    rw [List.mem_cons, not_or]
    exact ⟨by split <;> decide, hwritten⟩
  rw [scientific_eq, scientific_eq, List.append_cons_inj_of_notMem hfront hback] at h
  obtain ⟨hpointed, -, hraised⟩ := h
  obtain ⟨hsign, hwritten⟩ := List.cons.inj hraised
  refine ⟨?_, ?_⟩
  · rw [← filter_withPoint hdigits, hpointed, filter_withPoint hdigits']
  · have habs := Decimal.toDigits_inj hwritten
    split at hsign <;> split at hsign <;> first | omega | exact absurd hsign (by decide)

/-! ## What texts show -/

/-- digits around a point that denote a number in the interval around a count of units -/
structure AroundPoint (units : Nat) (whole fraction : List Char) : Prop where
  /-- there are digits in front of the point -/
  ne_nil : whole ≠ []
  /-- all of them are digits -/
  digit : ∀ c ∈ whole ++ fraction, isDigit c
  /-- what they denote -/
  near : (interval units).Contains (natural (whole ++ fraction)) (10 ^ fraction.length)

/-- digits in front of an exponent that denote a number in the interval around a count of units -/
structure BeforeExponent (units : Nat) (digits : List Char) (exponent : Int) : Prop where
  /-- there is at least one -/
  ne_nil : digits ≠ []
  /-- all of them are digits -/
  digit : ∀ c ∈ digits, isDigit c
  /-- what they denote, their point standing behind the first one -/
  near : (interval units).Contains (natural digits * (power (exponent + 1 - digits.length)).1)
    (power (exponent + 1 - digits.length)).2

/-- what the text of a floating-point number shows behind its sign -/
def Shows (units : Nat) (cs : List Char) : Prop :=
  (∃ whole fraction, cs = whole ++ '.' :: fraction ∧ AroundPoint units whole fraction) ∨
    ∃ digits exponent, cs = json.scientific digits exponent ∧ BeforeExponent units digits exponent

theorem shows_units (hunits : Representable units) (hpos : 0 < units) :
    Shows units (json.units units) := by
  have hshown := Shortest.shown_digits hunits hpos
  rw [DecimalFormat.units]
  generalize Shortest.digits units = found at hshown ⊢
  split
  · obtain ⟨whole, fraction, htext, hpointed⟩ :=
      @pointed_positional json found.digits found.point rfl hshown.digit hshown.ne_nil
    exact .inl ⟨whole, fraction, htext, hpointed.whole_ne, hpointed.digit, hpointed.contains hshown⟩
  · refine .inr ⟨found.digits, found.point - 1, rfl, hshown.ne_nil, hshown.digit, ?_⟩
    rw [Int.sub_add_cancel]
    exact hshown.near

/-- Around zero there are digits that denote it. -/
theorem shows_zero : Shows 0 ['0', '.', '0'] := by
  refine .inl ⟨['0'], ['0'], rfl, by simp, ?_, ?_⟩
  · exact fun c hc => by simp_all [isDigit]
  · simp [Shortest.Interval.Contains, Binary64.interval_eq, Binary64.mantissa, natural,
      Decimal.digit]

/-- What is shown around a point is no scientific notation. -/
theorem AroundPoint.ne_scientific (h : AroundPoint units whole fraction) :
    whole ++ '.' :: fraction ≠ json.scientific digits exponent := by
  intro heq
  have hmem : 'e' ∈ whole ++ '.' :: fraction := heq ▸ mem_scientific
  have hnot : 'e' ∉ whole ++ fraction := not_mem_of_digits h.digit rfl
  clear heq
  simp_all

/-- What is shown tells which number it is shown for. -/
theorem Shows.unique (hunits : Representable units) (hunits' : Representable units')
    (h : Shows units cs) (h' : Shows units' cs) : units = units' := by
  obtain ⟨whole, fraction, rfl, haround⟩ | ⟨digits, exponent, rfl, hbefore⟩ := h <;>
    obtain ⟨whole', fraction', heq, haround'⟩ | ⟨digits', exponent', heq, hbefore'⟩ := h'
  · have hwhole : '.' ∉ whole := not_mem_of_digits
      (fun c hc => haround.digit c (List.mem_append_left _ hc)) rfl
    have hfraction : '.' ∉ fraction := not_mem_of_digits
      (fun c hc => haround.digit c (List.mem_append_right _ hc)) rfl
    obtain ⟨rfl, -, rfl⟩ := (List.append_cons_inj_of_notMem hwhole hfraction).mp heq
    exact Shortest.eq_of_contains (Nat.pow_pos (by omega)) hunits hunits' haround.near haround'.near
  · exact absurd heq haround.ne_scientific
  · exact absurd heq.symm haround'.ne_scientific
  · obtain ⟨rfl, rfl⟩ := scientific_inj hbefore.digit hbefore'.digit heq
    exact Shortest.eq_of_contains (Shortest.power_pos _).2 hunits hunits' hbefore.near hbefore'.near

/-- What is shown begins with a digit. -/
theorem Shows.first (h : Shows units cs) : ∃ first more, cs = first :: more ∧ isDigit first := by
  obtain ⟨whole, fraction, rfl, haround⟩ | ⟨digits, exponent, rfl, hbefore⟩ := h
  · obtain ⟨first, more, rfl⟩ := List.exists_cons_of_ne_nil haround.ne_nil
    exact ⟨first, _, rfl, haround.digit first (by simp)⟩
  · obtain ⟨first, more, rfl⟩ := List.exists_cons_of_ne_nil hbefore.ne_nil
    rw [scientific_eq]
    cases more <;> exact ⟨first, _, rfl, hbefore.digit first (by simp)⟩

/-- What is shown does not consist of digits alone. -/
theorem Shows.not_digits (h : Shows units cs) : ¬∀ c ∈ cs, isDigit c := by
  intro hall
  obtain ⟨whole, fraction, rfl, -⟩ | ⟨digits, exponent, rfl, -⟩ := h
  · exact not_mem_of_digits hall rfl (List.mem_append_right whole (List.mem_cons_self ..))
  · exact not_mem_of_digits hall rfl mem_scientific

end DecimalFormat

/-! ## Texts of numbers -/

namespace Number

open DecimalFormat (Shows)

variable {x y : Number} {c : Char} {n : Int} {value : Binary64} {negative negative' : Bool}
  {cs cs' : List Char}

/-- whether a character may stand in the text of a number -/
def isPart (c : Char) : Bool := isDigit c || c = '-' || c = '+' || c = '.' || c = 'e'

/-- A sign is told apart from what follows it. -/
theorem signedText_inj (hcs : ∀ c ∈ cs.head?, isDigit c) (hcs' : ∀ c ∈ cs'.head?, isDigit c)
    (h : signedText negative cs = signedText negative' cs') : negative = negative' ∧ cs = cs' := by
  have hsign {cs : List Char} (hcs : ∀ c ∈ cs.head?, isDigit c) (other : List Char) :
      cs ≠ '-' :: other := by
    rintro rfl
    exact absurd (hcs '-' rfl) (by decide)
  cases negative <;> cases negative'
  · exact ⟨rfl, h⟩
  · exact absurd h (hsign hcs _)
  · exact absurd h.symm (hsign hcs' _)
  · exact ⟨rfl, (List.cons.inj h).2⟩

/-- The text of a floating-point number shows it behind its sign. -/
theorem exists_shows (h : (decimal value).Valid) :
    ∃ negative units cs, value = .finite negative units ∧ Representable units ∧
      (decimal value).text = signedText negative cs ∧ Shows units cs := by
  cases value with
  | finite negative units =>
    refine ⟨negative, units, _, rfl, h, rfl, ?_⟩
    by_cases hzero : units = 0
    · rw [if_pos hzero, hzero]
      exact DecimalFormat.shows_zero
    · rw [if_neg hzero]
      exact DecimalFormat.shows_units h (Nat.pos_of_ne_zero hzero)
  | infinite negative => cases h
  | undefined => cases h

theorem toDigits_head (n : Nat) : ∀ c ∈ (Nat.toDigits 10 n).head?, isDigit c := fun _ hc =>
  Decimal.isDigit_of_mem_toDigits (List.mem_of_mem_head? hc)

theorem shows_head {units : Nat} (h : Shows units cs) : ∀ c ∈ cs.head?, isDigit c := by
  obtain ⟨first, more, rfl, hfirst⟩ := h.first
  simpa using hfirst

/-- `1` and `1.0` have different texts. -/
theorem text_integer_ne (h : (decimal value).Valid) : (integer n).text ≠ (decimal value).text := by
  obtain ⟨negative, units, cs, -, -, htext, hshows⟩ := exists_shows h
  intro heq
  rw [htext, text, textIn, integerText_eq] at heq
  obtain ⟨-, hdigits⟩ := signedText_inj (toDigits_head _) (shows_head hshows) heq
  exact hshows.not_digits fun c hc => Decimal.isDigit_of_mem_toDigits (hdigits ▸ hc)

theorem text_integer_inj {m : Int} (h : (integer n).text = (integer m).text) : n = m := by
  simp only [text, textIn, integerText_eq] at h
  obtain ⟨hsign, hdigits⟩ := signedText_inj (toDigits_head _) (toDigits_head _) h
  have habs := Decimal.toDigits_inj hdigits
  have hsame : n < 0 ↔ m < 0 := by simpa using hsign
  omega

/-- **Texts of numbers.** The text of a number that JSON knows tells which number it is, the two
zeros included. -/
theorem text_inj (hx : x.Valid) (hy : y.Valid) (h : x.text = y.text) : x = y := by
  cases x with
  | integer n =>
    cases y with
    | integer m => rw [text_integer_inj h]
    | decimal value => exact absurd h (text_integer_ne hy)
  | decimal value =>
    cases y with
    | integer m => exact absurd h.symm (text_integer_ne hx)
    | decimal value' =>
      obtain ⟨negative, units, cs, rfl, hunits, htext, hshows⟩ := exists_shows hx
      obtain ⟨negative', units', cs', rfl, hunits', htext', hshows'⟩ := exists_shows hy
      rw [htext, htext'] at h
      obtain ⟨rfl, rfl⟩ := signedText_inj (shows_head hshows) (shows_head hshows') h
      rw [hshows.unique hunits hunits' hshows']

theorem isPart_of_isDigit (h : isDigit c) : isPart c := by simp [isPart, h]

theorem isPart_of_shows {units : Nat} (h : Shows units cs) : ∀ c ∈ cs, isPart c := by
  intro c hc
  obtain ⟨whole, fraction, rfl, haround⟩ | ⟨digits, exponent, rfl, hbefore⟩ := h
  · rw [List.mem_append, List.mem_cons] at hc
    rcases hc with hc | rfl | hc
    · exact isPart_of_isDigit (haround.digit c (List.mem_append_left _ hc))
    · rfl
    · exact isPart_of_isDigit (haround.digit c (List.mem_append_right _ hc))
  · rw [DecimalFormat.scientific_eq, List.mem_append, List.mem_cons, List.mem_cons] at hc
    rcases hc with hc | rfl | rfl | hc
    · rcases DecimalFormat.mem_withPoint hc with hc | rfl
      · exact isPart_of_isDigit (hbefore.digit c hc)
      · rfl
    · rfl
    · split <;> rfl
    · exact isPart_of_isDigit (Decimal.isDigit_of_mem_toDigits hc)

theorem isPart_of_mem_signedText (h : ∀ c ∈ cs, isPart c) :
    ∀ c ∈ signedText negative cs, isPart c := by
  cases negative with
  | false => exact h
  | true => exact List.forall_mem_cons.mpr ⟨rfl, h⟩

/-- The text of a number is made of digits, signs, a point and the mark of an exponent. -/
theorem isPart_of_mem_text (h : x.Valid) : ∀ c ∈ x.text, isPart c := by
  cases x with
  | integer n =>
    rw [text, textIn, integerText_eq]
    exact isPart_of_mem_signedText fun c hc =>
      isPart_of_isDigit (Decimal.isDigit_of_mem_toDigits hc)
  | decimal value =>
    obtain ⟨negative, units, cs, -, -, htext, hshows⟩ := exists_shows h
    rw [htext]
    exact isPart_of_mem_signedText (isPart_of_shows hshows)

theorem text_ne_nil (h : x.Valid) : x.text ≠ [] := by
  cases x with
  | integer n =>
    rw [text, textIn, integerText_eq, signedText]
    exact List.append_ne_nil_of_right_ne_nil _ Nat.toDigits_ne_nil
  | decimal value =>
    obtain ⟨negative, units, cs, -, -, htext, hshows⟩ := exists_shows h
    obtain ⟨first, more, rfl, -⟩ := hshows.first
    rw [htext, signedText]
    exact List.append_ne_nil_of_right_ne_nil _ (List.cons_ne_nil _ _)

end Number

end TableRecipe
