import Mathlib.Tactic.LinearCombination
import TableRecipe.Number
import TableRecipe.Proofs.Number.Shortest

/-!
# Texts of floating-point numbers

The text of a floating-point number that needs no exponent is read back to the number.

* `Decimal.unsigned?_point`, `Decimal.read?_point` — digits with a point denote a quotient;
* `Shortest.Shown` — what the shortest digits of a number are;
* `DecimalFormat.Pointed` — digits around a point that denote the same number;
* `Decimal.Denotes` — a text of digits and points, and the number it is read to;
* `Number.exists_denotes` — the text of a number without exponent is such a text behind its sign.
-/

namespace TableRecipe

/-! ## Digits -/

namespace Decimal

variable {whole fraction xs ys : List Char} {n : Nat}

theorem natural_append (xs ys : List Char) :
    natural (xs ++ ys) = natural xs * 10 ^ ys.length + natural ys := by
  have hfrom (n : Nat) (cs : List Char) :
      cs.foldl (fun n c => n * 10 + digit c) n = n * 10 ^ cs.length + natural cs := by
    induction cs generalizing n with
    | nil => simp [natural]
    | cons c cs ih =>
      rw [natural, List.foldl_cons, List.foldl_cons, ih, ih (0 * 10 + digit c), List.length_cons]
      ring
  rw [natural, List.foldl_append, hfrom]
  rfl

theorem natural_zeros (n : Nat) : natural (DecimalFormat.zeros n) = 0 := by
  induction n with
  | zero => rfl
  | succ n ih =>
    have hcons : DecimalFormat.zeros (n + 1) = ['0'] ++ DecimalFormat.zeros n := rfl
    rw [hcons, natural_append, ih]
    simp [natural, digit]

/-- Digits with a point in between denote what all the digits denote, divided by a power of ten. -/
theorem unsigned?_point (negative : Bool) (hwhole : whole ≠ []) (hall : ∀ c ∈ whole, isDigit c)
    (hfraction : ∀ c ∈ fraction, isDigit c) :
    unsigned? negative (whole ++ '.' :: fraction) =
      some (.ofScientific negative (natural (whole ++ fraction)) (-fraction.length)) := by
  have hspan : spanDigits (whole ++ '.' :: fraction) = (whole, '.' :: fraction) :=
    spanDigits_append hall (by simp; decide)
  have hrest : spanDigits (fraction ++ []) = (fraction, []) :=
    spanDigits_append hfraction (by simp)
  rw [List.append_nil] at hrest
  rw [unsigned?, hspan]
  simp only [hrest]
  simp [hwhole]

theorem read?_point (hwhole : whole ≠ []) (hall : ∀ c ∈ whole, isDigit c)
    (hfraction : ∀ c ∈ fraction, isDigit c) :
    read? (whole ++ '.' :: fraction) =
      some (.ofScientific false (natural (whole ++ fraction)) (-fraction.length)) := by
  obtain ⟨first, more, rfl⟩ := List.exists_cons_of_ne_nil hwhole
  rw [← unsigned?_point false hwhole hall hfraction]
  exact read?_of_digit (hall first (List.mem_cons_self ..))

end Decimal

namespace Binary64

/-- A number with more digits than places is not so small that it is cut short. -/
theorem ofScientific_neg {digits places : Nat} (hdigits : digits ≠ 0) (hplaces : 0 < places)
    (h : places ≤ Nat.log2 digits / 3 + 400) (negative : Bool) :
    ofScientific negative digits (-places) = ofRatio negative digits (10 ^ places) := by
  rw [ofScientific, if_neg hdigits, if_neg (by omega), if_neg (by omega), if_neg (by omega),
    Int.neg_neg, Int.toNat_natCast]
  rfl

/-- Digits with few places denote the number nearest to their quotient, zero included. -/
theorem ofScientific_places {places : Nat} (h : places ≤ 400) (negative : Bool) (digits : Nat) :
    ofScientific negative digits (-places) = ofRatio negative digits (10 ^ places) := by
  by_cases hdigits : digits = 0
  · rw [ofScientific, if_pos hdigits, hdigits, ofRatio_zero negative (Nat.pow_pos (by omega))]
  · rcases places.eq_zero_or_pos with rfl | hplaces
    · simp [ofScientific, hdigits]
    · exact ofScientific_neg hdigits hplaces (by omega) negative

end Binary64

/-! ## Shortest digits -/

namespace Shortest

open Decimal (natural isDigit)
open DecimalFormat (zeros)

variable {range : Interval} {units num den num' den' : Nat} {cs : List Char}

/-- Whether a quotient lies in an interval does not depend on how it is written. -/
theorem contains_congr (hden : 0 < den) (hden' : 0 < den') (heq : num' * den = num * den') :
    range.Contains num' den' ↔ range.Contains num den := by
  have hcross : num' * 4 * Binary64.one * den = num * 4 * Binary64.one * den' := by
    linear_combination 4 * Binary64.one * heq
  have hmove (n : Nat) : n * den' * den = n * den * den' := Nat.mul_right_comm ..
  have hlow (n : Nat) :
      n * den' ≤ num' * 4 * Binary64.one ↔ n * den ≤ num * 4 * Binary64.one := by
    rw [← Nat.mul_le_mul_right_iff hden, hmove, hcross, Nat.mul_le_mul_right_iff hden']
  have hhigh (n : Nat) :
      num' * 4 * Binary64.one ≤ n * den' ↔ num * 4 * Binary64.one ≤ n * den := by
    rw [← Nat.mul_le_mul_right_iff hden, hmove, hcross, Nat.mul_le_mul_right_iff hden']
  simp only [Interval.Contains, ← Nat.not_le, hlow, hhigh]

theorem dropTrailingZeros_append (cs : List Char) :
    ∃ k, dropTrailingZeros cs ++ zeros k = cs := by
  refine ⟨(cs.reverse.takeWhile (· = '0')).length, ?_⟩
  have hzeros : zeros (cs.reverse.takeWhile (· = '0')).length =
      (cs.reverse.takeWhile (· = '0')).reverse := by
    symm
    rw [zeros, List.eq_replicate_iff]
    refine ⟨List.length_reverse, fun c hc => ?_⟩
    have hall := List.all_takeWhile (p := (· = '0')) (l := cs.reverse)
    simpa using List.all_eq_true.mp hall c (List.mem_reverse.mp hc)
  rw [hzeros, dropTrailingZeros, ← List.reverse_append, List.takeWhile_append_dropWhile,
    List.reverse_reverse]

/-- what the digits of a floating-point number are -/
structure Shown (units : Nat) (found : Digits) : Prop where
  /-- they are digits -/
  digit : ∀ c ∈ found.digits, isDigit c
  /-- there is at least one -/
  ne_nil : found.digits ≠ []
  /-- the first one is not zero -/
  long : 10 ^ (found.digits.length - 1) ≤ natural found.digits
  /-- they denote a number in the interval -/
  near : (interval units).Contains
    (natural found.digits * (power (found.point - found.digits.length)).1)
    (power (found.point - found.digits.length)).2

theorem pow_le_of_toDigits {d : Nat} (h : d ≠ 0) : 10 ^ ((Nat.toDigits 10 d).length - 1) ≤ d := by
  by_cases hone : (Nat.toDigits 10 d).length - 1 = 0
  · rw [hone]
    exact Nat.pos_of_ne_zero h
  · rw [← Nat.not_lt, ← Nat.length_toDigits_le_iff (by omega) (Nat.pos_of_ne_zero hone)]
    omega

theorem shown_digits (hunits : Binary64.Representable units) (hpos : 0 < units) :
    Shown units (digits units) := by
  obtain ⟨d, place, hd, hcontains, hdigits⟩ := digits_eq hunits hpos
  obtain ⟨k, hk⟩ := dropTrailingZeros_append (Nat.toDigits 10 d)
  have hlong := pow_le_of_toDigits hd
  have hall : ∀ c ∈ Nat.toDigits 10 d, isDigit c := fun c hc => Decimal.isDigit_of_mem_toDigits hc
  have hnatural := Decimal.natural_toDigits d
  rw [hdigits]
  generalize Nat.toDigits 10 d = all at hk hlong hall hnatural ⊢
  generalize dropTrailingZeros all = kept at hk ⊢
  subst hk
  rw [Decimal.natural_append, Decimal.natural_zeros, Nat.add_zero] at hnatural
  have hlength : (zeros k).length = k := List.length_replicate
  rw [hlength] at hnatural
  subst hnatural
  have hplace : place + (kept ++ zeros k).length - kept.length = place + k := by
    rw [List.length_append, hlength]
    omega
  have hne : kept ≠ [] := by
    rintro rfl
    simp [natural] at hd
  refine ⟨fun c hc => hall c (List.mem_append_left _ hc), hne, ?_, ?_⟩
  · have hlength : (kept ++ zeros k).length - 1 = kept.length - 1 + k := by
      have hkept := List.length_pos_iff.mpr hne
      rw [List.length_append, hlength]
      omega
    rw [hlength, Nat.pow_add] at hlong
    exact Nat.le_of_mul_le_mul_right hlong (Nat.pow_pos (by omega))
  · dsimp only
    rw [hplace]
    refine (contains_congr (power_pos place).2 (power_pos _).2 ?_).mpr hcontains
    rw [Nat.mul_assoc, power_add]
    ring

end Shortest

/-! ## Digits around a point -/

namespace DecimalFormat

open Decimal (natural isDigit)
open Shortest (power Shown)

variable {format : DecimalFormat} {digits whole fraction : List Char} {point : Int} {units : Nat}

/-- digits with a point that denote the same number as the digits `digits` with the power of ten
`point` -/
structure Pointed (digits : List Char) (point : Int) (whole fraction : List Char) : Prop where
  /-- there are digits before the point -/
  whole_ne : whole ≠ []
  /-- all of them are digits -/
  digit : ∀ c ∈ whole ++ fraction, isDigit c
  /-- there are digits after the point -/
  places_pos : 0 < fraction.length
  /-- they are no more than needed -/
  places_le : (fraction.length : Int) ≤ max 1 (digits.length - point)
  /-- no digit is lost -/
  digits_le : natural digits ≤ natural (whole ++ fraction)
  /-- the number is the same -/
  value : natural (whole ++ fraction) * (power (point - digits.length)).2 =
    natural digits * (power (point - digits.length)).1 * 10 ^ fraction.length

theorem isDigit_zeros {c : Char} {n : Nat} (h : c ∈ zeros n) : isDigit c := by
  obtain rfl := (List.mem_replicate.mp h).2
  decide

/-- Before the digits of a small number there are zeros. -/
theorem pointed_small (hall : ∀ c ∈ digits, isDigit c) (hne : digits ≠ []) (hpoint : point ≤ 0) :
    Pointed digits point ['0'] (zeros (-point).toNat ++ digits) := by
  have hlength := List.length_pos_iff.mpr hne
  have hnatural : natural (['0'] ++ (zeros (-point).toNat ++ digits)) = natural digits := by
    rw [Decimal.natural_append, Decimal.natural_append, Decimal.natural_zeros]
    simp [natural, Decimal.digit]
  have hplaces : (zeros (-point).toNat ++ digits).length = (-(point - digits.length)).toNat := by
    rw [List.length_append, zeros, List.length_replicate]
    omega
  refine ⟨by simp, ?_, by omega, by omega, hnatural.ge, ?_⟩
  · intro c hc
    simp only [List.mem_append, List.mem_singleton] at hc
    obtain rfl | hc | hc := hc
    · decide
    · exact isDigit_zeros hc
    · exact hall c hc
  · rw [hnatural, hplaces, power, if_neg (by omega), Nat.mul_one]
    rfl

/-- Behind the digits of a great number there are zeros. -/
theorem pointed_great (hall : ∀ c ∈ digits, isDigit c) (hne : digits ≠ [])
    (hpoint : digits.length ≤ point) :
    Pointed digits point (digits ++ zeros (point.toNat - digits.length)) ['0'] := by
  have hplaces : (zeros (point.toNat - digits.length)).length = (point - digits.length).toNat := by
    rw [zeros, List.length_replicate]
    omega
  have hnatural : natural (digits ++ zeros (point.toNat - digits.length) ++ ['0']) =
      natural digits * 10 ^ (point - digits.length).toNat * 10 := by
    rw [Decimal.natural_append, Decimal.natural_append, Decimal.natural_zeros, hplaces]
    simp [natural, Decimal.digit]
  refine ⟨by simp [hne], ?_, by simp, by simp, ?_, ?_⟩
  · intro c hc
    simp only [List.mem_append, List.mem_singleton] at hc
    obtain (hc | hc) | rfl := hc
    · exact hall c hc
    · exact isDigit_zeros hc
    · decide
  · rw [hnatural, Nat.mul_assoc]
    exact Nat.le_mul_of_pos_right _ (Nat.mul_pos (Nat.pow_pos (by omega)) (by omega))
  · rw [hnatural, power, if_pos (by omega), Nat.mul_one]
    rfl

/-- A point may stand among the digits. -/
theorem pointed_between (hall : ∀ c ∈ digits, isDigit c) (hpos : 0 < point)
    (hpoint : point < digits.length) :
    Pointed digits point (digits.take point.toNat) (digits.drop point.toNat) := by
  have hplaces : (digits.drop point.toNat).length = (-(point - digits.length)).toNat := by
    rw [List.length_drop]
    omega
  refine ⟨?_, ?_, by omega, by omega, ?_, ?_⟩
  · rw [← List.length_pos_iff, List.length_take]
    omega
  · rwa [List.take_append_drop]
  · rw [List.take_append_drop]
  · rw [List.take_append_drop, hplaces, power, if_neg (by omega), Nat.mul_one]
    rfl

/-- Positional notation has a point. -/
theorem pointed_positional (hformat : format.pointZero) (hall : ∀ c ∈ digits, isDigit c)
    (hne : digits ≠ []) :
    ∃ whole fraction, format.positional digits point = whole ++ '.' :: fraction ∧
      Pointed digits point whole fraction := by
  rw [positional]
  by_cases hsmall : point ≤ 0
  · exact ⟨_, _, by simp [hsmall], pointed_small hall hne hsmall⟩
  · rw [if_neg hsmall]
    dsimp only
    by_cases hgreat : (digits.length : Int) ≤ point
    · refine ⟨_, _, ?_, pointed_great hall hne hgreat⟩
      rw [List.take_of_length_le (by omega), List.drop_eq_nil_of_le (by omega)]
      simp [hformat]
    · refine ⟨_, _, ?_, pointed_between hall (by omega) (by omega)⟩
      have hfraction : digits.drop point.toNat ≠ [] := by
        rw [← List.length_pos_iff, List.length_drop]
        omega
      have hwhole : point.toNat - (digits.take point.toNat).length = 0 := by
        rw [List.length_take]
        omega
      rw [hwhole, if_neg (by simpa using hfraction)]
      simp [zeros]

/-- Digits around a point denote a number in the interval as well. -/
theorem Pointed.contains {found : Shortest.Digits}
    (h : Pointed found.digits found.point whole fraction) (hshown : Shown units found) :
    (Shortest.interval units).Contains (natural (whole ++ fraction)) (10 ^ fraction.length) :=
  (Shortest.contains_congr (Shortest.power_pos _).2 (Nat.pow_pos (by omega)) h.value).mpr
    hshown.near

/-- Digits around a point are read to the number they are shown for. -/
theorem Pointed.read? {found : Shortest.Digits}
    (h : Pointed found.digits found.point whole fraction) (hshown : Shown units found)
    (hunits : Binary64.Representable units) (hpoint : -300 ≤ found.point) :
    Decimal.read? (whole ++ '.' :: fraction) = some (.finite false units) := by
  have hdigits := List.length_pos_iff.mpr hshown.ne_nil
  have hlong : 10 ^ (found.digits.length - 1) ≤ natural (whole ++ fraction) :=
    hshown.long.trans h.digits_le
  have hne : natural (whole ++ fraction) ≠ 0 :=
    Nat.ne_of_gt ((Nat.pow_pos (by omega)).trans_le hlong)
  have hlog : 3 * (found.digits.length - 1) ≤ Nat.log2 (natural (whole ++ fraction)) := by
    rw [Nat.le_log2 hne, Nat.pow_mul]
    exact (Nat.pow_le_pow_left (by omega) _).trans hlong
  have hplaces := h.places_le
  rw [Decimal.read?_point h.whole_ne (fun c hc => h.digit c (List.mem_append_left _ hc))
      (fun c hc => h.digit c (List.mem_append_right _ hc)),
    Binary64.ofScientific_neg hne h.places_pos (by omega),
    Binary64.ofRatio_of_contains (h.contains hshown) (Nat.pow_pos (by omega)) hunits]

/-- Scientific notation has an exponent. -/
theorem mem_scientific {exponent : Int} : 'e' ∈ format.scientific digits exponent := by
  unfold scientific
  exact List.mem_append_left _ (List.mem_append_right _ (List.mem_cons_self ..))

end DecimalFormat

/-! ## Texts -/

/-- a text of digits, with or without a point among them, that is read to a number -/
structure Decimal.Denotes (cs : List Char) (value : Binary64) : Prop where
  /-- it begins with a digit -/
  first : ∃ first more, cs = first :: more ∧ isDigit first
  /-- it consists of digits and points -/
  part : ∀ c ∈ cs, isDigit c ∨ c = '.'
  /-- the number it is read to -/
  read : read? cs = some value

namespace Binary64

variable {format : DecimalFormat} {units n : Nat}

/-- The digits of a whole number denote it, rounded to 53 bits. -/
theorem denotes_toDigits (h : n ≤ integerBound) :
    Decimal.Denotes (Nat.toDigits 10 n) (.finite false (nearestWhole n * one)) := by
  have hall : ∀ c ∈ Nat.toDigits 10 n, Decimal.isDigit c := fun c hc =>
    Decimal.isDigit_of_mem_toDigits hc
  obtain ⟨first, more, hdigits⟩ :=
    List.exists_cons_of_ne_nil (Nat.toDigits_ne_nil (n := n) (b := 10))
  refine ⟨⟨first, more, hdigits, hall _ (hdigits ▸ List.mem_cons_self ..)⟩,
    fun c hc => .inl (hall c hc), ?_⟩
  rw [Decimal.read?_of_digits Nat.toDigits_ne_nil hall, Decimal.natural_toDigits]
  exact congrArg some ((ofScientific_places (Nat.zero_le _) false n).trans (ofRatio_natural h))

/-- The digits of an exact whole number denote it. -/
theorem denotes_whole (h : n ≤ greatestExact) :
    Decimal.Denotes (Nat.toDigits 10 n) (.finite false (n * one)) := by
  have hdenotes := denotes_toDigits (h.trans (Nat.pow_le_pow_right (n := 2) (by omega) (by omega)))
  rwa [nearestWhole_of_le h] at hdenotes

/-- The digits of a positive number denote it, unless they are followed by an exponent. -/
theorem denotes_units (hformat : format.pointZero) (hleast : -300 ≤ format.leastPositional)
    (hunits : Representable units) (hpos : 0 < units) (hplain : 'e' ∉ format.units units) :
    Decimal.Denotes (format.units units) (.finite false units) := by
  have hshown := Shortest.shown_digits hunits hpos
  rw [DecimalFormat.units] at hplain ⊢
  generalize Shortest.digits units = found at hshown hplain ⊢
  split at hplain
  · next hrange =>
    rw [if_pos hrange]
    obtain ⟨whole, fraction, htext, hpointed⟩ :=
      DecimalFormat.pointed_positional hformat hshown.digit hshown.ne_nil
    rw [htext]
    obtain ⟨first, more, rfl⟩ := List.exists_cons_of_ne_nil hpointed.whole_ne
    refine ⟨⟨first, more ++ '.' :: fraction, rfl, hpointed.digit _ (by simp)⟩, ?_,
      hpointed.read? hshown hunits (by omega)⟩
    intro c hc
    have hdigit := hpointed.digit c
    simp only [List.mem_append, List.mem_cons] at hc hdigit
    tauto
  · exact absurd DecimalFormat.mem_scientific hplain

end Binary64

namespace Number

/-- the numbers that JSON knows: integers of 64 bits, signed or unsigned, and finite floating-point
numbers -/
def Valid : Number → Prop
  | integer n => Binary64.minSigned ≤ n ∧ n ≤ maxUnsigned
  | decimal (.finite _ units) => Binary64.Representable units
  | decimal _ => False

/-- a sign and a text without sign -/
def signedText (negative : Bool) (cs : List Char) : List Char :=
  (if negative then ['-'] else []) ++ cs

theorem integerText_eq (n : Int) :
    integerText n = signedText (n < 0) (Nat.toDigits 10 n.natAbs) := by
  by_cases h : n < 0 <;> simp [integerText, signedText, h]

theorem Valid.natAbs_le {n : Int} (h : (integer n).Valid) : n.natAbs ≤ Binary64.integerBound := by
  have hleast : Binary64.minSigned = -9223372036854775808 := rfl
  have hmost : maxUnsigned = 18446744073709551615 := rfl
  obtain ⟨hlow, hhigh⟩ := h
  rw [Binary64.integerBound]
  omega

/-- The text of a number without exponent is a text of digits behind its sign and denotes the
number, rounded to 53 bits. -/
theorem exists_denotes {x : Number} (h : x.Valid) (hplain : 'e' ∉ x.text) :
    ∃ negative cs units, x.text = signedText negative cs ∧
      Decimal.Denotes cs (.finite false units) ∧ x.toBinary64 = .finite negative units := by
  cases x with
  | integer n =>
    have hbound := h.natAbs_le
    exact ⟨n < 0, _, _, integerText_eq n, Binary64.denotes_toDigits hbound,
      Binary64.ofInt_eq hbound⟩
  | decimal value =>
    cases value with
    | finite negative units =>
      rw [text, textIn, Binary64.text] at hplain ⊢
      by_cases hzero : units = 0
      · refine ⟨negative, ['0', '.', '0'], 0, ?_, ?_, ?_⟩
        · simp [hzero, signedText, DecimalFormat.json]
        · have hpart : ∀ c ∈ ['0', '.', '0'], Decimal.isDigit c ∨ c = '.' :=
            List.forall_mem_cons.mpr ⟨.inl rfl, List.forall_mem_cons.mpr ⟨.inr rfl,
              List.forall_mem_singleton.mpr (.inl rfl)⟩⟩
          exact ⟨⟨_, _, rfl, rfl⟩, hpart, rfl⟩
        · rw [hzero]
          rfl
      · rw [if_neg hzero] at hplain ⊢
        exact ⟨negative, _, units, rfl, Binary64.denotes_units rfl (by decide) h
          (Nat.pos_of_ne_zero hzero) fun he => hplain (List.mem_append_right _ he), rfl⟩
    | infinite negative => cases h
    | undefined => cases h

end Number

end TableRecipe
