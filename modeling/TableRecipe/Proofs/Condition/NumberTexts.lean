import TableRecipe.Proofs.Condition.ReadBack
import TableRecipe.Proofs.Number.Texts

/-!
# Numbers in conditions

The text of a number that needs no exponent is an operand of a condition, and denotes the number as
long as a floating-point number does. Only the kind of a number may change: whole numbers below
`2 ^ 63` are integers, all others floating-point numbers.

* `Number.Exact`, `Number.inCondition` — which numbers keep their value, and what becomes of them;
* `Token.Names`, `Token.comparisonText` — a column compared with what a text says;
* `Condition.read_comparison` — reading such a text;
* `Condition.read_number_text` — numbers as operands.
-/

namespace TableRecipe

/-! ## Values -/

namespace Number

/-- the exact value of a number in units of `2 ^ -1074` -/
def units : Number → Int
  | integer n => n * Binary64.one
  | decimal (.finite negative units) => Binary64.signed negative units
  | decimal _ => 0

theorem units_integer (n : Int) : (integer n).units = n * Binary64.one := rfl

theorem units_finite (negative : Bool) (u : Nat) :
    (decimal (.finite negative u)).units = Binary64.signed negative u := rfl

/-- whether a floating-point number has the value of a number -/
def Exact (x : Number) : Prop := (decimal x.toBinary64).units = x.units

/-- what a number is inside a condition: an integer if it is whole and less than `2 ^ 63` in
magnitude, and a floating-point number else -/
def inCondition : Number → Number
  | integer n => if n.natAbs < Nat.pow 2 63 then integer n else decimal (.ofInt n)
  | decimal x => if x.isWhole && x.isBelow (Nat.pow 2 63) then integer x.truncate else decimal x

variable {x : Number} {n : Int}

/-- An exact integer is not rounded. -/
theorem nearestWhole_of_exact (h : (integer n).Valid) (hexact : (integer n).Exact) :
    Binary64.nearestWhole n.natAbs = n.natAbs := by
  rw [Exact, toBinary64, Binary64.ofInt_eq h.natAbs_le] at hexact
  have hmagnitude := congrArg Int.natAbs hexact
  rw [units_finite, units_integer, Binary64.natAbs_signed, Int.natAbs_mul,
    Int.natAbs_natCast] at hmagnitude
  exact Nat.eq_of_mul_eq_mul_right Binary64.one_pos hmagnitude

/-- A floating-point number without a fraction is a multiple of one. -/
theorem exists_whole {negative : Bool} {u limit : Nat}
    (hwhole : (Binary64.finite negative u).isWhole)
    (hbelow : (Binary64.finite negative u).isBelow limit) :
    ∃ k < limit, u = k * Binary64.one := by
  simp only [Binary64.isWhole, Binary64.isBelow, decide_eq_true_eq] at hwhole hbelow
  obtain ⟨k, hk⟩ := Nat.dvd_of_mod_eq_zero hwhole
  rw [Nat.mul_comm] at hk
  rw [hk] at hbelow
  exact ⟨k, Nat.lt_of_mul_lt_mul_right hbelow, hk⟩

/-- Inside a condition an exact number keeps its value. -/
theorem units_inCondition (h : x.Valid) (hexact : x.Exact) : x.inCondition.units = x.units := by
  cases x with
  | integer n =>
    rw [inCondition]
    split
    · rfl
    · exact hexact
  | decimal value =>
    cases value with
    | finite negative u =>
      rw [inCondition]
      split
      · next hcondition =>
        obtain ⟨hwhole, hbelow⟩ := Bool.and_eq_true_iff.mp hcondition
        obtain ⟨k, hk, hu⟩ := exists_whole hwhole hbelow
        rw [hu, Binary64.truncate_whole hk, units_finite, units_integer, Binary64.signed_mul]
      · rfl
    | infinite negative => cases h
    | undefined => cases h

end Number

/-! ## Words -/

namespace Token

variable {column cs rest : List Char} {first : Char} {name : String} {tokens : List Token}
  {operator : Operator}

/-- whether a text is the name of a column, whatever stands behind it -/
def Names (cs : List Char) (name : String) : Prop :=
  ∀ whole rest, Apart rest → ∃ first more, cs = first :: more ∧
    readOne whole first (more ++ rest) = .ok (some (.column name), rest)

/-- Every name can stand in quotes. -/
theorem names_quoted (name : String) : Names (quoted '"' name) name := by
  intro whole rest hapart
  have hspelled : (column name).Spelled := trivial
  exact readOne_spelling whole hspelled (.inr (.inr hapart))

theorem isWordStart_of_letter (h : Letter.isAsciiLetter first ∨ first = '_') :
    IsWordStart first ∧ first ≠ '.' ∧ Letter.isAsciiDigit first = false ∧
      (Letter.isAlphabetic first || decide (first = '_')) = true := by
  have hall : ∀ n < 128, Letter.isAsciiLetter (Char.ofNat n) ∨ Char.ofNat n = '_' →
      IsWordStart (Char.ofNat n) ∧ Char.ofNat n ≠ '.' ∧
        Letter.isAsciiDigit (Char.ofNat n) = false ∧
        (Letter.isAlphabetic (Char.ofNat n) || decide (Char.ofNat n = '_')) = true := by
    decide +kernel
  have hascii : first.toNat < 128 := by
    obtain h | rfl := h
    · simp only [Letter.isAsciiLetter, Bool.or_eq_true, Bool.and_eq_true, decide_eq_true_eq,
        Char.le_def, UInt32.le_iff_toNat_le] at h
      have hz : 'z'.val.toNat = 122 := rfl
      have hZ : 'Z'.val.toNat = 90 := rfl
      have hval : first.val.toNat = first.toNat := rfl
      omega
    · decide
  simpa [Char.ofNat_toNat] using hall first.toNat hascii (by simpa [Char.ofNat_toNat] using h)

/-- A name that is a plain word can stand by itself. -/
theorem names_plain {more : List Char} (hfirst : Letter.isAsciiLetter first ∨ first = '_')
    (hparts : (first :: more).all isWordPart)
    (hkeyword : Keyword.ofWord? (first :: more) = none) :
    Names (first :: more) (String.ofList (first :: more)) := by
  intro whole rest hapart
  obtain ⟨hstart, hpoint, hdigit, hletter⟩ := isWordStart_of_letter hfirst
  obtain ⟨htake, hdrop⟩ := hapart.span (List.all_eq_true.mp hparts) (by decide +kernel)
  have hbang : first ≠ '!' := fun e => hstart.2 (by simp [e])
  refine ⟨first, more, rfl, ?_⟩
  rw [readOne_plain hstart.1, readPlain, hstart.readOperator?, startsNumber_eq hpoint]
  simp only [hbang, hdigit, hletter, if_false, Bool.false_eq_true, if_true]
  rw [← List.cons_append, htake, hdrop, hkeyword]

/-- a column compared with what a text says -/
def comparisonText (column : List Char) (operator : Operator) (right : List Char) : String :=
  String.ofList (column ++ ' ' :: (operator.text.toList ++ ' ' :: right))

theorem scan_comparison (hcolumn : Names column name) (h : Scans cs tokens) :
    scan (comparisonText column operator cs) =
      .ok (.column name :: .sign operator :: tokens) := by
  have happart (cs : List Char) : Apart (' ' :: cs) := by simp [Apart]
  have hspelled : (sign operator).Spelled := trivial
  have hoperator : Scans (operator.text.toList ++ ' ' :: cs) (.sign operator :: tokens) :=
    h.blank.spelling hspelled (.inr (.inr (happart _)))
  have hall := hoperator.blank.word fun whole => hcolumn whole _ (happart _)
  rw [scan, comparisonText, String.toList_ofList]
  exact hall _ _ (Nat.lt_succ_self _)

end Token

/-! ## Reading -/

namespace Condition

variable {column cs : List Char} {name text : String} {tokens : List Token} {operator : Operator}
  {right : Operand} {slot units : Nat}

/-- A column, an operator and an operand are a comparison. -/
theorem read_comparison
    (hscan : Token.scan text = .ok (.column name :: .sign operator :: tokens))
    (hright : readOperand.run ⟨tokens, 0⟩ = .ok (right, ⟨[], slot⟩)) :
    read text = .ok (.compare (.column name) operator right) := by
  have hcolumn : (Operand.column name).Writable := trivial
  have htail : (readTail (.column name)).run ⟨.sign operator :: tokens, 0⟩ =
      .ok (.compare (.column name) operator right, ⟨[], slot⟩) := by
    rw [readTail, run_bind_of_ok Reader.peek_run]
    dsimp only [List.head?_cons]
    rw [run_bind_of_ok (Reader.next_run _), run_bind_of_ok hright]
    rfl
  have hand (fuel : Nat) :
      (readAnd (fuel + 3)).run ⟨.column name :: .sign operator :: tokens, 0⟩ =
        .ok (.compare (.column name) operator right, ⟨[], slot⟩) := by
    have hnot : (readNot (fuel + 2)).run ⟨.column name :: .sign operator :: tokens, 0⟩ =
        .ok (.compare (.column name) operator right, ⟨[], slot⟩) :=
      (readNot_operand hcolumn rfl (Nat.le_add_left 2 fuel)).trans htail
    rw [readAnd, run_bind_of_ok hnot, readAnds_end (by simp) (by omega)]
  have hread (fuel : Nat) :
      (readOr (fuel + 4)).run ⟨.column name :: .sign operator :: tokens, 0⟩ =
        .ok (.compare (.column name) operator right, ⟨[], slot⟩) := by
    rw [readOr, run_bind_of_ok (hand fuel), readOrs_end (by simp) (by omega)]
  rw [read]
  refine bind_eq_ok.mpr ⟨_, hscan, ?_⟩
  simp only [List.isEmpty_cons, Bool.false_eq_true, if_false]
  exact bind_eq_ok.mpr ⟨_, hread _, rfl⟩

/-- A text of digits behind its sign is a literal. -/
theorem read_denotes (hcolumn : Token.Names column name) (operator : Operator) (negative : Bool)
    (hdenotes : Decimal.Denotes cs (.finite false units)) :
    read (Token.comparisonText column operator (Number.signedText negative cs)) =
      .ok (.compare (.column name) operator (.literal (numberValue (.finite negative units)))) := by
  have hnumber : Token.Scans cs [.number (.finite false units)] := by
    simpa using Token.scans_nil.number hdenotes (by simp [Token.Apart])
  cases negative with
  | false => exact read_comparison (Token.scan_comparison hcolumn hnumber) rfl
  | true =>
    have hspelled : Token.minus.Spelled := trivial
    have hminus := hnumber.spelling hspelled (.inr (.inl rfl))
    exact read_comparison (Token.scan_comparison hcolumn hminus) rfl

/-- The text of a number without exponent is a literal: the number rounded to 53 bits. -/
theorem read_number {x : Number} (hcolumn : Token.Names column name) (h : x.Valid)
    (hplain : 'e' ∉ x.text) (operator : Operator) :
    read (Token.comparisonText column operator x.text) =
      .ok (.compare (.column name) operator (.literal (numberValue x.toBinary64))) := by
  obtain ⟨negative, cs, units, htext, hdenotes, hvalue⟩ := Number.exists_denotes h hplain
  rw [htext, hvalue, read_denotes hcolumn operator negative hdenotes]

/-- A whole number from `2 ^ 63` on stays a floating-point number. -/
theorem numberValue_great {n : Nat} (h : ¬n < Nat.pow 2 63) (negative : Bool) :
    numberValue (.finite negative (n * Binary64.one)) =
      .number (.decimal (.finite negative (n * Binary64.one))) := by
  have hbelow : (Binary64.finite negative (n * Binary64.one)).isBelow (Nat.pow 2 63) = false := by
    simpa [Binary64.isBelow] using Nat.mul_le_mul_right Binary64.one (Nat.le_of_not_lt h)
  rw [numberValue, hbelow, Bool.and_false]
  rfl

theorem numberValue_exact {x : Number} (h : x.Valid) (hexact : x.Exact) :
    numberValue x.toBinary64 = .number x.inCondition := by
  cases x with
  | integer n =>
    rw [Number.inCondition, Number.toBinary64, Binary64.ofInt_eq h.natAbs_le,
      Number.nearestWhole_of_exact h hexact]
    split
    · next hsmall =>
      rw [numberValue_whole hsmall, Binary64.signed_natAbs]
      rfl
    · next hgreat => exact numberValue_great hgreat _
  | decimal value =>
    cases value with
    | finite negative units =>
      rw [Number.toBinary64, numberValue, Number.inCondition]
      split <;> rfl
    | infinite negative => cases h
    | undefined => cases h

theorem numberValue_finite (negative : Bool) (units : Nat) :
    ∃ y, numberValue (.finite negative units) = .number y := by
  rw [numberValue]
  split
  · exact ⟨_, rfl⟩
  · exact ⟨_, rfl⟩

/-- **Numbers in conditions.** The text of a number without exponent is an operand. If a
floating-point number has the value of the number, so has the operand: it is the number itself, but
for the kind of whole numbers. -/
theorem read_number_text {x : Number} (hcolumn : Token.Names column name) (h : x.Valid)
    (hplain : 'e' ∉ x.text) (operator : Operator) :
    ∃ y : Number, read (Token.comparisonText column operator x.text) =
        .ok (.compare (.column name) operator (.literal (.number y))) ∧
      (x.Exact → y = x.inCondition ∧ y.units = x.units) := by
  have hread := read_number hcolumn h hplain operator
  by_cases hexact : x.Exact
  · rw [numberValue_exact h hexact] at hread
    exact ⟨_, hread, fun _ => ⟨rfl, Number.units_inCondition h hexact⟩⟩
  · obtain ⟨negative, cs, units, -, -, hvalue⟩ := Number.exists_denotes h hplain
    obtain ⟨y, hy⟩ := numberValue_finite negative units
    rw [hvalue, hy] at hread
    exact ⟨y, hread, fun hnot => absurd hnot hexact⟩

/-- two and a half below zero -/
def minusTwoAndHalf : Number := .decimal (.finite true (5 * Nat.pow 2 1073))

theorem read_number_text_fraction :
    minusTwoAndHalf.text = "-2.5".toList ∧ minusTwoAndHalf.Valid ∧ minusTwoAndHalf.Exact ∧
      ∃ y : Number, read (Token.comparisonText (Token.quoted '"' "unit price") .less
          minusTwoAndHalf.text) =
          .ok (.compare (.column "unit price") .less (.literal (.number y))) ∧
        (minusTwoAndHalf.Exact →
          y = minusTwoAndHalf.inCondition ∧ y.units = minusTwoAndHalf.units) := by
  have hvalid : minusTwoAndHalf.Valid := ⟨by decide +kernel, by decide +kernel⟩
  exact ⟨by decide +kernel, hvalid, rfl,
    read_number_text (Token.names_quoted _) hvalid (by decide +kernel) .less⟩

/-- A whole number with a point is read as an integer. -/
theorem not_forall_read_itself :
    ¬∀ x : Number, x.Valid →
      read (Token.comparisonText "price".toList .equal x.text) =
        .ok (.compare (.column "price") .equal (.literal (.number x))) := by
  intro hall
  have hvalid : (Number.decimal (.finite false (1 * Binary64.one))).Valid :=
    ⟨by decide +kernel, by decide +kernel⟩
  have hcolumn : Token.Names "price".toList "price" :=
    Token.names_plain (.inl (by decide)) (by decide +kernel) (by decide +kernel)
  have hitself := hall _ hvalid
  rw [read_number hcolumn hvalid (by decide +kernel), Number.toBinary64,
    numberValue_whole (by decide)] at hitself
  cases hitself

end Condition

end TableRecipe
