import TableRecipe.Condition.Evaluate
import TableRecipe.Proofs.Condition.NumberTexts

/-!
# Integers in conditions

Integers are compared as floating-point numbers. So a comparison decides them as it should, unless
both are rounded to the same number: then it takes them as equal.

* `Comparison.Relates` — the six comparisons over integers;
* `Condition.Given` — the ways to give an integer to a comparison;
* `Condition.selects_integer` — the rows that a comparison with an integer selects.
-/

namespace TableRecipe

/-! ## Comparisons -/

/-- the six comparisons over integers -/
def Comparison.Relates : Comparison → Int → Int → Prop
  | equal, a, b => a = b
  | unequal, a, b => a ≠ b
  | less, a, b => a < b
  | lessEqual, a, b => a ≤ b
  | greater, a, b => a > b
  | greaterEqual, a, b => a ≥ b

theorem Comparison.holds_compare (comparison : Comparison) (a b : Int) :
    comparison.holds (compare a b) ↔ comparison.Relates a b := by
  rcases lt_trichotomy a b with hlt | rfl | hlt
  · rw [compare_lt_iff_lt.mpr hlt]
    cases comparison <;> simp [holds, Relates] <;> omega
  · rw [compare_eq_iff_eq.mpr rfl]
    cases comparison <;> simp [holds, Relates]
  · rw [compare_gt_iff_gt.mpr hlt]
    cases comparison <;> simp [holds, Relates] <;> omega

/-- Whether a comparison holds between equal integers does not depend on them. -/
theorem Comparison.relates_self (comparison : Comparison) (a b : Int) :
    comparison.Relates a a ↔ comparison.Relates b b := by
  rw [← holds_compare, ← holds_compare, compare_eq_iff_eq.mpr rfl, compare_eq_iff_eq.mpr rfl]

/-! ## Integers as operands -/

namespace Value

open Binary64 (nearest integerBound)

/-- whether a value stands for an integer wherever it is compared with one -/
def StandsFor (value : Value) (b : Int) : Prop :=
  ∀ a : Int, a.natAbs ≤ integerBound →
    (ofInt a).order? value = some (compare (nearest a) (nearest b))

variable {b : Int}

theorem order?_number (m n : Number) :
    (number m).order? (number n) = m.toBinary64.compare? n.toBinary64 := rfl

theorem standsFor_ofInt (hb : b.natAbs ≤ integerBound) : (ofInt b).StandsFor b := by
  intro a ha
  rw [ofInt, ofInt, order?_number, Number.toBinary64, Number.toBinary64]
  exact Binary64.compare?_ofInt ha hb

theorem standsFor_decimal (hb : b.natAbs ≤ integerBound) :
    (number (.decimal (.ofInt b))).StandsFor b := by
  intro a ha
  rw [ofInt, order?_number, Number.toBinary64, Number.toBinary64]
  exact Binary64.compare?_ofInt ha hb

/-- A literal stands for the integer that it is written for: what is rounded once is not rounded
again. -/
theorem standsFor_numberValue (hb : b.natAbs ≤ integerBound) :
    (Condition.numberValue (.ofInt b)).StandsFor b := by
  by_cases hsmall : Binary64.nearestWhole b.natAbs < Nat.pow 2 63
  · have hvalue : Condition.numberValue (.ofInt b) = ofInt (nearest b) := by
      rw [Binary64.ofInt_eq hb, Condition.numberValue_whole hsmall, nearest]
    have hbound : (nearest b).natAbs ≤ integerBound := by
      rw [Binary64.natAbs_nearest]
      exact hsmall.le.trans (by decide)
    rw [hvalue]
    intro a ha
    rw [standsFor_ofInt hbound a ha, Binary64.nearest_idem]
  · have hvalue : Condition.numberValue (.ofInt b) = number (.decimal (.ofInt b)) := by
      rw [Binary64.ofInt_eq hb, Condition.numberValue_great hsmall]
    rw [hvalue]
    exact standsFor_decimal hb

end Value

namespace Condition

variable {column : List Char} {name : String} {operator : Operator} {right : Operand}
  {table : Table} {params value : Value} {row : Nat} {text : List Char} {a b : Int}

/-- the ways to give an integer to a comparison: what stands on its right side, with the
parameters -/
inductive Given (b : Int) : (text : List Char) → (params : Value) → Prop where
  /-- it is written there -/
  | literal (params : Value) : Given b (Number.integerText b) params
  /-- it is the first parameter by place -/
  | positional (more : List Value) : Given b ['?'] (.list (.ofInt b :: more))
  /-- it is a parameter by name -/
  | named {name : String} {params : Value} (hname : name ≠ "")
    (hletters : ∀ c ∈ name.toList, Token.isParameter c)
    (hparams : params.field? name = some (.ofInt b)) : Given b (':' :: name.toList) params

/-- An integer that is given is an operand that stands for it. -/
theorem Given.operand (h : Given b text params) (hb : b.natAbs ≤ Binary64.integerBound)
    (hcolumn : Token.Names column name) (operator : Operator) :
    ∃ right value, read (Token.comparisonText column operator text) =
        .ok (.compare (.column name) operator right) ∧
      (∀ table, bindOperand table params right = .ok (.literal value)) ∧ value.StandsFor b := by
  have hapart : Token.Apart [] := by simp [Token.Apart]
  cases h with
  | literal params =>
    have hread := read_denotes hcolumn operator (b < 0) (Binary64.denotes_toDigits hb)
    rw [← Number.integerText_eq, ← Binary64.ofInt_eq hb] at hread
    exact ⟨_, _, hread, fun _ => rfl, Value.standsFor_numberValue hb⟩
  | positional more =>
    have hscan : Token.Scans ['?'] [.positional] :=
      Token.scans_nil.spelling (show Token.positional.Spelled from trivial) (.inr (.inr hapart))
    exact ⟨_, _, read_comparison (Token.scan_comparison hcolumn hscan) rfl, fun _ => rfl,
      Value.standsFor_ofInt hb⟩
  | @named parameter params hname hletters hparams =>
    have hscan : Token.Scans (':' :: parameter.toList) [.named parameter] := by
      have hspelled : (Token.named parameter).Spelled := ⟨hname, hletters⟩
      have hscan := Token.scans_nil.spelling hspelled (.inr (.inr hapart))
      rwa [List.append_nil] at hscan
    refine ⟨_, _, read_comparison (Token.scan_comparison hcolumn hscan) rfl, fun _ => ?_,
      Value.standsFor_ofInt hb⟩
    rw [bindOperand, hparams]

/-- A comparison selects the rows whose cells have the order that it asks for. -/
theorem mask_compare (hhas : table.has name)
    (hright : bindOperand table params right = .ok (.literal value)) :
    (compare (.column name) operator right).mask table params =
      .ok ((List.range table.length).map fun row =>
        ((table.cell name row).order? value).map (Comparison.ofOperator operator).holds ==
          some true) := by
  have hleft : bindOperand table params (.column name) = .ok (.column name) := by
    rw [bindOperand, if_pos hhas]
  have hbind : (compare (.column name) operator right).bind table params =
      .ok (compare (.column name) operator (.literal value)) := by
    rw [bind, traverse, hleft, hright]
    rfl
  rw [mask, hbind]
  rfl

/-- whether an integer has 64 bits -/
def Fits (n : Int) : Prop := Binary64.minSigned ≤ n ∧ n ≤ Binary64.maxSigned

theorem Fits.natAbs_le {n : Int} (h : Fits n) : n.natAbs ≤ Binary64.integerBound := by
  have hleast : Binary64.minSigned = -9223372036854775808 := rfl
  have hmost : Binary64.maxSigned = 9223372036854775807 := rfl
  obtain ⟨hlow, hhigh⟩ := h
  rw [Binary64.integerBound]
  omega

/-- Whether the row of an integer is selected is decided by what it and the other one are rounded
to. -/
theorem selects_nearest (hcolumn : Token.Names column name) (hhas : table.has name)
    (hrow : row < table.length) (hcell : table.cell name row = .ofInt a) (ha : Fits a)
    (hb : Fits b) (hgiven : Given b text params) (operator : Operator) :
    ∃ condition selected, read (Token.comparisonText column operator text) = .ok condition ∧
      condition.mask table params = .ok selected ∧
      (selected[row]? = some true ↔
        (Comparison.ofOperator operator).Relates (Binary64.nearest a) (Binary64.nearest b)) := by
  obtain ⟨right, value, hread, hright, hstands⟩ := hgiven.operand hb.natAbs_le hcolumn operator
  refine ⟨_, _, hread, mask_compare hhas (hright table), ?_⟩
  rw [List.getElem?_map, List.getElem?_range hrow, Option.map_some, hcell,
    hstands a ha.natAbs_le, Option.map_some, ← Comparison.holds_compare]
  simp

/-- **Integers in conditions.** A comparison of integers is decided by what both are rounded to. It
is decided as it should be if they are rounded to different numbers, or else if it holds between
them just when it holds between equal ones; so it is up to `2 ^ 53`. -/
theorem selects_integer (hcolumn : Token.Names column name) (hhas : table.has name)
    (hrow : row < table.length) (hcell : table.cell name row = .ofInt a) (ha : Fits a)
    (hb : Fits b) (hgiven : Given b text params) (operator : Operator) :
    ∃ condition selected, read (Token.comparisonText column operator text) = .ok condition ∧
      condition.mask table params = .ok selected ∧
      (selected[row]? = some true ↔
        (Comparison.ofOperator operator).Relates (Binary64.nearest a) (Binary64.nearest b)) ∧
      ((selected[row]? = some true ↔ (Comparison.ofOperator operator).Relates a b) ↔
        Binary64.nearest a ≠ Binary64.nearest b ∨
          ((Comparison.ofOperator operator).Relates a b ↔
            (Comparison.ofOperator operator).Relates b b)) ∧
      (a.natAbs ≤ Binary64.greatestExact → b.natAbs ≤ Binary64.greatestExact →
        (selected[row]? = some true ↔ (Comparison.ofOperator operator).Relates a b)) := by
  obtain ⟨condition, selected, hread, hmask, hselected⟩ :=
    selects_nearest hcolumn hhas hrow hcell ha hb hgiven operator
  refine ⟨condition, selected, hread, hmask, hselected, ?_, ?_⟩
  · rw [hselected]
    generalize Comparison.ofOperator operator = comparison
    by_cases hnearest : Binary64.nearest a = Binary64.nearest b
    · rw [hnearest, comparison.relates_self _ b]
      simp only [ne_eq, not_true_eq_false, false_or]
      exact iff_comm
    · rw [← comparison.holds_compare, Binary64.compare_nearest hnearest, comparison.holds_compare]
      simp [hnearest]
  · intro hexact hexact'
    rw [hselected, Binary64.nearest_of_le hexact, Binary64.nearest_of_le hexact']

/-- one row, with the first integer that is no floating-point number -/
def greatIdentifier : Table :=
  { columns := [⟨"id", [.ofInt 9007199254740993]⟩], index := [0] }

theorem names_id : Token.Names "id".toList "id" :=
  Token.names_plain (.inl (by decide)) (by decide +kernel) (by decide +kernel)

theorem selects_integer_greatIdentifier :
    greatIdentifier.has "id" ∧ 0 < greatIdentifier.length ∧
      greatIdentifier.cell "id" 0 = .ofInt 9007199254740993 ∧
      Fits 9007199254740993 ∧ Fits (-7) ∧ Given (-7) ['?'] (.list [.ofInt (-7)]) ∧
      ∃ condition selected, read (Token.comparisonText "id".toList .less ['?']) = .ok condition ∧
        condition.mask greatIdentifier (.list [.ofInt (-7)]) = .ok selected ∧
        (selected[0]? = some true ↔
          Comparison.less.Relates (Binary64.nearest 9007199254740993) (Binary64.nearest (-7))) ∧
        ((selected[0]? = some true ↔ Comparison.less.Relates 9007199254740993 (-7)) ↔
          Binary64.nearest 9007199254740993 ≠ Binary64.nearest (-7) ∨
            (Comparison.less.Relates 9007199254740993 (-7) ↔ Comparison.less.Relates (-7) (-7))) ∧
        ((9007199254740993 : Int).natAbs ≤ Binary64.greatestExact →
          (-7 : Int).natAbs ≤ Binary64.greatestExact →
          (selected[0]? = some true ↔ Comparison.less.Relates 9007199254740993 (-7))) := by
  have hfirst : Fits 9007199254740993 := ⟨by decide, by decide⟩
  have hsecond : Fits (-7) := ⟨by decide, by decide⟩
  have hgiven : Given (-7) ['?'] (.list [.ofInt (-7)]) := .positional []
  exact ⟨rfl, by decide, rfl, hfirst, hsecond, hgiven,
    selects_integer names_id rfl (by decide) rfl hfirst hsecond hgiven .less⟩

/-- Integers that are rounded to the same number are taken as equal. -/
theorem great_integers_taken_as_equal :
    ∃ condition selected,
      read (Token.comparisonText "id".toList .equal "9007199254740992".toList) = .ok condition ∧
      condition.mask greatIdentifier .null = .ok selected ∧ selected[0]? = some true ∧
      ¬Comparison.equal.Relates 9007199254740993 9007199254740992 := by
  have hhas : greatIdentifier.has "id" := rfl
  have hrow : 0 < greatIdentifier.length := by decide
  have hcell : greatIdentifier.cell "id" 0 = .ofInt 9007199254740993 := rfl
  have hgiven : Given 9007199254740992 "9007199254740992".toList .null := .literal .null
  obtain ⟨condition, selected, hread, hmask, hselected⟩ :=
    selects_nearest names_id hhas hrow hcell ⟨by decide, by decide⟩ ⟨by decide, by decide⟩ hgiven
      .equal
  have hnearest : Binary64.nearest 9007199254740993 = Binary64.nearest 9007199254740992 := by
    decide +kernel
  exact ⟨condition, selected, hread, hmask, hselected.mpr hnearest, by simp [Comparison.Relates]⟩

end Condition

end TableRecipe
