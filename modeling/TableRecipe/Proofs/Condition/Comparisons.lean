import TableRecipe.Condition.Evaluate
import TableRecipe.Proofs.Outcome

/-!
# Comparisons of values

Two values that are not null have an order, with one exception: if both read as numbers and one of
them as the undefined number, which the text `nan` denotes. Where they have one, exactly one of the
three strict comparisons selects the row, and the others are what they stand for. Where they have
none, no comparison does, not even that of a cell with itself.

* `Value.Incomparable` — values without an order;
* `Value.order?_eq_none_iff`, `Value.order?_swap` — when there is none, and the order of the values
  exchanged;
* `Decimal.read?_eq_undefined_iff` — the texts that denote the undefined number;
* `Condition.comparisons_of_row` — the rows that comparisons select.
-/

namespace TableRecipe

/-! ## The undefined number -/

namespace Decimal

/-- whether a text denotes the undefined number: the letters `nan` in any case, after at most one
sign -/
def SpellsUndefined (cs : List Char) : Prop :=
  cs.map Char.toLower ∈ ["nan".toList, "-nan".toList, "+nan".toList]

instance {cs : List Char} : Decidable (SpellsUndefined cs) := inferInstanceAs (Decidable (_ ∈ _))

theorem ofScientific_ne_undefined (negative : Bool) (digits : Nat) (exponent : Int) :
    Binary64.ofScientific negative digits exponent ≠ .undefined := by
  have hratio (num den : Nat) : Binary64.ofRatio negative num den ≠ .undefined := by
    rw [Binary64.ofRatio]
    split <;> exact nofun
  rw [Binary64.ofScientific]
  split
  · exact nofun
  · split
    · exact nofun
    · split
      · exact hratio _ _
      · split
        · exact nofun
        · exact hratio _ _

/-- Digits denote no undefined number. -/
theorem unsigned?_ne_undefined (negative : Bool) (cs : List Char) :
    unsigned? negative cs ≠ some .undefined := by
  unfold unsigned?
  split
  split
  split
  · exact (Option.some_ne_none _).symm
  · dsimp only
    split
    · intro h
      exact ofScientific_ne_undefined _ _ _ (Option.some.inj h)
    · split
      · intro h
        obtain ⟨exponent, -, h⟩ := Option.map_eq_some_iff.mp h
        exact ofScientific_ne_undefined _ _ _ h
      · exact (Option.some_ne_none _).symm

/-- What follows the sign denotes the undefined number if it is its word. -/
theorem word_eq_undefined_iff (negative : Bool) (body : List Char) :
    (if String.ofList (body.map Char.toLower) = "inf" ∨
        String.ofList (body.map Char.toLower) = "infinity" then some (Binary64.infinite negative)
      else if String.ofList (body.map Char.toLower) = "nan" then some .undefined
      else unsigned? negative body) = some .undefined ↔ body.map Char.toLower = "nan".toList := by
  split
  · rename_i hinf
    refine ⟨nofun, fun h => ?_⟩
    rw [h] at hinf
    exact absurd hinf (by decide)
  · split
    · rename_i hnan
      refine ⟨fun _ => ?_, fun _ => rfl⟩
      rw [← hnan, String.toList_ofList]
    · rename_i hnan
      refine ⟨fun h => absurd h (unsigned?_ne_undefined _ _), fun h => ?_⟩
      rw [h, String.ofList_toList] at hnan
      exact absurd rfl hnan

/-- A letter is no sign, in either case. -/
theorem toLower_eq_iff {c sign : Char} (hsign : sign.toNat < 'A'.toNat) :
    c.toLower = sign ↔ c = sign := by
  unfold Char.toLower
  split
  · rename_i hupper
    have hlow : 'A'.toNat ≤ c.toNat := UInt32.le_iff_toNat_le.mp hupper.1
    constructor
    · rintro rfl
      have hhigh : c.toNat ≤ 'Z'.toNat := UInt32.le_iff_toNat_le.mp hupper.2
      have hsum : (c.val + ('a'.val - 'A'.val)).toNat = c.toNat + 32 := by
        have hsmall : c.toNat + 32 < 2 ^ 32 := by
          have hz : 'Z'.toNat = 90 := rfl
          omega
        rw [UInt32.toNat_add]
        exact Nat.mod_eq_of_lt hsmall
      have hsign : (c.val + ('a'.val - 'A'.val)).toNat < 'A'.toNat := hsign
      omega
    · rintro rfl
      omega
  · exact Iff.rfl

/-- **Texts that denote the undefined number.** -/
theorem read?_eq_undefined_iff {cs : List Char} :
    read? cs = some .undefined ↔ SpellsUndefined cs := by
  have hminus {c : Char} : c.toLower = '-' ↔ c = '-' := toLower_eq_iff (by decide)
  have hplus {c : Char} : c.toLower = '+' ↔ c = '+' := toLower_eq_iff (by decide)
  rw [read?.eq_def]
  split
  rename_i negative body hsign
  simp only [Bool.or_eq_true, decide_eq_true_eq]
  rw [word_eq_undefined_iff]
  split at hsign <;> obtain ⟨-, rfl⟩ := Prod.mk.inj hsign
  · simp [SpellsUndefined]
  · simp [SpellsUndefined]
  · rename_i hnotMinus hnotPlus
    have hbody (sign : Char) (hmark : sign = '-' ∨ sign = '+') (word : List Char) :
        cs.map Char.toLower ≠ sign :: word := by
      intro h
      obtain ⟨first, rest, rfl, hfirst, -⟩ := List.map_eq_cons_iff.mp h
      rcases hmark with rfl | rfl
      · obtain rfl := hminus.mp hfirst
        exact hnotMinus rest rfl
      · obtain rfl := hplus.mp hfirst
        exact hnotPlus rest rfl
    simp [SpellsUndefined, hbody]

end Decimal

namespace Value

variable {a b value : Value}

/-! ## Values without an order -/

/-- whether a value reads as the undefined number -/
def ReadsUndefined (value : Value) : Prop := value.toBinary64? = some .undefined

instance : Decidable value.ReadsUndefined := inferInstanceAs (Decidable (_ = _))

/-- whether two values read as numbers, one of them as the undefined one -/
def Incomparable (a b : Value) : Prop :=
  a.toBinary64?.isSome ∧ b.toBinary64?.isSome ∧ (a.ReadsUndefined ∨ b.ReadsUndefined)

instance : Decidable (Incomparable a b) := inferInstanceAs (Decidable (_ ∧ _ ∧ _))

/-- A text reads as the undefined number if it denotes it between blanks. -/
theorem readsUndefined_string_iff (text : String) :
    (string text).ReadsUndefined ↔ Decimal.SpellsUndefined (Split.trim text.toList) := by
  rw [ReadsUndefined, toBinary64?]
  split
  · rename_i hempty
    rw [List.isEmpty_iff.mp hempty]
    exact ⟨nofun, fun h => absurd h (by decide)⟩
  · exact Decimal.read?_eq_undefined_iff


/-! ## Orders -/

/-- Two values that are not null have an order unless both read as numbers and one of them as the
undefined one. -/
theorem order?_eq_none_iff (ha : a.isNull = false) (hb : b.isNull = false) :
    a.order? b = none ↔ Incomparable a b := by
  rw [order?, ha, hb, Incomparable, ReadsUndefined, ReadsUndefined]
  rcases a.toBinary64? with _ | x <;> rcases b.toBinary64? with _ | y
  · simp
  · simp
  · simp
  · cases x <;> cases y <;> simp [Binary64.compare?]

/-- The order of two values exchanged is the opposite one. -/
theorem order?_swap (a b : Value) : b.order? a = (a.order? b).map Ordering.swap := by
  have hnumbers (x y : Binary64) : y.compare? x = (x.compare? y).map Ordering.swap := by
    cases x with
    | undefined => cases y <;> rfl
    | infinite n =>
      cases y with
      | undefined => rfl
      | infinite m => exact congrArg some Std.OrientedOrd.eq_swap
      | finite m b => cases n <;> rfl
    | finite n a =>
      cases y with
      | undefined => rfl
      | infinite m => cases m <;> rfl
      | finite m b => exact congrArg some Std.OrientedOrd.eq_swap
  rw [order?, order?, Bool.or_comm]
  split
  · rfl
  · rcases a.toBinary64? with _ | x <;> rcases b.toBinary64? with _ | y
    · exact congrArg some Std.OrientedOrd.eq_swap
    · exact congrArg some Std.OrientedOrd.eq_swap
    · exact congrArg some Std.OrientedOrd.eq_swap
    · exact hnumbers x y

end Value

namespace Condition

variable {table : Table} {params : Value} {left right : Operand} {operator : Operator}
  {first second : Term} {row : Nat}

/-! ## The rows that comparisons select -/

/-- whether a comparison of two operands selects a row -/
def Selects (table : Table) (params : Value) (row : Nat) (left : Operand) (operator : Operator)
    (right : Operand) : Prop :=
  ∃ mask, (compare left operator right).mask table params = .ok mask ∧ mask[row]? = some true

/-- A row is selected if its values have an order that the comparison asks for. -/
theorem selects_iff (hleft : bindOperand table params left = .ok first)
    (hright : bindOperand table params right = .ok second) (hrow : row < table.length) :
    Selects table params row left operator right ↔
      ∃ order, (first.value (table.cell · row)).order? (second.value (table.cell · row)) =
        some order ∧ (Comparison.ofOperator operator).holds order := by
  have hbind : (compare left operator right).bind table params =
      .ok (compare first operator second) := by
    rw [bind, traverse, hleft, hright]
    rfl
  have hmask : (compare left operator right).mask table params =
      .ok ((List.range table.length).map fun row =>
        (compare first operator second).eval (table.cell · row) == some true) := by
    rw [mask, hbind]
    rfl
  rw [Selects, hmask]
  simp [hrow, eval]

/-- A cell is compared with itself unless it reads as the undefined number. -/
theorem selects_itself_iff (hleft : bindOperand table params left = .ok first)
    (hrow : row < table.length) (hfirst : (first.value (table.cell · row)).isNull = false) :
    Selects table params row left .equal left ↔
      ¬(first.value (table.cell · row)).ReadsUndefined := by
  generalize hvalue : first.value (table.cell · row) = value at hfirst ⊢
  have hnone := Value.order?_eq_none_iff hfirst hfirst
  have hswap := Value.order?_swap value value
  have hself : value.Incomparable value ↔ value.ReadsUndefined := by
    rw [Value.Incomparable, Value.ReadsUndefined]
    rcases value.toBinary64? with _ | x <;> simp
  rw [selects_iff hleft hleft hrow, hvalue, ← hself, ← hnone]
  rcases horder : value.order? value with _ | order
  · simp
  · rw [horder] at hswap
    -- an order that is its own opposite
    cases order with
    | eq => simp [Comparison.ofOperator, Comparison.holds]
    | lt => cases hswap
    | gt => cases hswap

/-- the laws of comparisons between two values that are compared if `comparable` holds; `exchanged`
are the comparisons of the values exchanged -/
structure ComparisonLaws (comparable : Prop) (selects exchanged : Operator → Prop) : Prop where
  /-- one of the values is less, or they are equal, if they are compared -/
  decided : selects .less ∨ selects .equal ∨ selects .greater ↔ comparable
  /-- no two of the strict comparisons hold -/
  exclusive : ¬(selects .less ∧ selects .equal) ∧ ¬(selects .equal ∧ selects .greater) ∧
    ¬(selects .less ∧ selects .greater)
  /-- at most is less or equal -/
  lessEqual : selects .lessEqual ↔ selects .less ∨ selects .equal
  /-- at least is greater or equal -/
  greaterEqual : selects .greaterEqual ↔ selects .greater ∨ selects .equal
  /-- unequal is not equal, if the values are compared -/
  unequal : (selects .angles ↔ ¬selects .equal) ↔ comparable
  /-- equal and unequal have a second sign each -/
  spellings : (selects .doubleEqual ↔ selects .equal) ∧ (selects .bangEqual ↔ selects .angles)
  /-- exchanging the values exchanges less and greater -/
  exchanges : (exchanged .less ↔ selects .greater) ∧ (exchanged .greater ↔ selects .less) ∧
    (exchanged .equal ↔ selects .equal)

/-- Comparisons that ask for an order obey the laws. -/
theorem comparisonLaws_of_order {comparable : Prop} {selects exchanged : Operator → Prop}
    {order : Option Ordering} (hcomparable : comparable ↔ order ≠ none)
    (hselects : ∀ operator, selects operator ↔
      ∃ found, order = some found ∧ (Comparison.ofOperator operator).holds found)
    (hexchanged : ∀ operator, exchanged operator ↔
      ∃ found, order.map Ordering.swap = some found ∧
        (Comparison.ofOperator operator).holds found) :
    ComparisonLaws comparable selects exchanged := by
  cases order with
  | none => constructor <;> simp [hcomparable, hselects, hexchanged]
  | some found =>
    cases found <;> constructor <;>
      simp [hcomparable, hselects, hexchanged, Comparison.ofOperator, Comparison.holds]

/-- **Comparisons of values.** Two operands that are not null in a row are compared there with one
exception: both read as numbers, and one of them as the undefined number. A cell is equal to itself
with the same exception; among texts, it is that of those which spell the undefined number. -/
theorem comparisons_of_row (hleft : bindOperand table params left = .ok first)
    (hright : bindOperand table params right = .ok second) (hrow : row < table.length)
    (hfirst : (first.value (table.cell · row)).isNull = false)
    (hsecond : (second.value (table.cell · row)).isNull = false) :
    ComparisonLaws
      (¬(first.value (table.cell · row)).Incomparable (second.value (table.cell · row)))
      (Selects table params row left · right) (Selects table params row right · left) ∧
    (Selects table params row left .equal left ↔
      ¬(first.value (table.cell · row)).ReadsUndefined) ∧
    ∀ text : String, (Value.string text).ReadsUndefined ↔
      Decimal.SpellsUndefined (Split.trim text.toList) := by
  refine ⟨?_, selects_itself_iff hleft hrow hfirst, Value.readsUndefined_string_iff⟩
  refine comparisonLaws_of_order ?_ (fun operator => selects_iff hleft hright hrow) ?_
  · exact not_congr (Value.order?_eq_none_iff hfirst hsecond).symm
  · intro operator
    rw [selects_iff hright hleft hrow, Value.order?_swap]

/-- names of which one denotes a number, and one the undefined number -/
def numberLikeNames : Table :=
  { columns := [⟨"name", [.string "nan", .string " 1e1"]⟩], index := [0, 1] }

theorem comparisons_of_row_numberLike :
    bindOperand numberLikeNames .null (.column "name") = .ok (.column "name") ∧
      1 < numberLikeNames.length ∧ (numberLikeNames.cell "name" 1).isNull = false ∧
      ComparisonLaws (¬(numberLikeNames.cell "name" 1).Incomparable (.ofInt 9))
        (Selects numberLikeNames .null 1 (.column "name") · (.literal (.ofInt 9)))
        (Selects numberLikeNames .null 1 (.literal (.ofInt 9)) · (.column "name")) := by
  have hleft : bindOperand numberLikeNames .null (.column "name") = .ok (.column "name") := rfl
  have hrow : 1 < numberLikeNames.length := by decide
  have hcell : (numberLikeNames.cell "name" 1).isNull = false := rfl
  have hlaws := comparisons_of_row hleft (show bindOperand numberLikeNames .null
    (.literal (.ofInt 9)) = .ok (.literal (.ofInt 9)) from rfl) hrow hcell rfl
  exact ⟨hleft, hrow, hcell, hlaws.1⟩

/-- A cell that is not null, but spells the undefined number, is not equal to itself. -/
theorem undefined_differs_from_itself :
    ∃ condition, read "name = name" = .ok condition ∧
      (numberLikeNames.cell "name" 0).isNull = false ∧
      condition.mask numberLikeNames .null = .ok [false, true] := by
  refine ⟨.compare (.column "name") .equal (.column "name"), ?_, rfl, ?_⟩
  · decide +kernel
  · decide +kernel

end Condition

end TableRecipe
