import TableRecipe.Json.Printer
import TableRecipe.Proofs.Number.Whole

/-!
# The characters of JSON texts

The compact text of a value holds no control character: those of a text are escaped, and the text
of a number is made of digits, signs, points and letters. So a control character can set texts
apart, and what is put together that way falls apart again in one way only.

* `Plain` — characters none of which is a control character;
* `Json.plain_write` — the compact text of a value is plain;
* `intercalate_inj_of_plain` — plain texts put together with a control character between them.
-/

namespace TableRecipe

variable {c : Char} {cs more : List Char}

/-- characters none of which is a control character -/
def Plain (cs : List Char) : Prop := ∀ c ∈ cs, 32 ≤ c.toNat

namespace Plain

@[simp] theorem nil : Plain [] := by simp [Plain]

@[simp] theorem cons_iff : Plain (c :: cs) ↔ 32 ≤ c.toNat ∧ Plain cs := List.forall_mem_cons

@[simp] theorem append_iff : Plain (cs ++ more) ↔ Plain cs ∧ Plain more := List.forall_mem_append

theorem of_subset (h : Plain more) (hsubset : cs ⊆ more) : Plain cs := fun c hc => h c (hsubset hc)

theorem ite {p : Prop} [Decidable p] (hcs : Plain cs) (hmore : Plain more) :
    Plain (if p then cs else more) := by
  split
  · exact hcs
  · exact hmore

end Plain

/-! ## Numbers -/

theorem plain_toDigits (n : Nat) : Plain (Nat.toDigits 10 n) := fun _ hc =>
  Decimal.forall_digit (p := (32 ≤ ·.toNat)) (by decide) (Decimal.isDigit_of_mem_toDigits hc)

theorem Shortest.plain_dropTrailingZeros {digits : List Char} (h : Plain digits) :
    Plain (dropTrailingZeros digits) :=
  h.of_subset fun _ hc =>
    List.mem_reverse.mp ((List.dropWhile_suffix _).subset (List.mem_reverse.mp hc))

theorem Shortest.plain_digits (units : Nat) : Plain (Shortest.digits units).digits := by
  -- the definition is opened as a function, since on an argument the search would be run
  have hopened : ∀ f, f = Shortest.digits → ∃ found, f units = found ∧ Plain found.digits := by
    intro f hf
    delta Shortest.digits at hf
    subst hf
    dsimp -zeta -iota only
    generalize search (interval units) (pointOf units) 18 1 = found
    rcases found with _ | ⟨d, place⟩
    · exact ⟨_, rfl, by simp⟩
    · exact ⟨_, rfl, plain_dropTrailingZeros (plain_toDigits d)⟩
  obtain ⟨found, hfound, hplain⟩ := hopened _ rfl
  exact hfound ▸ hplain

namespace DecimalFormat

variable {format : DecimalFormat} {digits : List Char}

theorem plain_zeros (n : Nat) : Plain (zeros n) := by
  intro c hc
  rw [List.eq_of_mem_replicate hc]
  decide

theorem plain_positional (h : Plain digits) (point : Int) :
    Plain (format.positional digits point) := by
  have htake (n : Nat) : Plain (digits.take n) := h.of_subset (List.take_subset _ _)
  have hdrop (n : Nat) : Plain (digits.drop n) := h.of_subset (List.drop_subset _ _)
  refine .ite ?_ (.ite ?_ ?_)
  · simp [plain_zeros, h]
  · simp [plain_zeros, htake, Plain.ite]
  · simp [plain_zeros, htake, hdrop]

theorem plain_scientific (h : Plain digits) (exponent : Int) :
    Plain (format.scientific digits exponent) := by
  have hsign : Plain (if exponent < 0 then ['-'] else if format.plusSign then ['+'] else []) :=
    .ite (by simp) (.ite (by simp) .nil)
  have hrest : Plain ('e' :: (if exponent < 0 then ['-'] else if format.plusSign then ['+'] else []) ++
      Nat.toDigits 10 exponent.natAbs) := by
    simp [hsign, plain_toDigits]
  unfold scientific
  simp only [List.append_assoc]
  refine Plain.append_iff.mpr ⟨?_, hrest⟩
  -- a point may stand behind the first digit
  split
  · exact h
  · exact h
  · simpa using h

theorem plain_units (units : Nat) : Plain (format.units units) := by
  rw [DecimalFormat.units]
  have hdigits := Shortest.plain_digits units
  generalize Shortest.digits units = found at hdigits ⊢
  exact .ite (plain_positional hdigits _) (plain_scientific hdigits _)

end DecimalFormat

theorem Binary64.plain_text (format : DecimalFormat) (x : Binary64) : Plain (x.text format) := by
  cases x with
  | finite negative units =>
    exact Plain.append_iff.mpr ⟨.ite (by simp) .nil,
      .ite (.ite (by simp) (by simp)) (DecimalFormat.plain_units units)⟩
  | infinite negative => exact Plain.ite (by simp) (by simp)
  | undefined => simp [Binary64.text]

theorem Number.plain_text (number : Number) : Plain number.text := by
  cases number with
  | integer n =>
    exact Plain.ite (Plain.cons_iff.mpr ⟨by decide, plain_toDigits _⟩) (plain_toDigits _)
  | decimal x => exact Binary64.plain_text _ x

/-! ## Values -/

namespace Json

theorem plain_hexDigit {n : Nat} (h : n < 16) : 32 ≤ (hexDigit n).toNat := by
  have hdigits : ∀ n < 16, 32 ≤ (hexDigit n).toNat := by decide
  exact hdigits n h

/-- What is not escaped is no control character. -/
theorem plain_escape (c : Char) : Plain (escape c) := by
  rw [escape]
  iterate 7 refine Plain.ite (by simp) ?_
  split
  · rename_i hcontrol
    have hhigh := plain_hexDigit (n := c.toNat / 16) (by omega)
    have hlow := plain_hexDigit (n := c.toNat % 16) (by omega)
    simp [hhigh, hlow]
  · simpa using ‹¬ c.toNat < 32›

theorem plain_quote (text : String) : Plain (quote text) := by
  have hinside : Plain (text.toList.flatMap escape) := fun c hc => by
    obtain ⟨d, -, hd⟩ := List.mem_flatMap.mp hc
    exact plain_escape d c hd
  simp [quote, hinside]

mutual
theorem plain_write : (value : Value) → Plain (write value)
  | .null | .bool true | .bool false => by simp [write]
  | .number n => n.plain_text
  | .string text => plain_quote text
  | .list items => by simp [write, plain_writeItems items]
  | .object entries => by simp [write, plain_writeEntries entries]
theorem plain_writeItems : (items : List Value) → Plain (writeItems items)
  | [] => .nil
  | [item] => plain_write item
  | item :: next :: rest => by
    simp [writeItems, plain_write item, plain_writeItems (next :: rest)]
theorem plain_writeEntries : (entries : List (String × Value)) → Plain (writeEntries entries)
  | [] => .nil
  | [(name, value)] => by simp [writeEntries, plain_quote, plain_write value]
  | (name, value) :: next :: rest => by
    simp [writeEntries, plain_quote, plain_write value, plain_writeEntries (next :: rest)]
end

end Json

theorem Value.plain_key (value : Value) : Plain value.key.toList := by
  rw [Value.key, Value.json, String.toList_ofList]
  exact Json.plain_write value

/-! ## Texts put together -/

/-- Plain texts, at least one of them, with a control character between them fall apart in one way
only. -/
theorem intercalate_inj_of_plain {left right : List String} (hcontrol : c.toNat < 32)
    (hleft : ∀ text ∈ left, Plain text.toList) (hright : ∀ text ∈ right, Plain text.toList)
    (hne : left ≠ []) (hne' : right ≠ []) :
    (String.singleton c).intercalate left = (String.singleton c).intercalate right ↔
      left = right := by
  refine ⟨fun h => ?_, congrArg _⟩
  have hsplit {texts : List String} (hplain : ∀ text ∈ texts, Plain text.toList)
      (hne : texts ≠ []) :
      (((String.singleton c).intercalate texts).toList.splitOn c) = texts.map String.toList := by
    rw [String.toList_intercalate, String.toList_singleton]
    refine List.splitOn_intercalate c ?_ (by simpa using hne)
    intro chars hchars hmem
    obtain ⟨text, htext, rfl⟩ := List.mem_map.mp hchars
    have hplain := hplain text htext c hmem
    omega
  have hlists : left.map String.toList = right.map String.toList := by
    rw [← hsplit hleft hne, h, hsplit hright hne']
  exact (List.map_inj_right fun _ _ => String.toList_inj.mp).mp hlists

end TableRecipe
