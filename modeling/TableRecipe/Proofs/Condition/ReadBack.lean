import TableRecipe.Condition.Parser
import TableRecipe.Proofs.Condition.Written
import TableRecipe.Proofs.Outcome

/-!
# Reading back what is written

A condition is read from its own text. Each reader is followed on the words of a condition with
arbitrary words behind them; those that join conditions are left in the middle of their work, with
the condition read so far, since more may be joined to it.

* `Condition.readOperand_tokens`, `Condition.readTail_among`, … — the readers of simple conditions;
* `Condition.ReadByNot`, `Condition.ReadByAnd`, `Condition.ReadByOr` — what is read at each level;
* `Condition.readBack` — every condition is read at every level;
* `Condition.read_text` — every condition is read from its text.
-/

namespace TableRecipe.Condition

open Operand

variable {α β : Type} {operand : Operand} {items : List Operand} {tokens rest : List Token}
  {slot fuel : Nat} {c : Condition Operand}

/-! ## Readers -/

theorem run_bind_of_ok {x : Reader α} {f : α → Reader β} {a : α} {s s' : Rest}
    (h : x.run s = .ok (a, s')) : (x >>= f).run s = (f a).run s' := by
  rw [StateT.run_bind, h]
  rfl

namespace Reader

theorem peek_run : peek.run ⟨tokens, slot⟩ = .ok (tokens.head?, ⟨tokens, slot⟩) := rfl

theorem get_run {s : Rest} : (get : Reader Rest).run s = .ok (s, s) := rfl

theorem next_run (token : Token) :
    next.run ⟨token :: rest, slot⟩ = .ok (some token, ⟨rest, slot⟩) := rfl

/-- A word that comes next is taken. -/
theorem ite_take_hit {token : Token} {x y : Reader α} :
    StateT.run (do if ← take token then x else y) ⟨token :: rest, slot⟩ = x.run ⟨rest, slot⟩ := by
  simp [take]

/-- A word that does not come next is not taken. -/
theorem ite_take_miss {token : Token} {x y : Reader α} (h : tokens.head? ≠ some token) :
    StateT.run (do if ← take token then x else y) ⟨tokens, slot⟩ = y.run ⟨tokens, slot⟩ := by
  simp [take, h]

theorem expectKeyword_run (keyword : Keyword) :
    (expectKeyword keyword).run ⟨.word keyword :: rest, slot⟩ = .ok ((), ⟨rest, slot⟩) := by
  simp [expectKeyword, take]

theorem expect_run (token : Token) :
    (expect token).run ⟨token :: rest, slot⟩ = .ok ((), ⟨rest, slot⟩) := by
  rw [expect, run_bind_of_ok (next_run _)]
  simp

end Reader

/-! ## Reading operands -/

/-- A whole number below `2 ^ 63` is an integer. -/
theorem numberValue_whole {n : Nat} (h : n < Nat.pow 2 63) (negative : Bool) :
    numberValue (.finite negative (n * Binary64.one)) = .ofInt (Binary64.signed negative n) := by
  rw [numberValue, Binary64.isWhole_whole, Binary64.isBelow_whole h, Binary64.truncate_whole h]
  rfl

/-- An operand is read from its words. -/
theorem readOperand_tokens (hwritable : operand.Writable) (hnumbered : Numbered slot [operand]) :
    readOperand.run ⟨operand.tokens ++ rest, slot⟩ =
      .ok (operand, ⟨rest, after slot [operand]⟩) := by
  cases operand with
  | column name => rfl
  | named name => rfl
  | positional place =>
    obtain rfl : place = slot := by simpa [Numbered, places, place?] using hnumbered
    rfl
  | literal value =>
    cases value with
    | null => rfl
    | bool flag => cases flag <;> rfl
    | string text => rfl
    | list items => cases hwritable
    | object entries => cases hwritable
    | number number =>
      cases number with
      | decimal value => cases hwritable
      | integer n =>
        rw [Operand.tokens]
        by_cases hn : n < 0
        · have hback : Binary64.signed true n.natAbs = n := by
            rw [Binary64.signed, if_pos rfl]
            omega
          rw [if_pos hn, readOperand, List.cons_append, run_bind_of_ok (Reader.next_run _)]
          dsimp only
          rw [List.cons_append, run_bind_of_ok (Reader.next_run _)]
          dsimp only
          rw [Binary64.negate, Bool.not_false,
            numberValue_whole (Binary64.lt_of_exact hwritable), hback]
          rfl
        · have hback : Binary64.signed false n.natAbs = n := by
            rw [Binary64.signed, if_neg Bool.false_ne_true]
            omega
          rw [if_neg hn, readOperand, List.cons_append, run_bind_of_ok (Reader.next_run _)]
          dsimp only
          rw [numberValue_whole (Binary64.lt_of_exact hwritable), hback]
          rfl

/-- An operand starts neither with a parenthesis nor with `NOT`. -/
theorem head_tokens (hwritable : operand.Writable) :
    ∃ first more, operand.tokens = first :: more ∧ first ≠ .openParen ∧ first ≠ .word .not := by
  cases operand with
  | literal value =>
    cases value with
    | bool flag => cases flag <;> exact ⟨_, _, rfl, by simp, by simp⟩
    | number number =>
      cases number with
      | decimal value => cases hwritable
      | integer n =>
        rw [Operand.tokens]
        split <;> exact ⟨_, _, rfl, by simp, by simp⟩
    | list items => cases hwritable
    | object entries => cases hwritable
    | null => exact ⟨_, _, rfl, by simp, by simp⟩
    | string text => exact ⟨_, _, rfl, by simp, by simp⟩
  | _ => exact ⟨_, _, rfl, by simp, by simp⟩

/-- The operands of a list after the first are read up to what is no comma. -/
theorem readMore_tokens (hwritable : ∀ operand ∈ items, operand.Writable)
    (hnumbered : Numbered slot items) (hfuel : items.length ≤ fuel)
    (hrest : rest.head? ≠ some .comma) :
    (readMore fuel).run ⟨(items.flatMap fun item => .comma :: item.tokens) ++ rest, slot⟩ =
      .ok (items, ⟨rest, after slot items⟩) := by
  induction items generalizing slot fuel with
  | nil =>
    cases fuel with
    | zero => rfl
    | succ fuel =>
      rw [List.flatMap_nil, List.nil_append, readMore, Reader.ite_take_miss hrest]
      rfl
  | cons item more ih =>
    obtain ⟨hfirst, hmore⟩ := List.forall_mem_cons.mp hwritable
    obtain ⟨hplace, hplaces⟩ := numbered_cons.mp hnumbered
    cases fuel with
    | zero => cases hfuel
    | succ fuel =>
      rw [List.flatMap_cons, List.cons_append, List.cons_append, List.append_assoc, readMore,
        Reader.ite_take_hit, run_bind_of_ok (readOperand_tokens hfirst hplace),
        run_bind_of_ok (ih hmore hplaces (Nat.le_of_succ_le_succ hfuel)), ← after_cons]
      rfl

/-! ## Reading simple conditions -/

/-- whether words can follow a condition -/
def Ends (rest : List Token) : Prop :=
  ∀ token ∈ rest.head?, token = .word .or ∨ token = .word .and ∨ token = .closeParen

theorem readTail_compare {left right : Operand} {operator : Operator} (hwritable : right.Writable)
    (hnumbered : Numbered slot [right]) :
    (readTail left).run ⟨.sign operator :: (right.tokens ++ rest), slot⟩ =
      .ok (.compare left operator right, ⟨rest, after slot [right]⟩) := by
  rw [readTail, run_bind_of_ok Reader.peek_run]
  dsimp only [List.head?_cons]
  rw [run_bind_of_ok (Reader.next_run _), run_bind_of_ok (readOperand_tokens hwritable hnumbered)]
  rfl

theorem readTail_isNull {value : Operand} {negated : Bool} :
    (readTail value).run ⟨.word .is :: (denial negated ++ .word .null :: rest), slot⟩ =
      .ok (.isNull value negated, ⟨rest, slot⟩) := by
  cases negated <;> rfl

theorem readTail_like {value pattern : Operand} {negated : Bool} (hwritable : pattern.Writable)
    (hnumbered : Numbered slot [pattern]) :
    (readTail value).run ⟨denial negated ++ .word .like :: (pattern.tokens ++ rest), slot⟩ =
      .ok (.like value pattern negated, ⟨rest, after slot [pattern]⟩) := by
  have hlike (tokens : List Token) :
      (readTail value).run ⟨denial negated ++ .word .like :: tokens, slot⟩ =
        StateT.run (do return .like value (← readOperand) negated) ⟨tokens, slot⟩ := by
    cases negated <;> rfl
  rw [hlike, run_bind_of_ok (readOperand_tokens hwritable hnumbered)]
  rfl

theorem readTail_between {value low high : Operand} {negated : Bool} (hlow : low.Writable)
    (hhigh : high.Writable) (hnumbered : Numbered slot [low, high]) :
    (readTail value).run ⟨denial negated ++
        .word .between :: (low.tokens ++ .word .and :: (high.tokens ++ rest)), slot⟩ =
      .ok (.between value low high negated, ⟨rest, after slot [low, high]⟩) := by
  obtain ⟨hfirst, hsecond⟩ := numbered_cons.mp hnumbered
  have hbetween (tokens : List Token) :
      (readTail value).run ⟨denial negated ++ .word .between :: tokens, slot⟩ =
        StateT.run (do
          let low ← readOperand
          Reader.expectKeyword .and
          return .between value low (← readOperand) negated) ⟨tokens, slot⟩ := by
    cases negated <;> rfl
  rw [hbetween, run_bind_of_ok (readOperand_tokens hlow hfirst),
    run_bind_of_ok (Reader.expectKeyword_run _), run_bind_of_ok (readOperand_tokens hhigh hsecond),
    ← after_cons]
  rfl

/-- A list has no more operands than words. -/
theorem length_le_words (items : List Operand) :
    items.length ≤ (items.flatMap fun item => .comma :: item.tokens).length := by
  induction items with
  | nil => rfl
  | cons item more ih =>
    rw [List.flatMap_cons, List.length_append, List.length_cons, List.length_cons]
    omega

theorem readTail_among {value : Operand} {negated : Bool} (hne : items ≠ [])
    (hwritable : ∀ item ∈ items, item.Writable) (hnumbered : Numbered slot items) :
    (readTail value).run ⟨denial negated ++
        .word .among :: .openParen :: (separated items ++ .closeParen :: rest), slot⟩ =
      .ok (.among value items negated, ⟨rest, after slot items⟩) := by
  obtain ⟨first, more, rfl⟩ := List.exists_cons_of_ne_nil hne
  obtain ⟨hfirst, hmore⟩ := List.forall_mem_cons.mp hwritable
  obtain ⟨hplace, hplaces⟩ := numbered_cons.mp hnumbered
  have hamong (tokens : List Token) :
      (readTail value).run ⟨denial negated ++ .word .among :: .openParen :: tokens, slot⟩ =
        StateT.run (do
          let first ← readOperand
          let more ← readMore (← get).tokens.length
          Reader.expect .closeParen
          return .among value (first :: more) negated) ⟨tokens, slot⟩ := by
    cases negated <;> rfl
  rw [hamong, separated, List.append_assoc, run_bind_of_ok (readOperand_tokens hfirst hplace)]
  have hfuel : more.length ≤
      ((more.flatMap fun item => .comma :: item.tokens) ++ .closeParen :: rest).length := by
    rw [List.length_append]
    exact Nat.le_add_right_of_le (length_le_words more)
  rw [run_bind_of_ok Reader.get_run, run_bind_of_ok (readMore_tokens hmore hplaces hfuel (by simp)),
    run_bind_of_ok (Reader.expect_run _), ← after_cons]
  rfl

theorem readTail_truth {value : Operand} (h : Ends rest) :
    (readTail value).run ⟨rest, slot⟩ = .ok (.truth value, ⟨rest, slot⟩) := by
  cases rest with
  | nil => rfl
  | cons token more =>
    obtain rfl | rfl | rfl := h token rfl <;> rfl

/-- Where an operand stands, it is read before what follows it. -/
theorem readNot_operand (hwritable : operand.Writable) (hnumbered : Numbered slot [operand])
    (hfuel : 2 ≤ fuel) :
    (readNot fuel).run ⟨operand.tokens ++ rest, slot⟩ =
      (readTail operand).run ⟨rest, after slot [operand]⟩ := by
  obtain ⟨first, more, hfirst, hparen, hnot⟩ := head_tokens hwritable
  obtain ⟨fuel, rfl⟩ := Nat.exists_eq_add_of_le' hfuel
  have hhead (token : Token) (h : first ≠ token) :
      (operand.tokens ++ rest).head? ≠ some token := by
    simpa [hfirst] using h
  rw [readNot, Reader.ite_take_miss (hhead _ hnot), readSimple,
    Reader.ite_take_miss (hhead _ hparen), run_bind_of_ok (readOperand_tokens hwritable hnumbered)]

/-! ## Reading conditions -/

/-- where neither `OR` nor `AND` may stand, the condition is read back -/
def ReadByNot (c : Condition Operand) : Prop :=
  ∀ ⦃slot rest fuel⦄, c.Writable slot → Ends rest → 3 * (c.written 2).length ≤ fuel →
    (readNot fuel).run ⟨c.written 2 ++ rest, slot⟩ = .ok (c, ⟨rest, after slot c.operands⟩)

/-- where `AND` may stand, the condition is read back as the first one to join; `left` is the fuel
for the others -/
def ReadByAnd (c : Condition Operand) : Prop :=
  ∀ ⦃slot rest fuel⦄, c.Writable slot → Ends rest → 3 * (c.written 1).length + 2 ≤ fuel →
    ∃ left, fuel ≤ left + (c.written 1).length + 1 ∧
      (readAnd fuel).run ⟨c.written 1 ++ rest, slot⟩ =
        (readAnds left c).run ⟨rest, after slot c.operands⟩

/-- where `OR` may stand, the condition is read back as the first one to join -/
def ReadByOr (c : Condition Operand) : Prop :=
  ∀ ⦃slot rest fuel⦄, c.Writable slot → Ends rest → rest.head? ≠ some (.word .and) →
    3 * (c.written 0).length + 3 ≤ fuel →
    ∃ left, fuel ≤ left + (c.written 0).length + 1 ∧
      (readOr fuel).run ⟨c.written 0 ++ rest, slot⟩ =
        (readOrs left c).run ⟨rest, after slot c.operands⟩

theorem readAnds_end (hrest : rest.head? ≠ some (.word .and)) (hfuel : 0 < fuel) :
    (readAnds fuel c).run ⟨rest, slot⟩ = .ok (c, ⟨rest, slot⟩) := by
  obtain ⟨fuel, rfl⟩ := Nat.exists_eq_add_of_lt hfuel
  rw [readAnds, Reader.ite_take_miss hrest]
  rfl

theorem readOrs_end (hrest : rest.head? ≠ some (.word .or)) (hfuel : 0 < fuel) :
    (readOrs fuel c).run ⟨rest, slot⟩ = .ok (c, ⟨rest, slot⟩) := by
  obtain ⟨fuel, rfl⟩ := Nat.exists_eq_add_of_lt hfuel
  rw [readOrs, Reader.ite_take_miss hrest]
  rfl

/-- Where no `AND` follows, the condition is all that is read. -/
theorem ReadByAnd.whole (h : ReadByAnd c) (hwritable : c.Writable slot) (hends : Ends rest)
    (hrest : rest.head? ≠ some (.word .and)) (hfuel : 3 * (c.written 1).length + 2 ≤ fuel) :
    (readAnd fuel).run ⟨c.written 1 ++ rest, slot⟩ = .ok (c, ⟨rest, after slot c.operands⟩) := by
  obtain ⟨left, hleft, hread⟩ := h hwritable hends hfuel
  rw [hread, readAnds_end hrest (by omega)]

/-- Where neither `AND` nor `OR` follows, the condition is all that is read. -/
theorem ReadByOr.whole (h : ReadByOr c) (hwritable : c.Writable slot) (hends : Ends rest)
    (hand : rest.head? ≠ some (.word .and)) (hor : rest.head? ≠ some (.word .or))
    (hfuel : 3 * (c.written 0).length + 3 ≤ fuel) :
    (readOr fuel).run ⟨c.written 0 ++ rest, slot⟩ = .ok (c, ⟨rest, after slot c.operands⟩) := by
  obtain ⟨left, hleft, hread⟩ := h hwritable hends hand hfuel
  rw [hread, readOrs_end hor (by omega)]

/-- What `NOT` may stand before is the first of conditions that `AND` joins. -/
theorem ReadByNot.byAnd (h : ReadByNot c) (hwritten : c.written 1 = c.written 2) :
    ReadByAnd c := by
  intro slot rest fuel hwritable hends hfuel
  rw [hwritten] at hfuel ⊢
  obtain ⟨fuel, rfl⟩ := Nat.exists_eq_add_of_le' (show 1 ≤ fuel by omega)
  refine ⟨fuel, by omega, ?_⟩
  rw [readAnd, run_bind_of_ok (h hwritable hends (by omega))]

/-- What `AND` joins is the first of conditions that `OR` joins. -/
theorem ReadByAnd.byOr (h : ReadByAnd c) (hwritten : c.written 0 = c.written 1) :
    ReadByOr c := by
  intro slot rest fuel hwritable hends hrest hfuel
  rw [hwritten] at hfuel ⊢
  obtain ⟨fuel, rfl⟩ := Nat.exists_eq_add_of_le' (show 1 ≤ fuel by omega)
  refine ⟨fuel, by omega, ?_⟩
  rw [readOr, run_bind_of_ok (h.whole hwritable hends hrest (by omega))]

/-- Parentheses hide what they enclose. -/
theorem ReadByOr.byNot (h : ReadByOr c)
    (hwritten : c.written 2 = .openParen :: (c.written 0 ++ [.closeParen])) : ReadByNot c := by
  intro slot rest fuel hwritable hends hfuel
  rw [hwritten] at hfuel ⊢
  simp only [List.length_cons, List.length_append, List.length_nil] at hfuel
  obtain ⟨fuel, rfl⟩ := Nat.exists_eq_add_of_le' (show 2 ≤ fuel by omega)
  have hinner : (readOr fuel).run ⟨c.written 0 ++ .closeParen :: rest, slot⟩ =
      .ok (c, ⟨.closeParen :: rest, after slot c.operands⟩) :=
    h.whole hwritable (by simp [Ends]) (by simp) (by simp) (by omega)
  rw [List.cons_append, List.append_assoc, List.singleton_append, readNot,
    Reader.ite_take_miss (by simp), readSimple, Reader.ite_take_hit, run_bind_of_ok hinner,
    run_bind_of_ok (Reader.expect_run _)]
  rfl

/-- A condition that is joined by `OR` is read after those before it. -/
theorem readByOr_or {left right : Condition Operand} (hleft : ReadByOr left)
    (hright : ReadByAnd right) : ReadByOr (or left right) := by
  intro slot rest fuel hwritable hends hrest hfuel
  obtain ⟨hfirst, hsecond⟩ := hwritable.parts
  have hwritten : (or left right).written 0 = left.written 0 ++ .word .or :: right.written 1 := rfl
  rw [hwritten] at hfuel ⊢
  simp only [List.length_append, List.length_cons] at hfuel ⊢
  have hor : Ends (.word .or :: (right.written 1 ++ rest)) := by simp [Ends]
  obtain ⟨more, hmore, hread⟩ := hleft hfirst hor (by simp) (show _ ≤ fuel by omega)
  obtain ⟨more, rfl⟩ := Nat.exists_eq_add_of_le' (show 1 ≤ more by omega)
  refine ⟨more, by omega, ?_⟩
  rw [List.append_assoc, List.cons_append, hread, readOrs, Reader.ite_take_hit,
    run_bind_of_ok (hright.whole hsecond hends hrest (by omega)), ← after_append]
  rfl

/-- A condition that is joined by `AND` is read after those before it. -/
theorem readByAnd_and {left right : Condition Operand} (hleft : ReadByAnd left)
    (hright : ReadByNot right) : ReadByAnd (and left right) := by
  intro slot rest fuel hwritable hends hfuel
  obtain ⟨hfirst, hsecond⟩ := hwritable.parts_and
  have hwritten :
      (and left right).written 1 = left.written 1 ++ .word .and :: right.written 2 := rfl
  rw [hwritten] at hfuel ⊢
  simp only [List.length_append, List.length_cons] at hfuel ⊢
  have hand : Ends (.word .and :: (right.written 2 ++ rest)) := by simp [Ends]
  obtain ⟨more, hmore, hread⟩ := hleft hfirst hand (show _ ≤ fuel by omega)
  obtain ⟨more, rfl⟩ := Nat.exists_eq_add_of_le' (show 1 ≤ more by omega)
  refine ⟨more, by omega, ?_⟩
  rw [List.append_assoc, List.cons_append, hread, readAnds, Reader.ite_take_hit,
    run_bind_of_ok (hright hsecond hends (by omega)), ← after_append]
  rfl

theorem readByNot_not {inner : Condition Operand} (h : ReadByNot inner) :
    ReadByNot (not inner) := by
  intro slot rest fuel hwritable hends hfuel
  have hinner : inner.Writable slot := ⟨hwritable.operands, hwritable.items, hwritable.numbered⟩
  have hwritten : (not inner).written 2 = .word .not :: inner.written 2 := rfl
  rw [hwritten] at hfuel ⊢
  rw [List.length_cons] at hfuel
  obtain ⟨fuel, rfl⟩ := Nat.exists_eq_add_of_le' (show 1 ≤ fuel by omega)
  rw [List.cons_append, readNot, Reader.ite_take_hit, run_bind_of_ok (h hinner hends (by omega))]
  rfl

/-- how a condition is read back at each level -/
structure ReadBack (c : Condition Operand) : Prop where
  /-- where neither `OR` nor `AND` may stand -/
  byNot : ReadByNot c
  /-- where `AND` may stand -/
  byAnd : ReadByAnd c
  /-- where `OR` may stand -/
  byOr : ReadByOr c

/-- A condition that joins no others is written alike at every level. -/
theorem readBack_of_unjoined (h : ReadByNot c) (hwritten : ∀ level, c.written level = c.written 2) :
    ReadBack c :=
  have hand := h.byAnd (hwritten 1)
  ⟨h, hand, hand.byOr ((hwritten 0).trans (hwritten 1).symm)⟩

/-- A simple condition is read back if what follows its first operand is. -/
theorem readBack_of_tail {tail : List Token}
    (hwritten : ∀ level, c.written level = operand.tokens ++ tail)
    (hoperands : c.operands = operand :: items)
    (htail : ∀ {slot rest}, Ends rest → (∀ item ∈ items, item.Writable) → c.HasItems →
      Numbered slot items → (readTail operand).run ⟨tail ++ rest, slot⟩ =
        .ok (c, ⟨rest, after slot items⟩)) : ReadBack c := by
  refine readBack_of_unjoined ?_ fun level => (hwritten level).trans (hwritten 2).symm
  intro slot rest fuel hwritable hends hfuel
  obtain ⟨hall, hitems, hnumbered⟩ := hwritable
  rw [hoperands] at hall hnumbered ⊢
  obtain ⟨hfirst, hmore⟩ := List.forall_mem_cons.mp hall
  obtain ⟨hplace, hplaces⟩ := numbered_cons.mp hnumbered
  obtain ⟨first, more, htokens, -, -⟩ := head_tokens hfirst
  have hpositive : 0 < (c.written 2).length := by simp [hwritten, htokens]
  rw [hwritten, List.append_assoc, readNot_operand hfirst hplace (by omega),
    htail hends hmore hitems hplaces, ← after_cons]

/-- Every condition is read back at every level. -/
theorem readBack (c : Condition Operand) : ReadBack c := by
  induction c with
  -- what is joined on the left is read at the same level, what is joined on the right at the next
  | or left right hleft hright =>
    have hor := readByOr_or hleft.byOr hright.byAnd
    have hnot := hor.byNot rfl
    exact ⟨hnot, hnot.byAnd rfl, hor⟩
  | and left right hleft hright =>
    have hand := readByAnd_and hleft.byAnd hright.byNot
    have hor := hand.byOr rfl
    exact ⟨hor.byNot rfl, hand, hor⟩
  | not inner h => exact readBack_of_unjoined (readByNot_not h.byNot) fun _ => rfl
  | compare left operator right =>
    refine readBack_of_tail (fun _ => rfl) rfl ?_
    intro slot rest hends hwritable _ hnumbered
    exact readTail_compare (hwritable _ (List.mem_cons_self ..)) hnumbered
  | among value items negated =>
    refine readBack_of_tail (fun _ => rfl) rfl ?_
    intro slot rest hends hwritable hitems hnumbered
    simpa using readTail_among hitems hwritable hnumbered
  | like value pattern negated =>
    refine readBack_of_tail (fun _ => rfl) rfl ?_
    intro slot rest hends hwritable _ hnumbered
    simpa using readTail_like (hwritable _ (List.mem_cons_self ..)) hnumbered
  | between value low high negated =>
    refine readBack_of_tail (fun _ => rfl) rfl ?_
    intro slot rest hends hwritable _ hnumbered
    simpa using readTail_between (hwritable low (by simp)) (hwritable high (by simp)) hnumbered
  | isNull value negated =>
    refine readBack_of_tail (fun _ => rfl) rfl ?_
    intro slot rest hends _ _ _
    rw [List.cons_append, List.append_assoc]
    exact readTail_isNull
  | truth value =>
    refine readBack_of_tail (fun _ => (List.append_nil _).symm) rfl ?_
    intro slot rest hends _ _ _
    exact readTail_truth hends

/-! ## Reading texts -/

theorem written_ne_nil (hwritable : c.Writable slot) (level : Nat) : c.written level ≠ [] := by
  cases c with
  | or left right => cases hneeded : decide (0 < level) <;> simp [written, enclosed, hneeded]
  | and left right => cases hneeded : decide (1 < level) <;> simp [written, enclosed, hneeded]
  | truth value =>
    obtain ⟨first, more, htokens, -, -⟩ :=
      head_tokens (hwritable.operands value (List.mem_singleton_self _))
    simp [written, htokens]
  | _ => simp [written]

/-- **Texts of conditions.** Every condition that can be written is read from its text. -/
theorem read_text (h : c.Writable 0) : read c.text = .ok c := by
  have hscan : Token.scan c.text = .ok (c.written 0) :=
    Token.scan_layout (spelled_written h.operands 0)
  have hread : (readOr (6 * (c.written 0).length + 6)).run ⟨c.written 0, 0⟩ =
      .ok (c, ⟨[], after 0 c.operands⟩) := by
    have hends : Ends [] := nofun
    have hall := (readBack c).byOr.whole h hends (by simp) (by simp)
      (show _ ≤ 6 * (c.written 0).length + 6 by omega)
    rwa [List.append_nil] at hall
  have hwords : (c.written 0).isEmpty = false := by simpa using written_ne_nil h 0
  rw [read]
  refine bind_eq_ok.mpr ⟨c.written 0, hscan, ?_⟩
  simp only [hwords, Bool.false_eq_true, if_false]
  exact bind_eq_ok.mpr ⟨_, hread, rfl⟩

/-- a condition with parentheses on either side, quotes in a name and in a text, and parameters of
both kinds -/
def mixed : Condition Operand :=
  and
    (or (compare (.column "a\"") .equal (.literal (.ofInt (-5))))
      (among (.named "p") [.literal (.string "it's"), .positional 0] true))
    (not (and (between (.positional 1) (.column "c") (.literal (.ofInt 7)) false)
      (truth (.literal (.bool true)))))

theorem read_text_mixed : mixed.Writable 0 ∧ read mixed.text = .ok mixed := by
  have hmixed : mixed.Writable 0 := {
    operands := by
      simp [mixed, operands, Operand.Writable, Value.ofInt]
      decide
    items := by simp [mixed, HasItems]
    numbered := rfl }
  exact ⟨hmixed, read_text hmixed⟩

example : mixed.text =
    "(\"a\"\"\" = -5 OR :p NOT IN ('it''s', ?)) AND NOT (? BETWEEN \"c\" AND 7 AND TRUE)" := by
  decide +kernel

end TableRecipe.Condition
