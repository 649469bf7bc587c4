import TableRecipe.Proofs.Condition.EnclosedWords
import TableRecipe.Proofs.Condition.FilledLists
import TableRecipe.Proofs.Condition.ReadBack

/-!
# Texts joined by `AND`

Two texts that write conditions, put in parentheses and joined by `AND`, write the condition that
joins the two. A condition is read from the same words in front of a closing parenthesis, since
nothing looks for a closing parenthesis but what must find one.

* `Condition.readOperand_words` — what an operand is read from;
* `Condition.Reader.Adds`, `Condition.countsPlaces` — parameters by place are counted;
* `Condition.Reader.Closed`, `Condition.readsClosed` — conditions in front of a closing
  parenthesis;
* `Condition.read_joined` — what two texts joined by `AND` write.
-/

namespace TableRecipe.Condition

open Operand Reader

variable {α β : Type} {operand : Operand} {known items : List Operand}
  {tokens rest : List Token} {slot slot' fuel fuel' : Nat}

/-- What an operand was read from is all that its reading depends on. -/
theorem readOperand_words (h : readOperand.run ⟨tokens, slot⟩ = .ok (operand, ⟨rest, slot'⟩)) :
    slot' = after slot [operand] ∧ ∃ first words, tokens = first :: (words ++ rest) ∧
      ∀ others, readOperand.run ⟨first :: (words ++ others), slot⟩ =
        .ok (operand, ⟨others, slot'⟩) := by
  cases tokens with
  | nil => cases h
  | cons first more =>
    cases first with
    | minus =>
      cases more with
      | nil => cases h
      | cons second more =>
        cases second with
        | number value =>
          cases h
          refine ⟨?_, _, [.number value], rfl, fun _ => rfl⟩
          simp [numberValue, after, places, place?]
        | _ => cases h
    | word keyword =>
      cases keyword with
      | null | truth | falsity =>
        cases h
        exact ⟨rfl, _, [], rfl, fun _ => rfl⟩
      | _ => cases h
    | column | literal | number | positional | named =>
      cases h
      exact ⟨by simp [after, places, place?], _, [], rfl, fun _ => rfl⟩
    | _ => cases h

/-! ## Parameters by place -/

namespace Reader

/-- whether a reader finds operands behind those known, and counts the parameters by place among
them -/
def Adds (known : List Operand) (operands : α → List Operand) (x : Reader α) : Prop :=
  ∀ s, Returns (fun found => ∃ more, operands found.1 = known ++ more ∧
    found.2.slot = after s.slot more) (x.run s)

namespace Adds

variable {before : β → List Operand} {operands : α → List Operand}

theorem pure {a : α} (h : operands a = known) : Adds known operands (Pure.pure a) :=
  fun _ => Returns.pure ⟨[], by simpa using h, rfl⟩

theorem throw {e : Error} : Adds known operands (MonadExcept.throw e) := fun _ => Returns.throw

theorem bind {x : Reader β} {f : β → Reader α} (hx : Adds known before x)
    (hf : ∀ b, Adds (before b) operands (f b)) : Adds known operands (x >>= f) := by
  intro s
  rw [StateT.run_bind]
  refine Returns.bind fun found hfound => ?_
  obtain ⟨first, hfirst, hslot⟩ := hx s found hfound
  intro last hlast
  obtain ⟨second, hsecond, hslot'⟩ := hf found.1 found.2 last hlast
  refine ⟨first ++ second, ?_, ?_⟩
  · rw [hsecond, hfirst, List.append_assoc]
  · rw [hslot', hslot, after_append]

/-- What is found behind nothing is found behind what is known. -/
theorem behind {x : Reader α} (h : Adds [] operands x) (known : List Operand) :
    Adds known (fun a => known ++ operands a) x := by
  intro s found hfound
  obtain ⟨more, hmore, hslot⟩ := h s found hfound
  exact ⟨more, congrArg _ hmore, hslot⟩

theorem ite {p : Prop} [Decidable p] {x y : Reader α} (hx : Adds known operands x)
    (hy : Adds known operands y) : Adds known operands (if p then x else y) := by
  split
  · exact hx
  · exact hy

end Adds

/-- whether a reader finds no operands -/
def Still (x : Reader β) : Prop := ∀ s, Returns (·.2.slot = s.slot) (x.run s)

/-- Readers that find no operands leave the count alone. -/
theorem Still.bind {operands : α → List Operand} {x : Reader β} {f : β → Reader α} (hx : Still x)
    (hf : ∀ b, Adds known operands (f b)) : Adds known operands (x >>= f) := by
  have hknown : Adds known (fun _ => known) x :=
    fun s found hfound => ⟨[], (List.append_nil _).symm, hx s found hfound⟩
  exact hknown.bind hf

theorem still_peek : Still peek := fun _ => .pure rfl

theorem still_get : Still (get : Reader Rest) := fun _ => .pure rfl

theorem still_next : Still next := fun _ => .pure rfl

theorem still_take (token : Token) : Still (take token) := by
  intro s
  rw [take, run_bind_of_ok get_run]
  split <;> exact .pure rfl

theorem still_expectKeyword (keyword : Keyword) : Still (expectKeyword keyword) := by
  intro s
  rw [expectKeyword, StateT.run_bind]
  refine .bind fun found hfound => ?_
  have hslot := still_take _ s found hfound
  cases found.1
  · exact .throw
  · exact .pure hslot

theorem still_expect (token : Token) : Still (expect token) := by
  intro s
  rw [expect, StateT.run_bind]
  refine .bind fun found hfound => ?_
  have hslot := still_next s found hfound
  split
  · exact .throw
  · exact .pure hslot

end Reader

theorem adds_readOperand : Adds [] (fun operand => [operand]) readOperand :=
  fun _ _ hfound => ⟨_, rfl, (readOperand_words hfound).1⟩

theorem adds_readMore (fuel : Nat) : Adds [] id (readMore fuel) := by
  induction fuel with
  | zero => exact .pure rfl
  | succ fuel ih =>
    refine (still_take _).bind fun found => .ite ?_ (.pure rfl)
    exact adds_readOperand.bind fun item => (ih.behind [item]).bind fun _ => .pure rfl

theorem adds_readTail (operand : Operand) : Adds [operand] operands (readTail operand) := by
  have hoperand (known : List Operand) : Adds known (fun item => known ++ [item]) readOperand :=
    adds_readOperand.behind known
  refine still_peek.bind fun found => ?_
  split
  · exact still_next.bind fun _ => (hoperand _).bind fun _ => .pure rfl
  · refine (still_take _).bind fun isNext => .ite ?_ ?_
    · exact (still_take _).bind fun _ => (still_expectKeyword _).bind fun _ => .pure rfl
    refine (still_take _).bind fun negated => (still_take _).bind fun among => .ite ?_ ?_
    · refine (still_expect _).bind fun _ => (hoperand _).bind fun first => ?_
      refine still_get.bind fun _ => ?_
      exact ((adds_readMore _).behind _).bind fun _ => (still_expect _).bind fun _ => .pure rfl
    refine (still_take _).bind fun like => .ite ((hoperand _).bind fun _ => .pure rfl) ?_
    refine (still_take _).bind fun between => .ite ?_ (.ite .throw (.pure rfl))
    exact (hoperand _).bind fun low => (still_expectKeyword _).bind fun _ =>
      (hoperand _).bind fun high => .pure rfl

/-- the parameters by place in what is read at any level are counted -/
structure CountsPlaces (fuel : Nat) : Prop where
  /-- where `OR` may stand -/
  byOr : Adds [] operands (readOr fuel)
  /-- after `OR` -/
  byOrs : ∀ left : Condition Operand, Adds left.operands operands (readOrs fuel left)
  /-- where `AND` may stand -/
  byAnd : Adds [] operands (readAnd fuel)
  /-- after `AND` -/
  byAnds : ∀ left : Condition Operand, Adds left.operands operands (readAnds fuel left)
  /-- where `NOT` may stand -/
  byNot : Adds [] operands (readNot fuel)
  /-- where neither may stand -/
  simple : Adds [] operands (readSimple fuel)

theorem countsPlaces (fuel : Nat) : CountsPlaces fuel := by
  induction fuel with
  | zero => exact ⟨.throw, fun _ => .throw, .throw, fun _ => .throw, .throw, .throw⟩
  | succ fuel ih =>
    refine ⟨ih.byAnd.bind ih.byOrs, fun left => ?_, ih.byNot.bind ih.byAnds, fun left => ?_, ?_, ?_⟩
    · refine (still_take _).bind fun _ => .ite ?_ (.pure rfl)
      exact (ih.byAnd.behind _).bind fun right => ih.byOrs (.or left right)
    · refine (still_take _).bind fun _ => .ite ?_ (.pure rfl)
      exact (ih.byNot.behind _).bind fun right => ih.byAnds (.and left right)
    · exact (still_take _).bind fun _ => .ite (ih.byNot.bind fun _ => .pure rfl) ih.simple
    · refine (still_take _).bind fun _ => .ite ?_ (adds_readOperand.bind adds_readTail)
      exact ih.byOr.bind fun inner => (still_expect _).bind fun _ => .pure rfl

/-! ## Reading before a closing parenthesis -/

namespace Reader

/-- whether the second reader reads before a closing parenthesis what the first one reads where the
words end -/
def Closed (x y : Reader α) : Prop :=
  ∀ ⦃tokens slot a rest slot'⦄, x.run ⟨tokens, slot⟩ = .ok (a, ⟨rest, slot'⟩) → ∀ more,
    y.run ⟨tokens ++ .closeParen :: more, slot⟩ = .ok (a, ⟨rest ++ .closeParen :: more, slot'⟩)

namespace Closed

variable {x y : Reader β} {f g : β → Reader α}

theorem pure {a : α} : Closed (Pure.pure a) (Pure.pure a) := by
  intro tokens slot b rest slot' h more
  cases h
  rfl

theorem throw {e : Error} {y : Reader α} : Closed (MonadExcept.throw e) y := by
  intro tokens slot b rest slot' h
  cases h

theorem bind (hx : Closed x y) (hf : ∀ b, Closed (f b) (g b)) : Closed (x >>= f) (y >>= g) := by
  intro tokens slot a rest slot' h more
  rw [StateT.run_bind] at h
  obtain ⟨⟨b, middle⟩, hb, ha⟩ := bind_eq_ok.mp h
  rw [run_bind_of_ok (hx hb more)]
  exact hf b ha more

theorem ite {p : Prop} [Decidable p] {x x' y y' : Reader α} (hx : Closed x x') (hy : Closed y y') :
    Closed (if p then x else y) (if p then x' else y') := by
  split
  · exact hx
  · exact hy

/-- A closing parenthesis is not taken for another word. -/
theorem take {token : Token} (htoken : token ≠ .closeParen) :
    Closed (take token) (take token) := by
  intro tokens slot a rest slot' h more
  cases tokens with
  | nil =>
    cases h
    simp [Reader.take, htoken.symm]
  | cons first others =>
    by_cases hfirst : first = token
    · have hrun (others : List Token) :
          (Reader.take token).run ⟨first :: others, slot⟩ = .ok (true, ⟨others, slot⟩) := by
        simp [Reader.take, hfirst]
      rw [hrun] at h
      cases h
      exact hrun _
    · have hrun (others : List Token) :
          (Reader.take token).run ⟨first :: others, slot⟩ =
            .ok (false, ⟨first :: others, slot⟩) := by
        simp [Reader.take, hfirst]
      rw [hrun] at h
      cases h
      exact hrun _

theorem expectKeyword (keyword : Keyword) :
    Closed (expectKeyword keyword) (expectKeyword keyword) :=
  .bind (.take nofun) fun _ => .ite .throw .pure

/-- What must come next is a word before the parenthesis. -/
theorem expect (token : Token) : Closed (expect token) (expect token) := by
  intro tokens slot a rest slot' h more
  cases tokens with
  | nil => cases h
  | cons first others =>
    by_cases hfirst : first = token
    · subst hfirst
      rw [expect_run] at h
      cases h
      exact expect_run _
    · rw [Reader.expect, run_bind_of_ok (next_run _), if_pos (by simpa using hfirst)] at h
      cases h

end Closed

end Reader

theorem closed_readOperand : Closed readOperand readOperand := by
  intro tokens slot operand rest slot' h more
  obtain ⟨-, first, words, rfl, hread⟩ := readOperand_words h
  simpa using hread (rest ++ .closeParen :: more)

/-- The operands of a list are read before a closing parenthesis, if the fuel is enough. -/
theorem readMore_closed
    (h : (readMore fuel).run ⟨tokens, slot⟩ = .ok (items, ⟨rest, slot'⟩))
    (hfuel : tokens.length ≤ fuel) (hle : fuel ≤ fuel') (more : List Token) :
    (readMore fuel').run ⟨tokens ++ .closeParen :: more, slot⟩ =
      .ok (items, ⟨rest ++ .closeParen :: more, slot'⟩) := by
  induction fuel generalizing tokens slot items fuel' with
  | zero =>
    obtain rfl := List.length_eq_zero_iff.mp (Nat.le_zero.mp hfuel)
    cases h
    cases fuel' with
    | zero => rfl
    | succ fuel' => exact Reader.ite_take_miss (by simp)
  | succ fuel ih =>
    obtain ⟨fuel', rfl⟩ := Nat.exists_eq_add_of_le' (Nat.one_le_of_lt hle)
    rw [readMore] at h ⊢
    by_cases hcomma : tokens.head? = some .comma
    · obtain ⟨others, rfl⟩ := List.head?_eq_some_iff.mp hcomma
      rw [List.cons_append, Reader.ite_take_hit] at *
      obtain ⟨⟨item, middle⟩, hitem, h⟩ := bind_eq_ok.mp h
      obtain ⟨⟨found, last⟩, hfound, h⟩ := bind_eq_ok.mp h
      cases h
      have hlength : middle.tokens.length ≤ fuel := by
        obtain ⟨-, first, words, rfl, -⟩ := readOperand_words hitem
        simp only [List.length_cons, List.length_append] at hfuel
        omega
      rw [run_bind_of_ok (closed_readOperand hitem more),
        run_bind_of_ok (ih hfound hlength (Nat.le_of_succ_le_succ hle))]
      rfl
    · have hclosed : (tokens ++ .closeParen :: more).head? ≠ some .comma := by
        cases tokens with
        | nil => simp
        | cons first others => simpa using hcomma
      rw [Reader.ite_take_miss hcomma] at h
      cases h
      exact Reader.ite_take_miss hclosed

theorem closed_readMore {f g : List Operand → Reader α} (hf : ∀ items, Closed (f items) (g items)) :
    Closed (do f (← readMore (← get).tokens.length)) (do g (← readMore (← get).tokens.length)) := by
  intro tokens slot a rest slot' h more
  rw [run_bind_of_ok get_run] at h ⊢
  obtain ⟨⟨items, middle⟩, hitems, h⟩ := bind_eq_ok.mp h
  rw [run_bind_of_ok (readMore_closed hitems le_rfl (by simp) more)]
  exact hf items h more

theorem closed_readTail (operand : Operand) : Closed (readTail operand) (readTail operand) := by
  intro tokens slot a rest slot' h more
  rw [readTail, run_bind_of_ok peek_run] at h ⊢
  split at h
  case h_1 operator hsign =>
    obtain ⟨others, rfl⟩ := List.head?_eq_some_iff.mp hsign
    rw [run_bind_of_ok (next_run _)] at h
    rw [List.cons_append, List.head?_cons]
    dsimp only
    rw [run_bind_of_ok (next_run _)]
    exact closed_readOperand.bind (fun _ => .pure) h more
  case h_2 hsign =>
    have hnone (operator : Operator) :
        (tokens ++ .closeParen :: more).head? ≠ some (.sign operator) := by
      cases tokens with
      | nil => simp
      | cons first others => simpa using hsign operator
    split
    case h_1 operator hfound => exact (hnone operator hfound).elim
    case h_2 =>
      -- the words do not begin with an operator in either case
      refine (show Closed _ _ from ?_) h more
      refine .bind (.take (by simp)) fun isNext => .ite ?_ ?_
      · exact .bind (.take (by simp)) fun negated => .bind (.expectKeyword _) fun _ => .pure
      refine .bind (.take (by simp)) fun negated => .bind (.take (by simp)) fun among => .ite ?_ ?_
      · refine .bind (.expect _) fun _ => .bind closed_readOperand fun first => ?_
        exact closed_readMore fun items => .bind (.expect _) fun _ => .pure
      refine .bind (.take (by simp)) fun like => .ite (.bind closed_readOperand fun _ => .pure) ?_
      refine .bind (.take (by simp)) fun between => .ite ?_ (.ite .throw .pure)
      exact .bind closed_readOperand fun low => .bind (.expectKeyword _) fun _ =>
        .bind closed_readOperand fun high => .pure

/-- what is read at any level is read before a closing parenthesis as well -/
structure ReadsClosed (fuel fuel' : Nat) : Prop where
  /-- where `OR` may stand -/
  byOr : Closed (readOr fuel) (readOr fuel')
  /-- after `OR` -/
  byOrs : ∀ left : Condition Operand, Closed (readOrs fuel left) (readOrs fuel' left)
  /-- where `AND` may stand -/
  byAnd : Closed (readAnd fuel) (readAnd fuel')
  /-- after `AND` -/
  byAnds : ∀ left : Condition Operand, Closed (readAnds fuel left) (readAnds fuel' left)
  /-- where `NOT` may stand -/
  byNot : Closed (readNot fuel) (readNot fuel')
  /-- where neither may stand -/
  simple : Closed (readSimple fuel) (readSimple fuel')

theorem readsClosed (h : fuel ≤ fuel') : ReadsClosed fuel fuel' := by
  induction fuel generalizing fuel' with
  | zero => exact ⟨.throw, fun _ => .throw, .throw, fun _ => .throw, .throw, .throw⟩
  | succ fuel ih =>
    obtain ⟨fuel', rfl⟩ := Nat.exists_eq_add_of_le' (Nat.one_le_of_lt h)
    have ih := ih (Nat.le_of_succ_le_succ h)
    refine ⟨.bind ih.byAnd ih.byOrs, fun left => ?_, .bind ih.byNot ih.byAnds, fun left => ?_,
      ?_, ?_⟩
    · exact .bind (.take (by simp)) fun _ => .ite (.bind ih.byAnd fun _ => ih.byOrs _) .pure
    · exact .bind (.take (by simp)) fun _ => .ite (.bind ih.byNot fun _ => ih.byAnds _) .pure
    · exact .bind (.take (by simp)) fun _ => .ite (.bind ih.byNot fun _ => .pure) ih.simple
    · refine .bind (.take (by simp)) fun _ => .ite ?_ (.bind closed_readOperand closed_readTail)
      exact .bind ih.byOr fun _ => .bind (.expect _) fun _ => .pure

/-! ## Texts joined by `AND` -/

/-- two texts in parentheses, joined by `AND` -/
def joined (first second : String) : String := s!"({first}) AND ({second})"

variable {text first second : String} {c left right : Condition Operand}

/-- A condition is read from the words of its text, all of them. -/
theorem words_of_read (h : read text = .ok c) :
    ∃ tokens, Token.scan text = .ok tokens ∧
      (readOr (6 * tokens.length + 6)).run ⟨tokens, 0⟩ = .ok (c, ⟨[], after 0 c.operands⟩) := by
  obtain ⟨tokens, hscan, h⟩ := bind_eq_ok.mp h
  split at h
  case isTrue => cases h
  case isFalse =>
    obtain ⟨⟨found, last⟩, hread, h⟩ := bind_eq_ok.mp h
    dsimp only at h
    split at h
    case isTrue hempty =>
      obtain rfl : found = c := pure_eq_ok.mp h
      obtain ⟨tokens', slot⟩ := last
      obtain rfl : tokens' = [] := List.isEmpty_iff.mp hempty
      obtain ⟨more, hmore, hslot⟩ := (countsPlaces _).byOr _ _ hread
      obtain rfl : found.operands = more := hmore
      obtain rfl : slot = after 0 found.operands := hslot
      exact ⟨tokens, hscan, hread⟩
    case isFalse => cases h

/-- The words of two texts joined by `AND`. -/
theorem scan_joined (hfirst : Token.scan first = .ok tokens)
    (hsecond : Token.scan second = .ok rest) :
    Token.scan (joined first second) =
      .ok (.openParen :: (tokens ++ .closeParen :: .word .and :: .openParen ::
        (rest ++ [.closeParen]))) := by
  have hopen {cs : List Char} {tokens : List Token} (h : Token.Scans cs tokens) :
      Token.Scans ('(' :: cs) (.openParen :: tokens) :=
    (show Token.Scans ('(' :: cs) ((some Token.openParen).toList ++ tokens) from
      h.read le_rfl fun _ => rfl)
  have hend : Token.Scans (second.toList ++ [')']) (rest ++ [.closeParen]) :=
    Token.scans_closed hsecond (Nat.lt_succ_self _) Token.scans_nil
  have hand : Token.Scans ("AND".toList ++ ' ' :: '(' :: (second.toList ++ [')']))
      (.word .and :: .openParen :: (rest ++ [.closeParen])) :=
    (hopen hend).blank.word fun _ => Token.readOne_keyword .and (by simp [Token.Apart])
  have htext : (joined first second).toList =
      '(' :: (first.toList ++ ')' :: ' ' ::
        ("AND".toList ++ ' ' :: '(' :: (second.toList ++ [')']))) := by
    simp [joined, toString]
  rw [Token.scan, htext]
  exact hopen (Token.scans_closed hfirst (Nat.lt_succ_self _) hand.blank) _ _ (Nat.lt_succ_self _)

/-- A condition in parentheses is read as a whole. -/
theorem readNot_enclosed
    (h : (readOr fuel).run ⟨tokens, slot⟩ = .ok (c, ⟨[], slot'⟩))
    (hfuel : fuel + 2 ≤ fuel') (more : List Token) :
    (readNot fuel').run ⟨.openParen :: (tokens ++ .closeParen :: more), slot⟩ =
      .ok (c, ⟨more, slot'⟩) := by
  obtain ⟨fuel', rfl⟩ := Nat.exists_eq_add_of_le' (Nat.le_of_add_left_le hfuel)
  have hinner := (readsClosed (Nat.le_of_add_le_add_right hfuel)).byOr h more
  rw [readNot, Reader.ite_take_miss (by simp), readSimple, Reader.ite_take_hit,
    run_bind_of_ok hinner, List.nil_append, run_bind_of_ok (expect_run _)]
  rfl

/-- **Texts joined by `AND`.** If a text without parameters by place writes a condition and a second
text writes another one, then the two in parentheses, joined by `AND`, write the condition that
joins the two. -/
theorem read_joined (hfirst : read first = .ok left) (hplaces : places left.operands = [])
    (hsecond : read second = .ok right) : read (joined first second) = .ok (.and left right) := by
  obtain ⟨tokens, hscan, hleft⟩ := words_of_read hfirst
  obtain ⟨others, hscan', hright⟩ := words_of_read hsecond
  rw [show after 0 left.operands = 0 by simp [after, hplaces]] at hleft
  have hwords := scan_joined hscan hscan'
  generalize hall : Token.openParen :: (tokens ++ .closeParen :: .word .and :: .openParen ::
    (others ++ [.closeParen])) = all at hwords
  have hlength : all.length = tokens.length + others.length + 5 := by
    simp only [← hall, List.length_cons, List.length_append, List.length_nil]
    omega
  have hread : (readOr (6 * all.length + 6)).run ⟨all, 0⟩ =
      .ok (.and left right, ⟨[], after 0 right.operands⟩) := by
    obtain ⟨fuel, hfuel⟩ : ∃ fuel, 6 * all.length + 6 = fuel + 4 := ⟨6 * all.length + 2, rfl⟩
    have hand (fuel : Nat) (h : 6 * all.length ≤ fuel + 4) :
        (readAnds (fuel + 2) left).run ⟨.word .and :: .openParen :: (others ++ [.closeParen]), 0⟩ =
          .ok (.and left right, ⟨[], after 0 right.operands⟩) := by
      rw [readAnds, Reader.ite_take_hit, run_bind_of_ok (readNot_enclosed hright (by omega) [])]
      exact readAnds_end (by simp) (by omega)
    have hfirst : (readAnd (fuel + 3)).run ⟨all, 0⟩ =
        .ok (.and left right, ⟨[], after 0 right.operands⟩) := by
      rw [readAnd, ← hall, run_bind_of_ok (readNot_enclosed hleft (by omega) _)]
      exact hand fuel (by omega)
    rw [hfuel, readOr, run_bind_of_ok hfirst]
    exact readOrs_end (by simp) (by omega)
  have hempty : all.isEmpty = false := by simp [← hall]
  rw [read]
  refine bind_eq_ok.mpr ⟨all, hwords, ?_⟩
  simp only [hempty, Bool.false_eq_true, if_false]
  exact bind_eq_ok.mpr ⟨_, hread, rfl⟩

end TableRecipe.Condition
