import TableRecipe.Condition.Parser
import TableRecipe.Proofs.Condition.Written
import TableRecipe.Proofs.Outcome

/-!
# Lists in conditions

`IN` has something to compare with: no list is empty in a condition that was read, and none becomes
so when its parameters are filled in.

* `Condition.hasItems_of_read` — the lists of a condition that was read;
* `Condition.hasItems_traverse` — the lists of a condition whose operands were replaced.
-/

namespace TableRecipe.Condition

variable {α β : Type} {condition : Condition α}

/-! ## Replacing operands -/

/-- Filling in operands leaves no list empty. -/
theorem hasItems_traverse {f : α → Except Error β} (hitems : condition.HasItems) :
    Returns HasItems (condition.traverse f) := by
  induction condition with
  | or left right hleft hright =>
    exact .bind fun left hl => .bind fun right hr =>
      .pure ⟨hleft hitems.1 left hl, hright hitems.2 right hr⟩
  | and left right hleft hright =>
    exact .bind fun left hl => .bind fun right hr =>
      .pure ⟨hleft hitems.1 left hl, hright hitems.2 right hr⟩
  | not inner ih => exact .bind fun inner hi => .pure (ih hitems inner hi)
  | among value items negated =>
    refine .bind fun value _ => .bind fun items' hi => .pure ?_
    intro hnil
    have hlength := (mapM_ok hi).1
    rw [hnil] at hlength
    exact hitems (List.length_eq_zero_iff.mp hlength.symm)
  | compare left operator right => exact .bind fun _ _ => .bind fun _ _ => .pure trivial
  | like value pattern negated => exact .bind fun _ _ => .bind fun _ _ => .pure trivial
  | between value low high negated =>
    exact .bind fun _ _ => .bind fun _ _ => .bind fun _ _ => .pure trivial
  | isNull value negated => exact .bind fun _ _ => .pure trivial
  | truth value => exact .bind fun _ _ => .pure trivial

/-! ## Reading -/

/-- a property of what is read, whatever the words are -/
def Reader.Yields (motive : α → Prop) (reader : Reader α) : Prop :=
  ∀ rest, Returns (fun found => motive found.1) (reader.run rest)

namespace Reader.Yields

variable {motive : α → Prop} {premise : β → Prop}

theorem pure {a : α} (h : motive a) : Yields motive (Pure.pure a) := fun _ => Returns.pure h

theorem throw {e : Error} : Yields motive (MonadExcept.throw e) := fun _ => Returns.throw

theorem bind {x : Reader β} {f : β → Reader α} (hx : Yields premise x)
    (hf : ∀ b, premise b → Yields motive (f b)) : Yields motive (x >>= f) := by
  intro rest
  rw [StateT.run_bind]
  exact Returns.bind fun found hfound => hf found.1 (hx rest found hfound) found.2

/-- What is read first need not matter. -/
theorem next {x : Reader β} {f : β → Reader α} (hf : ∀ b, Yields motive (f b)) :
    Yields motive (x >>= f) := by
  have hx : Yields (fun _ => True) x := fun _ _ _ => trivial
  exact hx.bind fun b _ => hf b

theorem ite {p : Prop} [Decidable p] {x y : Reader α} (hx : Yields motive x)
    (hy : Yields motive y) : Yields motive (if p then x else y) := by
  split
  · exact hx
  · exact hy

end Reader.Yields

open Reader

theorem hasItems_readTail (operand : Operand) : (readTail operand).Yields HasItems := by
  refine .next fun found => ?_
  split
  · exact .next fun _ => .next fun _ => .pure trivial
  · refine .next fun isNext => .ite (.next fun _ => .next fun _ => .pure trivial) ?_
    refine .next fun negated => .next fun among => .ite ?_ ?_
    · exact .next fun _ => .next fun first => .next fun _ => .next fun more => .next fun _ =>
        .pure (List.cons_ne_nil first more)
    · refine .next fun like => .ite (.next fun _ => .pure trivial) ?_
      refine .next fun between => .ite (.next fun _ => .next fun _ => .next fun _ => .pure trivial) ?_
      exact .ite (.next fun _ => .pure trivial) (.pure trivial)

/-- what is read at any level has no empty list -/
structure ReadsItems (fuel : Nat) : Prop where
  /-- where `OR` may stand -/
  byOr : (readOr fuel).Yields HasItems
  /-- after `OR` -/
  byOrs : ∀ left : Condition Operand, left.HasItems → (readOrs fuel left).Yields HasItems
  /-- where `AND` may stand -/
  byAnd : (readAnd fuel).Yields HasItems
  /-- after `AND` -/
  byAnds : ∀ left : Condition Operand, left.HasItems → (readAnds fuel left).Yields HasItems
  /-- where `NOT` may stand -/
  byNot : (readNot fuel).Yields HasItems
  /-- where neither may stand -/
  simple : (readSimple fuel).Yields HasItems

theorem readsItems (fuel : Nat) : ReadsItems fuel := by
  induction fuel with
  | zero => exact ⟨.throw, fun _ _ => .throw, .throw, fun _ _ => .throw, .throw, .throw⟩
  | succ fuel ih =>
    refine ⟨.bind ih.byAnd ih.byOrs, fun left hleft => ?_, .bind ih.byNot ih.byAnds,
      fun left hleft => ?_, ?_, ?_⟩
    · refine .next fun _ => .ite (.bind ih.byAnd fun right hright => ?_) (.pure hleft)
      exact ih.byOrs _ ⟨hleft, hright⟩
    · refine .next fun _ => .ite (.bind ih.byNot fun right hright => ?_) (.pure hleft)
      exact ih.byAnds _ ⟨hleft, hright⟩
    · exact .next fun _ => .ite (.bind ih.byNot fun inner hinner => .pure hinner) ih.simple
    · refine .next fun _ => .ite (.bind ih.byOr fun inner hinner => .next fun _ => .pure hinner) ?_
      exact .next hasItems_readTail

/-- A condition that was read has no empty list. -/
theorem hasItems_of_read {text : String} : Returns HasItems (read text) := by
  refine .bind fun tokens _ => .ite (.bind fun _ h => (throw_ne_ok h).elim) ?_
  refine .bind fun found hfound => .ite (.pure ?_) .throw
  exact (readsItems _).byOr _ found hfound

end TableRecipe.Condition
