import Mathlib.Data.List.Range
import TableRecipe.Condition.Basic
import TableRecipe.Proofs.Condition.Words

/-!
# Writing conditions

A condition is written with the parentheses without which it would be read as another one: around
an `OR` that an `AND` or a `NOT` binds, around an `AND` that a `NOT` binds, and around what is
joined on the right by the word that already joins it.

* `Operand.tokens`, `Condition.written` — the words of operands and conditions;
* `Condition.text` — the text of a condition;
* `Condition.Writable` — the conditions that can be written;
* `Condition.spelled_written` — their words have a spelling.
-/

namespace TableRecipe

namespace Operand

/-! ## Operands -/

/-- the words of an operand; numbers with a fraction, lists and mappings have none -/
def tokens : Operand → List Token
  | column name => [.column name]
  | literal .null => [.word .null]
  | literal (.bool flag) => [.word (if flag then .truth else .falsity)]
  | literal (.number (.integer n)) =>
    let magnitude := Token.number (.finite false (n.natAbs * Binary64.one))
    if n < 0 then [.minus, magnitude] else [magnitude]
  | literal (.string text) => [.literal text]
  | literal _ => []
  | positional _ => [.positional]
  | named name => [.named name]

/-- whether an operand can be written: integers are exact floating-point numbers, names of
parameters consist of letters, digits and underscores -/
def Writable : Operand → Prop
  | column _ | positional _ | literal .null | literal (.bool _) | literal (.string _) => True
  | literal (.number (.integer n)) => n.natAbs ≤ Binary64.greatestExact
  | literal _ => False
  | named name => name ≠ "" ∧ ∀ c ∈ name.toList, Token.isParameter c

/-- the number of a parameter by place -/
def place? : Operand → Option Nat
  | positional slot => some slot
  | _ => none

/-- the numbers of the parameters by place among operands -/
def places (operands : List Operand) : List Nat := operands.filterMap place?

/-- whether the parameters by place among operands are numbered from left to right, from `slot`
on -/
def Numbered (slot : Nat) (operands : List Operand) : Prop :=
  places operands = List.range' slot (places operands).length

/-- the number of the next parameter by place behind operands -/
def after (slot : Nat) (operands : List Operand) : Nat := slot + (places operands).length

variable {slot : Nat} {operand : Operand} {more : List Operand}

theorem after_append (operands more : List Operand) :
    after slot (operands ++ more) = after (after slot operands) more := by
  simp [after, places, Nat.add_assoc]

theorem after_cons : after slot (operand :: more) = after (after slot [operand]) more :=
  after_append [operand] more

/-- Numbers go on where those before them end. -/
theorem numbered_append (operands more : List Operand) :
    Numbered slot (operands ++ more) ↔
      Numbered slot operands ∧ Numbered (after slot operands) more := by
  have hplaces : places (operands ++ more) = places operands ++ places more :=
    List.filterMap_append
  rw [Numbered, hplaces, List.length_append, ← List.range'_append_1]
  constructor
  · exact fun h => List.append_inj h (List.length_range' ..).symm
  · rintro ⟨hfirst, hmore⟩
    exact congrArg₂ (· ++ ·) hfirst hmore

theorem numbered_cons :
    Numbered slot (operand :: more) ↔
      Numbered slot [operand] ∧ Numbered (after slot [operand]) more :=
  numbered_append [operand] more

end Operand

namespace Condition

variable {α : Type} {c left right : Condition Operand} {operand : Operand} {items : List Operand}
  {slot : Nat}

/-! ## Conditions -/

/-- the words that deny a condition -/
def denial (negated : Bool) : List Token := if negated then [.word .not] else []

/-- operands with commas between them -/
def separated : List Operand → List Token
  | [] => []
  | first :: more => first.tokens ++ more.flatMap fun item => .comma :: item.tokens

/-- words in parentheses, where they are needed -/
def enclosed (needed : Bool) (tokens : List Token) : List Token :=
  if needed then .openParen :: (tokens ++ [.closeParen]) else tokens

/-- the words of a condition where `OR` may stand (level 0), where `AND` but no `OR` may stand
(level 1), and where neither may (level 2) -/
def written : Condition Operand → (level : Nat) → List Token
  | or left right, level => enclosed (0 < level) (left.written 0 ++ .word .or :: right.written 1)
  | and left right, level => enclosed (1 < level) (left.written 1 ++ .word .and :: right.written 2)
  | not inner, _ => .word .not :: inner.written 2
  | compare left operator right, _ => left.tokens ++ .sign operator :: right.tokens
  | among value items negated, _ =>
    value.tokens ++
      (denial negated ++ .word .among :: .openParen :: (separated items ++ [.closeParen]))
  | like value pattern negated, _ => value.tokens ++ (denial negated ++ .word .like :: pattern.tokens)
  | between value low high negated, _ =>
    value.tokens ++ (denial negated ++ .word .between :: (low.tokens ++ .word .and :: high.tokens))
  | isNull value negated, _ => value.tokens ++ .word .is :: (denial negated ++ [.word .null])
  | truth value, _ => value.tokens

/-- the text of a condition -/
def text (c : Condition Operand) : String := String.ofList (Token.layout (c.written 0))

/-- the operands of a condition, from left to right -/
def operands : Condition α → List α
  | or left right | and left right => left.operands ++ right.operands
  | not inner => inner.operands
  | compare left _ right => [left, right]
  | among value items _ => value :: items
  | like value pattern _ => [value, pattern]
  | between value low high _ => [value, low, high]
  | isNull value _ | truth value => [value]

/-- whether no list of values in a condition is empty -/
def HasItems : Condition α → Prop
  | or left right | and left right => left.HasItems ∧ right.HasItems
  | not inner => inner.HasItems
  | among _ items _ => items ≠ []
  | _ => True

/-- whether a condition can be written, its parameters by place being numbered from `slot` on -/
structure Writable (slot : Nat) (c : Condition Operand) : Prop where
  /-- every operand can be written -/
  operands : ∀ operand ∈ c.operands, operand.Writable
  /-- there is something in every list of values -/
  items : c.HasItems
  /-- parameters by place are numbered from left to right -/
  numbered : Operand.Numbered slot c.operands

/-- The parts of a condition that joins two can be written, the second with the numbers that
follow. -/
theorem Writable.parts (h : (or left right).Writable slot) :
    left.Writable slot ∧ right.Writable (Operand.after slot left.operands) := by
  obtain ⟨hall, ⟨hleft, hright⟩, hnumbered⟩ := h
  obtain ⟨hplaces, hmore⟩ := (Operand.numbered_append left.operands right.operands).mp hnumbered
  refine ⟨⟨fun operand h => hall operand ?_, hleft, hplaces⟩,
    ⟨fun operand h => hall operand ?_, hright, hmore⟩⟩
  · exact List.mem_append_left _ h
  · exact List.mem_append_right _ h

theorem Writable.parts_and (h : (and left right).Writable slot) :
    left.Writable slot ∧ right.Writable (Operand.after slot left.operands) :=
  Writable.parts ⟨h.operands, h.items, h.numbered⟩

/-! ## Words that are written -/

/-- The words of an operand have a spelling. -/
theorem spelled_tokens (h : operand.Writable) :
    ∀ token ∈ operand.tokens, token.Spelled := by
  cases operand with
  | column name => simp [Operand.tokens, Token.Spelled]
  | positional slot => simp [Operand.tokens, Token.Spelled]
  | named name =>
    intro token htoken
    obtain rfl := List.mem_singleton.mp htoken
    exact h
  | literal value =>
    cases value with
    | number number =>
      cases number with
      | decimal value => cases h
      | integer n =>
        have hmagnitude : (Token.number (.finite false (n.natAbs * Binary64.one))).Spelled :=
          ⟨n.natAbs, h, rfl⟩
        rw [Operand.tokens]
        split
        · exact List.forall_mem_cons.mpr ⟨trivial, List.forall_mem_singleton.mpr hmagnitude⟩
        · exact List.forall_mem_singleton.mpr hmagnitude
    | _ => simp [Operand.tokens, Token.Spelled]

theorem spelled_enclosed {needed : Bool} {tokens : List Token}
    (h : ∀ token ∈ tokens, token.Spelled) : ∀ token ∈ enclosed needed tokens, token.Spelled := by
  rw [enclosed]
  split
  · exact List.forall_mem_cons.mpr ⟨trivial,
      List.forall_mem_append.mpr ⟨h, List.forall_mem_singleton.mpr trivial⟩⟩
  · exact h

theorem spelled_denial {negated : Bool} : ∀ token ∈ denial negated, token.Spelled := by
  cases negated <;> simp [denial, Token.Spelled]

theorem spelled_separated (h : ∀ item ∈ items, item.Writable) :
    ∀ token ∈ separated items, token.Spelled := by
  cases items with
  | nil => simp [separated]
  | cons first more =>
    obtain ⟨hfirst, hmore⟩ := List.forall_mem_cons.mp h
    refine List.forall_mem_append.mpr ⟨spelled_tokens hfirst, ?_⟩
    intro token htoken
    obtain ⟨item, hitem, htoken⟩ := List.mem_flatMap.mp htoken
    exact List.forall_mem_cons.mpr ⟨trivial, spelled_tokens (hmore item hitem)⟩ token htoken

/-- The words of a condition have a spelling. -/
theorem spelled_written (h : ∀ operand ∈ c.operands, operand.Writable) (level : Nat) :
    ∀ token ∈ c.written level, token.Spelled := by
  induction c generalizing level with
  | or left right hleft hright =>
    obtain ⟨hfirst, hsecond⟩ := List.forall_mem_append.mp h
    refine spelled_enclosed (List.forall_mem_append.mpr ⟨hleft hfirst 0, ?_⟩)
    exact List.forall_mem_cons.mpr ⟨trivial, hright hsecond 1⟩
  | and left right hleft hright =>
    obtain ⟨hfirst, hsecond⟩ := List.forall_mem_append.mp h
    refine spelled_enclosed (List.forall_mem_append.mpr ⟨hleft hfirst 1, ?_⟩)
    exact List.forall_mem_cons.mpr ⟨trivial, hright hsecond 2⟩
  | not inner ih => exact List.forall_mem_cons.mpr ⟨trivial, ih h 2⟩
  | compare left operator right =>
    simp only [operands, List.forall_mem_cons] at h
    simp only [written, List.forall_mem_append, List.forall_mem_cons]
    exact ⟨spelled_tokens h.1, trivial, spelled_tokens h.2.1⟩
  | among value items negated =>
    simp only [operands, List.forall_mem_cons] at h
    simp only [written, List.forall_mem_append, List.forall_mem_cons]
    exact ⟨spelled_tokens h.1, spelled_denial, trivial, trivial, spelled_separated h.2, trivial,
      nofun⟩
  | like value pattern negated =>
    simp only [operands, List.forall_mem_cons] at h
    simp only [written, List.forall_mem_append, List.forall_mem_cons]
    exact ⟨spelled_tokens h.1, spelled_denial, trivial, spelled_tokens h.2.1⟩
  | between value low high negated =>
    simp only [operands, List.forall_mem_cons] at h
    simp only [written, List.forall_mem_append, List.forall_mem_cons]
    exact ⟨spelled_tokens h.1, spelled_denial, trivial, spelled_tokens h.2.1, trivial,
      spelled_tokens h.2.2.1⟩
  | isNull value negated =>
    simp only [operands, List.forall_mem_cons] at h
    simp only [written, List.forall_mem_append, List.forall_mem_cons]
    exact ⟨spelled_tokens h.1, trivial, spelled_denial, trivial, nofun⟩
  | truth value => exact spelled_tokens (h value (List.mem_singleton_self _))

end Condition

end TableRecipe
