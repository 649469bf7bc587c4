import TableRecipe.Json.Printer
import TableRecipe.Proofs.Json.Scalars
import TableRecipe.Proofs.Number.Apart

/-!
# Texts that tell values apart

The compact text of a value is told apart from that of every other value, whatever stands behind
both of them, and so the texts that lists and mappings are put together from fall apart in one way
only. The first character of a text announces the kind of the value; a number needs something
behind it that cannot belong to it.

* `Value.Valid` — values all of whose numbers JSON knows;
* `Json.Closing` — what may stand behind a number;
* `Json.Told` — something whose text is told apart from those of others;
* `Json.inside_inj` — parts between an opening and a closing mark;
* `Json.told` — all valid values;
* `Value.key_inj` — the key of a value tells which value it is.
-/

namespace TableRecipe

namespace Value

mutual
/-- whether JSON knows all the numbers in a value -/
def Valid : Value → Prop
  | .null | .bool _ | .string _ => True
  | .number n => n.Valid
  | .list items => ValidItems items
  | .object entries => ValidEntries entries
/-- whether JSON knows all the numbers in some values -/
def ValidItems : List Value → Prop
  | [] => True
  | item :: rest => item.Valid ∧ ValidItems rest
/-- whether JSON knows all the numbers in the values of some entries -/
def ValidEntries : List (String × Value) → Prop
  | [] => True
  | (_, value) :: rest => value.Valid ∧ ValidEntries rest
end

theorem validItems_iff {items : List Value} : ValidItems items ↔ ∀ item ∈ items, item.Valid := by
  induction items with
  | nil => simp [ValidItems]
  | cons item rest ih => rw [ValidItems, ih, List.forall_mem_cons]

theorem validEntries_iff {entries : Fields} :
    ValidEntries entries ↔ ∀ entry ∈ entries, entry.2.Valid := by
  induction entries with
  | nil => simp [ValidEntries]
  | cons entry rest ih => rw [ValidEntries, ih, List.forall_mem_cons]

/-- the kinds of values, each truth value on its own -/
inductive Kind where
  /-- no value -/
  | null
  /-- a truth value -/
  | bool (flag : Bool)
  /-- a number -/
  | number
  /-- a text -/
  | string
  /-- a list -/
  | list
  /-- a mapping -/
  | object
  deriving DecidableEq

/-- the kind of a value -/
def kind : Value → Kind
  | .null => .null
  | .bool flag => .bool flag
  | .number _ => .number
  | .string _ => .string
  | .list _ => .list
  | .object _ => .object

end Value

namespace Json

open Value (Kind)

variable {c : Char} {cs rest rest' : List Char} {value other : Value} {name name' : String}
  {items : List Value} {entries : Fields}

/-! ## First characters -/

/-- the kind of value that a first character announces -/
def announces (c : Char) : Option Kind :=
  if c = 'n' then some .null
  else if c = 't' then some (.bool true)
  else if c = 'f' then some (.bool false)
  else if c = '"' then some .string
  else if c = '[' then some .list
  else if c = '\x7b' then some .object
  else if Number.isPart c then some .number
  else none

theorem announces_number (h : Number.isPart c) : announces c = some .number := by
  have hother {d : Char} (hd : Number.isPart d = false) : c ≠ d := by
    rintro rfl
    rw [h] at hd
    cases hd
  rw [announces]
  iterate 6 rw [if_neg (hother rfl)]
  exact if_pos h

/-- The first character announces what is written. -/
theorem write_head (h : value.Valid) :
    ∃ c more, write value = c :: more ∧ announces c = some value.kind := by
  cases value with
  | null => exact ⟨_, _, rfl, rfl⟩
  | bool flag => cases flag <;> exact ⟨_, _, rfl, rfl⟩
  | number n =>
    obtain ⟨c, more, htext⟩ := List.exists_cons_of_ne_nil (Number.text_ne_nil h)
    refine ⟨c, more, htext, announces_number (Number.isPart_of_mem_text h c ?_)⟩
    exact htext ▸ List.mem_cons_self ..
  | string text => exact ⟨_, _, rfl, rfl⟩
  | list items => exact ⟨_, _, rfl, rfl⟩
  | object entries => exact ⟨_, _, rfl, rfl⟩

/-- Texts that begin alike are texts of values of the same kind. -/
theorem kind_eq (value : Value) (h : value.Valid) (hother : other.Valid)
    (heq : write value ++ rest = write other ++ rest') : value.kind = other.kind := by
  obtain ⟨c, more, htext, hkind⟩ := write_head h
  obtain ⟨c', more', htext', hkind'⟩ := write_head hother
  rw [htext, htext'] at heq
  obtain ⟨rfl, -⟩ := List.cons.inj heq
  exact Option.some.inj (hkind.symm.trans hkind')

/-! ## Texts told apart -/

/-- whether no character that stands first could belong to a number in front of it -/
def Closing (cs : List Char) : Prop := ∀ c ∈ cs.head?, Number.isPart c = false

theorem closing_nil : Closing [] := nofun

theorem closing_cons (h : Number.isPart c = false) : Closing (c :: cs) := by simpa [Closing] using h

section Parts

variable {α : Type} {text : α → List Char} {p : α → Prop} {closing : Char} {parts parts' : List α}

/-- whether the text of something is told apart from those of others, whatever stands behind both
of them -/
def Told (text : α → List Char) (p : α → Prop) (a : α) : Prop :=
  ∀ {b : α} {rest rest' : List Char}, p b → Closing rest → Closing rest' →
    text a ++ rest = text b ++ rest' → a = b ∧ rest = rest'

/-- what stands behind a part: more parts, each behind a comma, and the closing mark -/
def behind (text : α → List Char) (closing : Char) (rest : List Char) : List α → List Char
  | [] => closing :: rest
  | part :: parts => ',' :: (text part ++ behind text closing rest parts)

/-- what stands behind an opening mark: parts with commas between them, and the closing mark -/
def inside (text : α → List Char) (closing : Char) (rest : List Char) : List α → List Char
  | [] => closing :: rest
  | part :: parts => text part ++ behind text closing rest parts

/-- whether a mark shows that there are no more parts -/
structure EndsParts (text : α → List Char) (p : α → Prop) (closing : Char) : Prop where
  /-- it is told apart from a comma -/
  ne_comma : closing ≠ ','
  /-- it does not belong to a number in front of it -/
  not_isPart : Number.isPart closing = false
  /-- no part begins with it -/
  not_first : ∀ part rest rest', p part → text part ++ rest ≠ closing :: rest'

theorem EndsParts.closing_behind (h : EndsParts text p closing) (rest : List Char)
    (parts : List α) : Closing (behind text closing rest parts) := by
  cases parts with
  | nil => exact closing_cons h.not_isPart
  | cons => exact closing_cons rfl

theorem behind_inj (h : EndsParts text p closing) (htold : ∀ part ∈ parts, Told text p part)
    (hparts' : ∀ part ∈ parts', p part)
    (heq : behind text closing rest parts = behind text closing rest' parts') :
    parts = parts' ∧ rest = rest' := by
  induction parts generalizing parts' with
  | nil =>
    cases parts' with
    | nil => exact ⟨rfl, (List.cons.inj heq).2⟩
    | cons => exact absurd (List.cons.inj heq).1 h.ne_comma
  | cons part parts ih =>
    cases parts' with
    | nil => exact absurd (List.cons.inj heq).1.symm h.ne_comma
    | cons part' parts' =>
      obtain ⟨hpart, hmore⟩ := List.forall_mem_cons.mp htold
      obtain ⟨hpart', hmore'⟩ := List.forall_mem_cons.mp hparts'
      obtain ⟨rfl, hbehind⟩ := hpart hpart' (h.closing_behind rest parts)
        (h.closing_behind rest' parts') (List.cons.inj heq).2
      obtain ⟨rfl, hrest⟩ := ih hmore hmore' hbehind
      exact ⟨rfl, hrest⟩

/-- Parts that are told apart one by one are told apart when they are put together. -/
theorem inside_inj (h : EndsParts text p closing) (htold : ∀ part ∈ parts, Told text p part)
    (hparts : ∀ part ∈ parts, p part) (hparts' : ∀ part ∈ parts', p part)
    (heq : inside text closing rest parts = inside text closing rest' parts') :
    parts = parts' ∧ rest = rest' := by
  cases parts with
  | nil =>
    cases parts' with
    | nil => exact ⟨rfl, (List.cons.inj heq).2⟩
    | cons part' parts' =>
      exact absurd heq.symm (h.not_first _ _ _ (hparts' part' (List.mem_cons_self ..)))
  | cons part parts =>
    cases parts' with
    | nil => exact absurd heq (h.not_first _ _ _ (hparts part (List.mem_cons_self ..)))
    | cons part' parts' => exact behind_inj h htold hparts' (congrArg (',' :: ·) heq)

end Parts

/-! ## Values without parts -/

theorem told_null : Told write Value.Valid .null := by
  intro other rest rest' hother _ _ heq
  have hkind := kind_eq .null trivial hother heq
  cases other with
  | null => exact ⟨rfl, List.append_cancel_left heq⟩
  | _ => cases hkind

theorem told_bool (flag : Bool) : Told write Value.Valid (.bool flag) := by
  intro other rest rest' hother _ _ heq
  have hkind := kind_eq (.bool flag) trivial hother heq
  cases other with
  | bool flag' =>
    obtain rfl := Kind.bool.inj hkind
    exact ⟨rfl, List.append_cancel_left heq⟩
  | _ => cases hkind

/-- A number ends where the first character stands that cannot belong to it. -/
theorem told_number {n : Number} (h : n.Valid) : Told write Value.Valid (.number n) := by
  intro other rest rest' hother hclosing hclosing' heq
  have hkind := kind_eq (.number n) h hother heq
  cases other with
  | number n' =>
    obtain ⟨htake, hdrop⟩ := Decimal.takeWhile_append_stop (Number.isPart_of_mem_text h) hclosing
    obtain ⟨htake', hdrop'⟩ :=
      Decimal.takeWhile_append_stop (Number.isPart_of_mem_text hother) hclosing'
    rw [write, write] at heq
    rw [heq, htake'] at htake
    rw [heq, hdrop'] at hdrop
    rw [Number.text_inj hother h htake, hdrop]
    exact ⟨rfl, rfl⟩
  | _ => cases hkind

/-- A text in quotes ends at its closing quote. -/
theorem quote_append_inj (heq : quote name ++ rest = quote name' ++ rest') :
    name = name' ∧ rest = rest' := by
  simp only [quote, List.cons_append, List.append_assoc, List.nil_append] at heq
  have hread := readText_quoted name.toList rest
  rw [(List.cons.inj heq).2, readText_quoted] at hread
  obtain ⟨hname, hrest⟩ := Prod.mk.inj (Option.some.inj hread)
  exact ⟨String.toList_inj.mp hname.symm, hrest.symm⟩

theorem told_string (text : String) : Told write Value.Valid (.string text) := by
  intro other rest rest' hother _ _ heq
  have hkind := kind_eq (.string text) trivial hother heq
  cases other with
  | string text' =>
    obtain ⟨rfl, hrest⟩ := quote_append_inj heq
    exact ⟨rfl, hrest⟩
  | _ => cases hkind

/-! ## Lists and mappings -/

theorem endsParts_bracket : EndsParts write Value.Valid ']' where
  ne_comma := by decide
  not_isPart := rfl
  not_first item rest rest' h heq := by
    obtain ⟨c, more, htext, hkind⟩ := write_head h
    rw [htext] at heq
    obtain ⟨rfl, -⟩ := List.cons.inj heq
    cases hkind

theorem write_list (items : List Value) (rest : List Char) :
    write (.list items) ++ rest = '[' :: inside write ']' rest items := by
  have hitems (item : Value) (items : List Value) :
      writeItems (item :: items) ++ ']' :: rest = write item ++ behind write ']' rest items := by
    induction items generalizing item with
    | nil => rfl
    | cons next items ih => simp [writeItems, behind, ih]
  cases items with
  | nil => rfl
  | cons item items => simp [write, inside, ← hitems]

/-- Lists are told apart if their items are. -/
theorem told_list (htold : ∀ item ∈ items, Told write Value.Valid item)
    (h : Value.ValidItems items) : Told write Value.Valid (.list items) := by
  intro other rest rest' hother _ _ heq
  have hkind := kind_eq (.list items) h hother heq
  cases other with
  | list others =>
    rw [write_list, write_list] at heq
    obtain ⟨rfl, hrest⟩ := inside_inj endsParts_bracket htold (Value.validItems_iff.mp h)
      (Value.validItems_iff.mp hother) (List.cons.inj heq).2
    exact ⟨rfl, hrest⟩
  | _ => cases hkind

/-- the text of an entry -/
def entryText (entry : String × Value) : List Char := quote entry.1 ++ ':' :: write entry.2

theorem endsParts_brace : EndsParts entryText (·.2.Valid) '\x7d' where
  ne_comma := by decide
  not_isPart := rfl
  not_first _ _ _ _ heq := absurd (List.cons.inj heq).1 (by decide)

theorem write_object (entries : Fields) (rest : List Char) :
    write (.object entries) ++ rest = '\x7b' :: inside entryText '\x7d' rest entries := by
  have hentries (entry : String × Value) (entries : Fields) :
      writeEntries (entry :: entries) ++ '\x7d' :: rest =
        entryText entry ++ behind entryText '\x7d' rest entries := by
    induction entries generalizing entry with
    | nil => simp [writeEntries, entryText, behind]
    | cons next entries ih => simp [writeEntries, entryText, behind, ih]
  cases entries with
  | nil => rfl
  | cons entry entries => simp [write, inside, ← hentries]

/-- An entry is told apart by its name and its value. -/
theorem told_entry {entry : String × Value} (h : Told write Value.Valid entry.2) :
    Told entryText (·.2.Valid) entry := by
  intro other rest rest' hother hclosing hclosing' heq
  simp only [entryText, List.append_assoc, List.cons_append] at heq
  obtain ⟨hname, hcolon⟩ := quote_append_inj heq
  obtain ⟨hvalue, hrest⟩ := h hother hclosing hclosing' (List.cons.inj hcolon).2
  exact ⟨Prod.ext hname hvalue, hrest⟩

/-- Mappings are told apart if the values of their entries are. -/
theorem told_object (htold : ∀ entry ∈ entries, Told write Value.Valid entry.2)
    (h : Value.ValidEntries entries) : Told write Value.Valid (.object entries) := by
  intro other rest rest' hother _ _ heq
  have hkind := kind_eq (.object entries) h hother heq
  cases other with
  | object others =>
    rw [write_object, write_object] at heq
    obtain ⟨rfl, hrest⟩ := inside_inj endsParts_brace
      (fun entry hentry => told_entry (htold entry hentry)) (Value.validEntries_iff.mp h)
      (Value.validEntries_iff.mp hother) (List.cons.inj heq).2
    exact ⟨rfl, hrest⟩
  | _ => cases hkind

/-! ## All values -/

mutual
/-- **Texts of values.** The text of a valid value is told apart from those of all the others. -/
theorem told : (value : Value) → value.Valid → Told write Value.Valid value
  | .null, _ => told_null
  | .bool flag, _ => told_bool flag
  | .number _, h => told_number h
  | .string text, _ => told_string text
  | .list items, h => told_list (told_items items h) h
  | .object entries, h => told_object (told_entries entries h) h
theorem told_items : (items : List Value) → Value.ValidItems items →
    ∀ item ∈ items, Told write Value.Valid item
  | [], _ => nofun
  | item :: rest, h => List.forall_mem_cons.mpr ⟨told item h.1, told_items rest h.2⟩
theorem told_entries : (entries : Fields) → Value.ValidEntries entries →
    ∀ entry ∈ entries, Told write Value.Valid entry.2
  | [], _ => nofun
  | (_, value) :: rest, h => List.forall_mem_cons.mpr ⟨told value h.1, told_entries rest h.2⟩
end

end Json

/-- The key of a value tells which value it is. -/
theorem Value.key_inj {value other : Value} (h : value.Valid) (hother : other.Valid) :
    value.key = other.key ↔ value = other := by
  refine ⟨fun heq => ?_, congrArg _⟩
  have htext : Json.write value ++ [] = Json.write other ++ [] :=
    congrArg (· ++ []) (String.ofList_injective heq)
  exact (Json.told value h hother Json.closing_nil Json.closing_nil htext).1

end TableRecipe
