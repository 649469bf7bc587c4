import TableRecipe.Proofs.Fields
import TableRecipe.Proofs.Json.Scalars

/-!
# Values read back

A value that is written, compactly or indented, is read back unless it nests too deeply. The reader
takes the text of a value, of items or of entries, whatever follows it, and blanks may stand between
the parts; texts are put together in the same way from those of their parts in both forms.

* `Value.nesting` — how many lists and mappings stand inside each other in a value;
* `Value.Readable` — values without repeated names, and whose numbers read back;
* `Json.Reads`, `Json.ReadsItems`, `Json.ReadsEntries` — texts of values, items and entries;
* `Json.reads_write`, `Json.reads_writeIndented` — what is written is such a text;
* `Json.readChars?_eq` — a whole text is read if and only if its value does not nest too deeply.
-/

namespace TableRecipe

namespace Value

mutual
/-- how many lists and mappings stand inside each other -/
def nesting : Value → Nat
  | .null | .bool _ | .number _ | .string _ => 0
  | .list items => nestingOfItems items + 1
  | .object entries => nestingOfEntries entries + 1
/-- the greatest nesting of some values -/
def nestingOfItems : List Value → Nat
  | [] => 0
  | item :: rest => max item.nesting (nestingOfItems rest)
/-- the greatest nesting of the values of some entries -/
def nestingOfEntries : List (String × Value) → Nat
  | [] => 0
  | (_, value) :: rest => max value.nesting (nestingOfEntries rest)
end

mutual
/-- whether no mapping in a value repeats a name, and the text of every number is read back -/
def Readable : Value → Prop
  | .null | .bool _ | .string _ => True
  | .number n => Json.readNumber n.text = some (.number n, [])
  | .list items => ReadableItems items
  | .object entries => (Fields.names entries).Nodup ∧ ReadableEntries entries
/-- whether values are readable -/
def ReadableItems : List Value → Prop
  | [] => True
  | item :: rest => item.Readable ∧ ReadableItems rest
/-- whether the values of entries are readable -/
def ReadableEntries : List (String × Value) → Prop
  | [] => True
  | (_, value) :: rest => value.Readable ∧ ReadableEntries rest
end

variable {items : List Value} {entries : Fields} {n : Nat}

theorem nestingOfItems_le_iff : nestingOfItems items ≤ n ↔ ∀ item ∈ items, item.nesting ≤ n := by
  induction items with
  | nil => simp [nestingOfItems]
  | cons item rest ih => rw [nestingOfItems, Nat.max_le, ih, List.forall_mem_cons]

theorem nestingOfEntries_le_iff :
    nestingOfEntries entries ≤ n ↔ ∀ entry ∈ entries, entry.2.nesting ≤ n := by
  induction entries with
  | nil => simp [nestingOfEntries]
  | cons entry rest ih => rw [nestingOfEntries, Nat.max_le, ih, List.forall_mem_cons]

theorem readableItems_iff : ReadableItems items ↔ ∀ item ∈ items, item.Readable := by
  induction items with
  | nil => simp [ReadableItems]
  | cons item rest ih => rw [ReadableItems, ih, List.forall_mem_cons]

theorem readableEntries_iff : ReadableEntries entries ↔ ∀ entry ∈ entries, entry.2.Readable := by
  induction entries with
  | nil => simp [ReadableEntries]
  | cons entry rest ih => rw [ReadableEntries, ih, List.forall_mem_cons]

end Value

namespace Json

variable {c : Char} {cs more rest blank blank' blank'' : List Char} {value item : Value}
  {name : String} {items : List Value} {entries seen : Fields} {fuel depth : Nat}

/-! ## Blanks -/

/-- whether a character is passed over between the parts of a text -/
def isBlank (c : Char) : Bool := c = ' ' || c = '\n' || c = '\t' || c = '\r'

/-- characters that are all passed over -/
def Blank (cs : List Char) : Prop := ∀ c ∈ cs, isBlank c = true

theorem blank_nil : Blank [] := by simp [Blank]

theorem blank_newLine (level : Nat) : Blank (newLine level) := by
  refine List.forall_mem_cons.mpr ⟨rfl, fun c hc => ?_⟩
  rw [List.eq_of_mem_replicate hc]
  rfl

theorem skipBlanks_append (h : Blank cs) : skipBlanks (cs ++ rest) = skipBlanks rest :=
  List.dropWhile_append_of_pos h

theorem skipBlanks_cons (h : isBlank c = false) : skipBlanks (c :: cs) = c :: cs :=
  List.dropWhile_cons_of_neg (by simpa [isBlank] using h)

theorem skipBlanks_skipBlanks : skipBlanks (skipBlanks cs) = skipBlanks cs := by
  induction cs with
  | nil => rfl
  | cons c cs ih =>
    by_cases hc : isBlank c = true
    · have hskip : skipBlanks (c :: cs) = skipBlanks cs :=
        skipBlanks_append (List.forall_mem_singleton.mpr hc)
      rw [hskip, ih]
    · have hstay : skipBlanks (c :: cs) = c :: cs := skipBlanks_cons (by simpa using hc)
      rw [hstay, hstay]

theorem readValue_skipBlanks : readValue fuel depth (skipBlanks cs) = readValue fuel depth cs := by
  cases fuel with
  | zero => rw [readValue, readValue]
  | succ fuel => rw [readValue, readValue, skipBlanks_skipBlanks]

theorem readItems_skipBlanks : readItems fuel depth (skipBlanks cs) = readItems fuel depth cs := by
  cases fuel with
  | zero => rw [readItems, readItems]
  | succ fuel => rw [readItems, readItems, readValue_skipBlanks]

theorem readEntries_skipBlanks :
    readEntries fuel depth seen (skipBlanks cs) = readEntries fuel depth seen cs := by
  cases fuel with
  | zero => rw [readEntries, readEntries]
  | succ fuel => rw [readEntries, readEntries, skipBlanks_skipBlanks]

/-! ## Texts of values -/

/-- a text of a value: the reader takes it whatever follows, unless the value nests too deeply -/
structure Reads (value : Value) (cs : List Char) : Prop where
  head : ∃ c more, cs = c :: more ∧ isBlank c = false ∧ c ≠ ']'
  read : ∀ fuel depth rest, 2 * cs.length ≤ fuel → Ends rest →
    readValue fuel depth (cs ++ rest) = if value.nesting ≤ depth then some (value, rest) else none

/-- a text of items, up to the closing bracket -/
structure ReadsItems (items : List Value) (cs : List Char) : Prop where
  head : ∃ c more, skipBlanks cs = c :: more ∧ c ≠ ']'
  read : ∀ fuel depth rest, 2 * cs.length < fuel →
    readItems fuel depth (cs ++ rest) =
      if Value.nestingOfItems items ≤ depth then some (items, rest) else none

/-- a text of entries, up to the closing brace, that come after other ones -/
structure ReadsEntries (entries : Fields) (cs : List Char) : Prop where
  head : ∃ c more, skipBlanks cs = c :: more ∧ c ≠ '\x7d'
  read : ∀ fuel depth seen rest, 2 * cs.length < fuel → (seen ++ entries).names.Nodup →
    readEntries fuel depth seen (cs ++ rest) =
      if Value.nestingOfEntries entries ≤ depth then some (seen ++ entries, rest) else none

/-- A value without parts is read by its first character. -/
theorem reads_scalar (hhead : ∃ c more, cs = c :: more ∧ isBlank c = false ∧ c ≠ ']')
    (hnesting : value.nesting = 0)
    (hread : ∀ fuel depth rest, Ends rest →
      readValue (fuel + 1) depth (cs ++ rest) = some (value, rest)) : Reads value cs := by
  refine ⟨hhead, fun fuel depth rest hfuel hends => ?_⟩
  obtain ⟨c, more, rfl, -, -⟩ := hhead
  rw [List.length_cons] at hfuel
  obtain ⟨fuel, rfl⟩ := Nat.exists_eq_succ_of_ne_zero (show fuel ≠ 0 by omega)
  rw [hread fuel depth rest hends, hnesting, if_pos (Nat.zero_le _)]

theorem reads_null : Reads .null ['n', 'u', 'l', 'l'] :=
  reads_scalar ⟨_, _, rfl, rfl, by decide⟩ rfl fun fuel depth rest _ => by
    simp [readValue, skipBlanks]

theorem reads_true : Reads (.bool true) ['t', 'r', 'u', 'e'] :=
  reads_scalar ⟨_, _, rfl, rfl, by decide⟩ rfl fun fuel depth rest _ => by
    simp [readValue, skipBlanks]

theorem reads_false : Reads (.bool false) ['f', 'a', 'l', 's', 'e'] :=
  reads_scalar ⟨_, _, rfl, rfl, by decide⟩ rfl fun fuel depth rest _ => by
    simp [readValue, skipBlanks]

theorem reads_quote (text : String) : Reads (.string text) (quote text) := by
  refine reads_scalar ⟨_, _, rfl, rfl, by decide⟩ rfl fun fuel depth rest _ => ?_
  rw [quote, List.cons_append, readValue, skipBlanks_cons rfl]
  simp [readText_quoted]

theorem not_isBlank_of_startsNumber (h : startsNumber c = true) : isBlank c = false := by
  refine Bool.eq_false_iff.mpr fun hblank => ?_
  simp only [isBlank, Bool.or_eq_true, decide_eq_true_eq] at hblank
  obtain ((rfl | rfl) | rfl) | rfl := hblank <;> exact absurd h (by decide)

/-- Where a sign or a digit stands, a number is read. -/
theorem readValue_number (h : startsNumber c = true) :
    readValue (fuel + 1) depth (c :: cs) = readNumber (c :: cs) := by
  rw [readValue, skipBlanks_cons (not_isBlank_of_startsNumber h)]
  split
  case h_7 => rfl
  all_goals
    rename_i heq
    obtain ⟨rfl, -⟩ := List.cons.inj heq
    exact absurd h (by decide)

theorem reads_number {n : Number} (h : readNumber n.text = some (.number n, [])) :
    Reads (.number n) n.text := by
  obtain ⟨c, more, htext, hc⟩ := readNumber_head h
  refine reads_scalar ⟨c, more, htext, not_isBlank_of_startsNumber hc, ?_⟩ rfl
    fun fuel depth rest hends => ?_
  · rintro rfl
    exact absurd hc (by decide)
  · rw [htext, List.cons_append, readValue_number hc, ← List.cons_append, ← htext]
    exact readNumber_append hends h

/-! ## Texts of items -/

/-- A number may stand before blanks and a mark. -/
theorem ends_append (hblank : Blank blank) (hc : continues c = false) :
    Ends (blank ++ c :: rest) := by
  rintro d more heq
  cases blank with
  | nil =>
    obtain ⟨rfl, -⟩ := List.cons.inj heq
    exact hc
  | cons b blank =>
    obtain ⟨rfl, -⟩ := List.cons.inj heq
    have hb := hblank b (List.mem_cons_self ..)
    simp only [isBlank, Bool.or_eq_true, decide_eq_true_eq] at hb
    obtain ((rfl | rfl) | rfl) | rfl := hb <;> rfl

theorem Reads.skipBlanks_eq (h : Reads value cs) (hblank : Blank blank) :
    skipBlanks (blank ++ cs ++ rest) = cs ++ rest := by
  obtain ⟨c, more, rfl, hc, -⟩ := h.head
  rw [List.append_assoc, skipBlanks_append hblank, List.cons_append, skipBlanks_cons hc]

/-- The text of a value may stand behind blanks. -/
theorem Reads.readValue_eq (h : Reads value cs) (hblank : Blank blank)
    (hfuel : 2 * cs.length ≤ fuel) (hends : Ends rest) :
    readValue fuel depth (blank ++ cs ++ rest) =
      if value.nesting ≤ depth then some (value, rest) else none := by
  rw [← readValue_skipBlanks, h.skipBlanks_eq hblank, h.read fuel depth rest hfuel hends]

/-- An item is read, and then the mark behind it tells whether there are more. -/
theorem readItems_item (h : Reads item cs) (hblank : Blank blank) (hfuel : 2 * cs.length ≤ fuel)
    (hends : Ends rest) :
    readItems (fuel + 1) depth (blank ++ cs ++ rest) =
      if item.nesting ≤ depth then
        match skipBlanks rest with
        | ']' :: rest => some ([item], rest)
        | ',' :: rest =>
          (readItems fuel depth rest).bind fun found => some (item :: found.1, found.2)
        | _ => none
      else none := by
  rw [readItems, h.readValue_eq hblank hfuel hends]
  by_cases hdepth : item.nesting ≤ depth
  · rw [if_pos hdepth, if_pos hdepth]
    rfl
  · rw [if_neg hdepth, if_neg hdepth]
    rfl

/-- The last of some items stands before the closing bracket. -/
theorem readsItems_last (h : Reads item cs) (hblank : Blank blank) (hblank' : Blank blank') :
    ReadsItems [item] (blank ++ cs ++ (blank' ++ [']'])) := by
  obtain ⟨c, more, hcs, -, hbracket⟩ := h.head
  refine ⟨⟨c, more ++ (blank' ++ [']']), ?_, hbracket⟩, fun fuel depth rest hfuel => ?_⟩
  · rw [h.skipBlanks_eq hblank, hcs, List.cons_append]
  obtain ⟨fuel, rfl⟩ := Nat.exists_eq_succ_of_ne_zero (show fuel ≠ 0 by omega)
  have htext : blank ++ cs ++ (blank' ++ [']']) ++ rest =
      blank ++ cs ++ (blank' ++ ']' :: rest) := by simp
  rw [htext, readItems_item h hblank (by grind) (ends_append hblank' rfl),
    skipBlanks_append hblank', skipBlanks_cons (c := ']') rfl]
  simp [Value.nestingOfItems]

/-- Any other item stands before a comma. -/
theorem readsItems_cons (h : Reads item cs) (hblank : Blank blank) (hblank' : Blank blank')
    (hmore : ReadsItems items more) :
    ReadsItems (item :: items) (blank ++ cs ++ (blank' ++ ',' :: more)) := by
  obtain ⟨c, after, hcs, -, hbracket⟩ := h.head
  refine ⟨⟨c, after ++ (blank' ++ ',' :: more), ?_, hbracket⟩, fun fuel depth rest hfuel => ?_⟩
  · rw [h.skipBlanks_eq hblank, hcs, List.cons_append]
  obtain ⟨fuel, rfl⟩ := Nat.exists_eq_succ_of_ne_zero (show fuel ≠ 0 by omega)
  have htext : blank ++ cs ++ (blank' ++ ',' :: more) ++ rest =
      blank ++ cs ++ (blank' ++ ',' :: (more ++ rest)) := by simp
  have hitems := hmore.read fuel depth rest (by grind)
  rw [htext, readItems_item h hblank (by grind) (ends_append hblank' rfl),
    skipBlanks_append hblank', skipBlanks_cons (c := ',') rfl]
  simp only [hitems, Value.nestingOfItems, Nat.max_le]
  by_cases hdepth : item.nesting ≤ depth
  · by_cases hrest : Value.nestingOfItems items ≤ depth <;> simp [hdepth, hrest]
  · simp [hdepth]

/-! ## Texts of entries -/

theorem skipBlanks_quote (hblank : Blank blank) :
    skipBlanks (blank ++ quote name ++ rest) =
      '"' :: (name.toList.flatMap escape ++ '"' :: rest) := by
  rw [List.append_assoc, skipBlanks_append hblank, quote, List.cons_append, skipBlanks_cons rfl]
  simp

/-- The name and the value of an entry are read, wherever blanks stand between. -/
theorem readEntries_entry (h : Reads value cs) (hblank : Blank blank) (hblank' : Blank blank')
    (hfuel : 2 * cs.length ≤ fuel) (hends : Ends rest) :
    readEntries (fuel + 1) depth seen (blank ++ quote name ++ ':' :: (blank' ++ cs ++ rest)) =
      if value.nesting ≤ depth then
        match skipBlanks rest with
        | '\x7d' :: rest => some (Fields.insert name value seen, rest)
        | ',' :: rest => readEntries fuel depth (Fields.insert name value seen) rest
        | _ => none
      else none := by
  have hread : readValue fuel depth (blank' ++ cs ++ rest) =
      if value.nesting ≤ depth then some (value, rest) else none :=
    h.readValue_eq hblank' hfuel hends
  rw [readEntries, skipBlanks_quote hblank]
  simp only [readText_quoted, Option.bind_eq_bind, Option.bind_some, skipBlanks_cons (c := ':') rfl,
    String.ofList_toList, hread]
  by_cases hdepth : value.nesting ≤ depth
  · rw [if_pos hdepth, if_pos hdepth]
    rfl
  · rw [if_neg hdepth, if_neg hdepth]
    rfl

/-- Names that do not repeat are new one by one. -/
theorem not_mem_of_nodup (h : (seen ++ (name, value) :: entries).names.Nodup) :
    name ∉ seen.names := by
  rw [Fields.names, List.map_append, List.map_cons] at h
  exact fun hmem => (List.nodup_append.mp h).2.2 name hmem name (List.mem_cons_self ..) rfl

/-- The last of some entries stands before the closing brace. -/
theorem readsEntries_last (h : Reads value cs) (hblank : Blank blank) (hblank' : Blank blank')
    (hblank'' : Blank blank'') :
    ReadsEntries [(name, value)]
      (blank ++ quote name ++ ':' :: (blank' ++ cs ++ (blank'' ++ ['\x7d']))) := by
  refine ⟨⟨_, _, skipBlanks_quote hblank, by decide⟩,
    fun fuel depth seen rest hfuel hdistinct => ?_⟩
  obtain ⟨fuel, rfl⟩ := Nat.exists_eq_succ_of_ne_zero (show fuel ≠ 0 by omega)
  have htext : blank ++ quote name ++ ':' :: (blank' ++ cs ++ (blank'' ++ ['\x7d'])) ++ rest =
      blank ++ quote name ++ ':' :: (blank' ++ cs ++ (blank'' ++ '\x7d' :: rest)) := by simp
  have hnew : name ∉ seen.names := not_mem_of_nodup hdistinct
  rw [htext, readEntries_entry h hblank hblank' (by grind) (ends_append hblank'' rfl),
    skipBlanks_append hblank'', skipBlanks_cons (c := '\x7d') rfl]
  simp [Value.nestingOfEntries, Fields.insert_of_not_mem hnew]

/-- Any other entry stands before a comma. -/
theorem readsEntries_cons (h : Reads value cs) (hblank : Blank blank) (hblank' : Blank blank')
    (hblank'' : Blank blank'') (hmore : ReadsEntries entries more) :
    ReadsEntries ((name, value) :: entries)
      (blank ++ quote name ++ ':' :: (blank' ++ cs ++ (blank'' ++ ',' :: more))) := by
  refine ⟨⟨_, _, skipBlanks_quote hblank, by decide⟩,
    fun fuel depth seen rest hfuel hdistinct => ?_⟩
  obtain ⟨fuel, rfl⟩ := Nat.exists_eq_succ_of_ne_zero (show fuel ≠ 0 by omega)
  have htext : blank ++ quote name ++ ':' :: (blank' ++ cs ++ (blank'' ++ ',' :: more)) ++ rest =
      blank ++ quote name ++ ':' :: (blank' ++ cs ++ (blank'' ++ ',' :: (more ++ rest))) := by simp
  have hnew : name ∉ seen.names := not_mem_of_nodup hdistinct
  have hentries := hmore.read fuel depth (seen ++ [(name, value)]) rest (by grind)
    (by simpa using hdistinct)
  rw [htext, readEntries_entry h hblank hblank' (by grind) (ends_append hblank'' rfl),
    skipBlanks_append hblank'', skipBlanks_cons (c := ',') rfl]
  simp only [Fields.insert_of_not_mem hnew, hentries, Value.nestingOfEntries, Nat.max_le,
    List.append_assoc, List.singleton_append]
  by_cases hdepth : value.nesting ≤ depth <;> simp [hdepth]

/-! ## Texts of lists and mappings -/

theorem reads_list_nil : Reads (.list []) ['[', ']'] := by
  refine ⟨⟨_, _, rfl, rfl, by decide⟩, fun fuel depth rest hfuel _ => ?_⟩
  obtain ⟨fuel, rfl⟩ := Nat.exists_eq_succ_of_ne_zero (show fuel ≠ 0 by grind)
  cases depth <;> simp [readValue, skipBlanks, Value.nesting, Value.nestingOfItems]

theorem reads_object_nil : Reads (.object []) ['\x7b', '\x7d'] := by
  refine ⟨⟨_, _, rfl, rfl, by decide⟩, fun fuel depth rest hfuel _ => ?_⟩
  obtain ⟨fuel, rfl⟩ := Nat.exists_eq_succ_of_ne_zero (show fuel ≠ 0 by grind)
  cases depth <;> simp [readValue, skipBlanks, Value.nesting, Value.nestingOfEntries]

theorem skipBlanks_append_of_head (h : skipBlanks cs = c :: more) :
    skipBlanks (cs ++ rest) = c :: (more ++ rest) := by
  have hne : (cs.dropWhile fun c => c = ' ' || c = '\n' || c = '\t' || c = '\r') = c :: more := h
  rw [skipBlanks, List.dropWhile_append, hne]
  rfl

/-- Items stand between brackets. -/
theorem reads_list (h : ReadsItems items cs) : Reads (.list items) ('[' :: cs) := by
  refine ⟨⟨_, _, rfl, rfl, by decide⟩, fun fuel depth rest hfuel _ => ?_⟩
  rw [List.length_cons] at hfuel
  obtain ⟨fuel, rfl⟩ := Nat.exists_eq_succ_of_ne_zero (show fuel ≠ 0 by omega)
  obtain ⟨c, more, hcs, hbracket⟩ := h.head
  have hskip : skipBlanks (cs ++ rest) = c :: (more ++ rest) := skipBlanks_append_of_head hcs
  cases depth with
  | zero => simp [readValue, skipBlanks, Value.nesting]
  | succ depth =>
    have hitems : readItems fuel depth (c :: (more ++ rest)) =
        if Value.nestingOfItems items ≤ depth then some (items, rest) else none := by
      rw [← hskip, readItems_skipBlanks, h.read fuel depth rest (by omega)]
    rw [List.cons_append, readValue, skipBlanks_cons rfl]
    simp only [hskip, if_neg (Nat.succ_ne_zero depth), Nat.add_sub_cancel, Value.nesting,
      Nat.add_le_add_iff_right]
    split
    · rename_i heq
      exact absurd (List.cons.inj heq).1 hbracket
    · rw [hitems]
      by_cases hdepth : Value.nestingOfItems items ≤ depth <;> simp [hdepth]

/-- Entries of different names stand between braces. -/
theorem reads_object (h : ReadsEntries entries cs) (hdistinct : entries.names.Nodup) :
    Reads (.object entries) ('\x7b' :: cs) := by
  refine ⟨⟨_, _, rfl, rfl, by decide⟩, fun fuel depth rest hfuel _ => ?_⟩
  rw [List.length_cons] at hfuel
  obtain ⟨fuel, rfl⟩ := Nat.exists_eq_succ_of_ne_zero (show fuel ≠ 0 by omega)
  obtain ⟨c, more, hcs, hbrace⟩ := h.head
  have hskip : skipBlanks (cs ++ rest) = c :: (more ++ rest) := skipBlanks_append_of_head hcs
  cases depth with
  | zero => simp [readValue, skipBlanks, Value.nesting]
  | succ depth =>
    have hentries : readEntries fuel depth [] (c :: (more ++ rest)) =
        if Value.nestingOfEntries entries ≤ depth then some (entries, rest) else none := by
      rw [← hskip, readEntries_skipBlanks, h.read fuel depth [] rest (by omega) hdistinct]
      rfl
    rw [List.cons_append, readValue, skipBlanks_cons rfl]
    simp only [hskip, if_neg (Nat.succ_ne_zero depth), Nat.add_sub_cancel, Value.nesting,
      Nat.add_le_add_iff_right]
    split
    · rename_i heq
      exact absurd (List.cons.inj heq).1 hbrace
    · rw [hentries]
      by_cases hdepth : Value.nestingOfEntries entries ≤ depth <;> simp [hdepth]

/-! ## What is written -/

mutual
/-- What is written compactly is a text of the value. -/
theorem reads_write : (value : Value) → value.Readable → Reads value (write value)
  | .null, _ => reads_null
  | .bool true, _ => reads_true
  | .bool false, _ => reads_false
  | .number _, h => reads_number h
  | .string text, _ => reads_quote text
  | .list [], _ => reads_list_nil
  | .list (item :: rest), h => reads_list (readsItems_write (item :: rest) (List.cons_ne_nil _ _) h)
  | .object [], _ => reads_object_nil
  | .object (entry :: rest), ⟨hdistinct, h⟩ =>
    reads_object (readsEntries_write (entry :: rest) (List.cons_ne_nil _ _) h) hdistinct
theorem readsItems_write : (items : List Value) → items ≠ [] → Value.ReadableItems items →
    ReadsItems items (writeItems items ++ [']'])
  | [], hne, _ => absurd rfl hne
  | [item], _, h => by
    simpa [writeItems] using readsItems_last (reads_write item h.1) blank_nil blank_nil
  | item :: next :: rest, _, h => by
    simpa [writeItems] using readsItems_cons (reads_write item h.1) blank_nil blank_nil
      (readsItems_write (next :: rest) (List.cons_ne_nil _ _) h.2)
theorem readsEntries_write : (entries : Fields) → entries ≠ [] → Value.ReadableEntries entries →
    ReadsEntries entries (writeEntries entries ++ ['\x7d'])
  | [], hne, _ => absurd rfl hne
  | [(name, value)], _, h => by
    simpa [writeEntries] using
      readsEntries_last (reads_write value h.1) blank_nil blank_nil blank_nil
  | (name, value) :: next :: rest, _, h => by
    simpa [writeEntries] using readsEntries_cons (reads_write value h.1) blank_nil blank_nil
      blank_nil (readsEntries_write (next :: rest) (List.cons_ne_nil _ _) h.2)
end

mutual
/-- What is written with indentation is a text of the value. -/
theorem reads_writeIndented : (level : Nat) → (value : Value) → value.Readable →
    Reads value (writeIndented level value)
  | _, .null, _ => reads_null
  | _, .bool true, _ => reads_true
  | _, .bool false, _ => reads_false
  | _, .number _, h => reads_number h
  | _, .string text, _ => reads_quote text
  | _, .list [], _ => reads_list_nil
  | level, .list (item :: rest), h => by
    have hitem := reads_writeIndented (level + 1) item h.1
    simpa [writeIndented] using reads_list (readsItems_writeIndented level rest h.2 item _ hitem)
  | _, .object [], _ => reads_object_nil
  | level, .object ((name, value) :: rest), ⟨hdistinct, h⟩ => by
    have hvalue := reads_writeIndented (level + 1) value h.1
    simpa [writeIndented] using
      reads_object (readsEntries_writeIndented level rest h.2 name value _ hvalue) hdistinct
theorem readsItems_writeIndented : (level : Nat) → (rest : List Value) → Value.ReadableItems rest →
    (item : Value) → (cs : List Char) → Reads item cs →
    ReadsItems (item :: rest) (newLine (level + 1) ++ cs ++ writeIndentedItems level rest)
  | level, [], _, item, cs, hitem => by
    simpa [writeIndentedItems] using
      readsItems_last hitem (blank_newLine (level + 1)) (blank_newLine level)
  | level, next :: rest, h, item, cs, hitem => by
    have hnext := reads_writeIndented (level + 1) next h.1
    simpa [writeIndentedItems] using readsItems_cons hitem (blank_newLine (level + 1)) blank_nil
      (readsItems_writeIndented level rest h.2 next _ hnext)
theorem readsEntries_writeIndented : (level : Nat) → (rest : Fields) →
    Value.ReadableEntries rest → (name : String) → (value : Value) → (cs : List Char) →
    Reads value cs → ReadsEntries ((name, value) :: rest)
      (newLine (level + 1) ++ quote name ++ [':', ' '] ++ cs ++ writeIndentedEntries level rest)
  | level, [], _, name, value, cs, hvalue => by
    simpa [writeIndentedEntries] using readsEntries_last hvalue (blank_newLine (level + 1))
      (List.forall_mem_singleton.mpr rfl) (blank_newLine level)
  | level, (next, other) :: rest, h, name, value, cs, hvalue => by
    have hother := reads_writeIndented (level + 1) other h.1
    simpa [writeIndentedEntries] using readsEntries_cons hvalue (blank_newLine (level + 1))
      (List.forall_mem_singleton.mpr rfl) blank_nil
      (readsEntries_writeIndented level rest h.2 next other _ hother)
end

/-- **Values read back.** A text of a value is read as a whole if and only if the value does not
nest too deeply. -/
theorem readChars?_eq (h : Reads value cs) :
    readChars? cs = if value.nesting ≤ maxDepth then some value else none := by
  have hread := h.read (2 * cs.length + 2) maxDepth [] (by omega) ends_nil
  rw [List.append_nil] at hread
  rw [readChars?, hread]
  by_cases hdepth : value.nesting ≤ maxDepth
  · rw [if_pos hdepth, if_pos hdepth]
    rfl
  · rw [if_neg hdepth, if_neg hdepth]
    rfl

end Json

end TableRecipe
