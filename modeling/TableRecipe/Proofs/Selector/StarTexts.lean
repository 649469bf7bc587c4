import TableRecipe.Proofs.Number.Whole
import TableRecipe.Proofs.Selector.Meanings

/-!
# The texts of stars

A wildcard selects the columns whose names are the wildcard with a text in place of each star. A new
name with stars takes these texts over, star by star, and everything else as it is.

* `Wildcard.filled` — a name with its stars replaced by texts;
* `Wildcard.StandFor` — the texts for which the stars of a wildcard stand in a name;
* `Wildcard.replaceFirst_regex` — the new name of a column;
* `Selector.expand_wildcard` — the columns of a wildcard and their new names.
-/

namespace TableRecipe

namespace Wildcard

open Pattern (Part Cut Preferred)

/-- a name with its stars replaced by texts, in order; stars beyond the texts stand for nothing -/
def filled : (texts : List (List Char)) → (name : List Char) → List Char
  | _, [] => []
  | texts, c :: rest =>
    if c = '*' then texts.headD [] ++ filled texts.tail rest else c :: filled texts rest

/-- texts, one for each star of a wildcard, that make it a name -/
structure Fill (wildcard name : List Char) (texts : List (List Char)) : Prop where
  /-- there is one for each star -/
  count : texts.length = wildcard.count '*'
  /-- with them the wildcard is the name -/
  makes : name = filled texts wildcard

/-- the texts for which the stars of a wildcard stand in a name: of those that make it the name the
ones that are as long as possible, from the first on -/
structure StandFor (wildcard name : List Char) (texts : List (List Char)) : Prop
    extends Fill wildcard name texts where
  /-- no others have a longer text at the first star where the lengths differ -/
  longest : ∀ other, Fill wildcard name other →
    ¬List.Lex (· < ·) (texts.map List.length) (other.map List.length)

variable {wildcard name : List Char} {texts other cut : List (List Char)} {c : Char}

theorem fill_nil : Fill [] name texts ↔ texts = [] ∧ name = [] := by
  constructor
  · rintro ⟨hcount, rfl⟩
    exact ⟨List.eq_nil_of_length_eq_zero hcount, rfl⟩
  · rintro ⟨rfl, rfl⟩
    exact ⟨rfl, rfl⟩

theorem fill_star : Fill ('*' :: wildcard) name texts ↔
    ∃ text behind others, texts = text :: others ∧ name = text ++ behind ∧
      Fill wildcard behind others := by
  constructor
  · rintro ⟨hcount, rfl⟩
    rw [List.count_cons_self] at hcount
    obtain ⟨text, others, rfl⟩ := List.exists_cons_of_length_eq_add_one hcount
    exact ⟨text, _, others, rfl, rfl, Nat.succ.inj hcount, rfl⟩
  · rintro ⟨text, _, others, rfl, rfl, hcount, rfl⟩
    exact ⟨by rw [List.count_cons_self, ← hcount, List.length_cons], rfl⟩

theorem fill_char (hstar : c ≠ '*') : Fill (c :: wildcard) name texts ↔
    ∃ behind, name = c :: behind ∧ Fill wildcard behind texts := by
  have hcount : (c :: wildcard).count '*' = wildcard.count '*' := List.count_cons_of_ne hstar
  have hfilled : filled texts (c :: wildcard) = c :: filled texts wildcard := by
    rw [filled, if_neg hstar]
  constructor
  · rintro ⟨h, rfl⟩
    exact ⟨_, hfilled, hcount ▸ h, rfl⟩
  · rintro ⟨_, rfl, h, rfl⟩
    exact ⟨hcount ▸ h, hfilled.symm⟩

/-! ## Cuts along a wildcard -/

/-- the cut of a name that texts make of a wildcard -/
def spread : (wildcard : List Char) → (texts : List (List Char)) → List (List Char)
  | [], _ => []
  | c :: rest, texts =>
    if c = '*' then texts.headD [] :: spread rest texts.tail else [c] :: spread rest texts

/-- A name is cut by texts that make a wildcard the name. -/
theorem cut_iff (hlines : '\n' ∉ name) : Cut {} (wildcard.map part) name cut ↔
    ∃ texts, Fill wildcard name texts ∧ cut = spread wildcard texts := by
  induction wildcard generalizing name cut with
  | nil =>
    simp only [List.map_nil, Pattern.cut_nil, fill_nil, spread]
    constructor
    · rintro ⟨rfl, rfl⟩
      exact ⟨[], ⟨rfl, rfl⟩, rfl⟩
    · rintro ⟨texts, ⟨-, rfl⟩, rfl⟩
      exact ⟨rfl, rfl⟩
  | cons c rest ih =>
    rw [List.map_cons, Pattern.cut_cons]
    by_cases hstar : c = '*'
    · subst hstar
      simp only [fill_star, show part '*' = .group from rfl, takes_group]
      constructor
      · rintro ⟨taken, behind, others, rfl, rfl, -, hothers⟩
        obtain ⟨texts, htexts, rfl⟩ := (ih fun h => hlines (List.mem_append_right _ h)).mp hothers
        exact ⟨taken :: texts, ⟨taken, behind, texts, rfl, rfl, htexts⟩, rfl⟩
      · rintro ⟨_, ⟨text, behind, texts, rfl, rfl, htexts⟩, rfl⟩
        exact ⟨text, behind, _, rfl, rfl, fun h => hlines (List.mem_append_left _ h),
          (ih fun h => hlines (List.mem_append_right _ h)).mpr ⟨texts, htexts, rfl⟩⟩
    · simp only [fill_char hstar, show part c = .literal c from if_neg hstar, takes_literal]
      constructor
      · rintro ⟨_, behind, others, rfl, rfl, rfl, hothers⟩
        obtain ⟨texts, htexts, rfl⟩ := (ih fun h => hlines (List.mem_append_right _ h)).mp hothers
        exact ⟨texts, ⟨behind, rfl, htexts⟩, by rw [spread, if_neg hstar]⟩
      · rintro ⟨texts, ⟨behind, rfl, htexts⟩, rfl⟩
        exact ⟨[c], behind, spread rest texts, by rw [spread, if_neg hstar], rfl, rfl,
          (ih fun h => hlines (List.mem_cons_of_mem _ h)).mpr ⟨texts, htexts, rfl⟩⟩

/-- The groups of a cut are the texts of the stars. -/
theorem groupTexts_spread (hcount : texts.length = wildcard.count '*') :
    Pattern.groupTexts (wildcard.map part) (spread wildcard texts) = texts := by
  induction wildcard generalizing texts with
  | nil => exact (List.eq_nil_of_length_eq_zero hcount).symm
  | cons c rest ih =>
    by_cases hstar : c = '*'
    · subst hstar
      rw [List.count_cons_self] at hcount
      obtain ⟨text, others, rfl⟩ := List.exists_cons_of_length_eq_add_one hcount
      exact congrArg (text :: ·) (ih (Nat.succ.inj hcount))
    · rw [List.count_cons_of_ne hstar] at hcount
      rw [spread, if_neg hstar, List.map_cons, show part c = .literal c from if_neg hstar]
      exact ih hcount

/-- Cuts are in the order in which the texts of the stars are. -/
theorem lex_spread (hcount : texts.length = wildcard.count '*')
    (hother : other.length = wildcard.count '*')
    (hless : List.Lex (· < ·) (texts.map List.length) (other.map List.length)) :
    List.Lex (· < ·) ((spread wildcard texts).map List.length)
      ((spread wildcard other).map List.length) := by
  induction wildcard generalizing texts other with
  | nil =>
    rw [List.eq_nil_of_length_eq_zero hother] at hless
    exact absurd hless List.not_lex_nil
  | cons c rest ih =>
    by_cases hstar : c = '*'
    · subst hstar
      rw [List.count_cons_self] at hcount hother
      obtain ⟨text, texts, rfl⟩ := List.exists_cons_of_length_eq_add_one hcount
      obtain ⟨first, other, rfl⟩ := List.exists_cons_of_length_eq_add_one hother
      refine List.cons_lex_cons_iff.mpr ((List.cons_lex_cons_iff.mp hless).imp_right ?_)
      exact And.imp_right (ih (Nat.succ.inj hcount) (Nat.succ.inj hother))
    · rw [List.count_cons_of_ne hstar] at hcount hother
      rw [spread, spread, if_neg hstar, if_neg hstar]
      exact .cons (ih hcount hother hless)

/-- The texts of the stars in the preferred cut are those for which they stand. -/
theorem standFor_of_preferred (hlines : '\n' ∉ name)
    (h : Preferred {} (wildcard.map part) name cut) :
    StandFor wildcard name (Pattern.groupTexts (wildcard.map part) cut) := by
  obtain ⟨texts, htexts, rfl⟩ := (cut_iff hlines).mp h.toCut
  rw [groupTexts_spread htexts.count]
  refine ⟨htexts, fun other hother hless => ?_⟩
  exact h.longest _ ((cut_iff hlines).mpr ⟨other, hother, rfl⟩)
    (lex_spread htexts.count hother.count hless)

/-! ## New names -/

theorem toList_toString (number : Nat) : (toString number).toList = Nat.toDigits 10 number := by
  simp [toString, Nat.repr]

/-- A number names the group of that number. -/
theorem groupNumber?_toDigits (regex : Pattern.Regex) (number : Nat) :
    regex.groupNumber? (Nat.toDigits 10 number) = some number := by
  have hdigits : ∀ c ∈ Nat.toDigits 10 number, Letter.isAsciiDigit c = true :=
    fun c => Decimal.isDigit_of_mem_toDigits
  have hnumber := Decimal.natural_toDigits number
  obtain ⟨first, rest, hfirst⟩ := List.exists_cons_of_ne_nil (@Nat.toDigits_ne_nil number 10)
  rw [hfirst] at hdigits hnumber ⊢
  have hplus : first ≠ '+' := by
    rintro rfl
    exact absurd (hdigits '+' List.mem_cons_self) (by decide)
  rw [Pattern.Regex.groupNumber?]
  · rw [if_pos (by simpa using hdigits)]
    exact congrArg some hnumber
  · exact fun _ hsign => hplus (List.cons.inj hsign).1

variable {search : Pattern.Regex} {text : List Char} {slots : Pattern.Slots} {number fuel : Nat}

theorem fill_reference (rest : List Char) :
    search.fill text slots (fuel + 1)
        ('$' :: '\x7b' :: ((toString number).toList ++ '\x7d' :: rest)) =
      Pattern.Regex.group text slots number ++ search.fill text slots fuel rest := by
  have hbrace : ∀ c ∈ Nat.toDigits 10 number, c ≠ '\x7d' := fun c hc =>
    Decimal.forall_digit (p := (· ≠ '\x7d')) (by decide) (Decimal.isDigit_of_mem_toDigits hc)
  rw [toList_toString]
  have htake : (Nat.toDigits 10 number ++ '\x7d' :: rest).takeWhile (· ≠ '\x7d') =
      Nat.toDigits 10 number := by
    rw [List.takeWhile_append_of_pos (by simpa using hbrace)]
    simp
  rw [Pattern.Regex.fill]
  simp only [htake, List.drop_left]
  rw [Pattern.Regex.fill.filled, groupNumber?_toDigits]

theorem fill_dollar (rest : List Char) :
    search.fill text slots (fuel + 1) ('$' :: '$' :: rest) =
      '$' :: search.fill text slots fuel rest := by
  rw [Pattern.Regex.fill]

theorem fill_plain (hdollar : c ≠ '$') (rest : List Char) :
    search.fill text slots (fuel + 1) (c :: rest) = c :: search.fill text slots fuel rest := by
  rw [Pattern.Regex.fill] <;> simp [hdollar]

/-- A template filled with the texts of groups, from the group after `number` on. -/
theorem fill_references
    (hgroups : ∀ number, 1 ≤ number →
      Pattern.Regex.group text slots number = texts[number - 1]?.getD [])
    (hfuel : (references (number + 1) name).length ≤ fuel) :
    search.fill text slots fuel (references (number + 1) name) =
      filled (texts.drop number) name := by
  induction name generalizing number fuel with
  | nil => cases fuel <;> rfl
  | cons c rest ih =>
    by_cases hstar : c = '*'
    · subst hstar
      have hreferences : references (number + 1) ('*' :: rest) =
          '$' :: '\x7b' :: ((toString (number + 1)).toList ++
            '\x7d' :: references (number + 1 + 1) rest) := by
        simp [references]
      rw [hreferences] at hfuel ⊢
      obtain ⟨fuel, rfl⟩ : ∃ more, fuel = more + 1 :=
        Nat.exists_eq_add_of_le' (by simp at hfuel; omega)
      rw [fill_reference, hgroups _ (Nat.succ_pos _), ih (by simp at hfuel; omega)]
      show texts[number]?.getD [] ++ filled (texts.drop (number + 1)) rest =
        (texts.drop number).headD [] ++ filled (texts.drop number).tail rest
      rw [List.tail_drop]
      simp [List.headD_eq_head?_getD]
    · obtain rfl | hdollar := eq_or_ne c '$'
      · rw [references, if_neg hstar, if_pos rfl] at hfuel ⊢
        obtain ⟨fuel, rfl⟩ : ∃ more, fuel = more + 1 :=
          Nat.exists_eq_add_of_le' (by simp at hfuel; omega)
        rw [fill_dollar, ih (by simp at hfuel; omega), filled, if_neg hstar]
      · rw [references, if_neg hstar, if_neg hdollar] at hfuel ⊢
        obtain ⟨fuel, rfl⟩ : ∃ more, fuel = more + 1 :=
          Nat.exists_eq_add_of_le' (by simp at hfuel; omega)
        rw [fill_plain hdollar, ih (by simpa using hfuel), filled, if_neg hstar]

/-- **The new name of a column.** In the template of a new name the stars are filled by the texts
for which those of the wildcard stand. -/
theorem replaceFirst_regex (hlines : '\n' ∉ name) (hmatches : Matches wildcard name) :
    ∃ texts, StandFor wildcard name texts ∧ ∀ replacement,
      (regex wildcard).replaceFirst name (template replacement) = filled texts replacement := by
  have hwhole : (regex wildcard).expression.IsWhole {} (wildcard.map part) :=
    Pattern.isWhole_lineText (wildcard.map part)
  obtain ⟨found, hfind⟩ := Option.isSome_iff_exists.mp (isMatch_regex.mpr hmatches)
  obtain ⟨cut, hcut, rfl⟩ := (Pattern.Regex.find?_eq_some_iff hwhole).mp hfind
  have hlength : (wildcard.map part).length = cut.length := hcut.takes.length_eq
  have hgroups (number : Nat) (hnumber : 1 ≤ number) :
      Pattern.Regex.group name (Pattern.marksToEnd 1 0 (wildcard.map part) cut [(0, 0)]) number =
        (Pattern.groupTexts (wildcard.map part) cut)[number - 1]?.getD [] := by
    have hgroup := @Pattern.group_marksToEnd (wildcard.map part) 1 [(0, 0)] cut [] hlength
      (Nat.le_refl 1) (fun other hother => by
        rw [Pattern.Slots.at?_cons, if_neg (by omega)]
        rfl) number hnumber
    rw [List.nil_append, ← hcut.joined, if_neg (by omega)] at hgroup
    exact hgroup
  refine ⟨_, standFor_of_preferred hlines hcut, fun replacement => ?_⟩
  obtain ⟨hstart, hend⟩ := @Pattern.at?_marksToEnd (wildcard.map part) 1 [(0, 0)] cut 0 hlength
    (Nat.le_refl 1)
  have hfill : (regex wildcard).fill name
      (Pattern.marksToEnd 1 0 (wildcard.map part) cut [(0, 0)])
      ((template replacement).length + 1) (template replacement) =
        filled (Pattern.groupTexts (wildcard.map part) cut) replacement :=
    fill_references hgroups (Nat.le_succ _)
  rw [Pattern.Regex.replaceFirst, hfind]
  simp [hstart, hend, ← hcut.joined, hfill, Pattern.Slots.at?_cons]

/-- A name matches if texts in place of the stars make it. -/
theorem matches_iff (hlines : '\n' ∉ name) :
    Matches wildcard name ↔ ∃ texts, Fill wildcard name texts := by
  rw [← isMatch_regex, Pattern.Regex.isMatch_iff (Pattern.isWhole_lineText (wildcard.map part))]
  simp only [cut_iff hlines]
  exact ⟨fun ⟨_, texts, htexts, _⟩ => ⟨texts, htexts⟩,
    fun ⟨texts, htexts⟩ => ⟨_, texts, htexts, rfl⟩⟩

/-- about how many states a matcher for a wildcard takes -/
def size (wildcard : List Char) : Nat := (wildcard.map fun c => if c = '*' then 28 else 1).sum + 2

theorem states_regex (hwildcard : wildcard ≠ []) :
    (regex wildcard).expression.states = size wildcard := by
  have hpart (c : Char) : ((part c).item {} 0).states = if c = '*' then 28 else 1 := by
    rw [part]
    split <;> rfl
  show (Pattern.lineText (wildcard.map part)).states = _
  rw [Pattern.states_lineText (by simpa using hwildcard), List.map_map, size]
  congr 3
  exact funext hpart

end Wildcard

namespace Selector

variable {columns found selected : List String} {text replacement : String}

/-- whether a text among columns is a wildcard that must find one -/
structure IsWildcard (columns : List String) (text : String) : Prop where
  /-- it has a star -/
  star : '*' ∈ text.toList
  /-- it is not the name of a column -/
  noColumn : text ∉ columns
  /-- it does not take columns away -/
  noMinus : text.toList.head? ≠ some '-'
  /-- it is no regular expression -/
  noPattern : ¬"regex:".toList <+: text.toList
  /-- it must select a column -/
  noQuestion : text.toList.getLast? ≠ some '?'

/-- the failure for a wildcard whose regular expression is too large -/
def tooLarge (text : String) : Error :=
  .validation (s!"invalid wildcard selector '{text}': " ++
    "Compiled regex exceeds size limit of 10485760 bytes.")

/-- what is read from a wildcard -/
def ofWildcard (text : String) : Selector where
  body := text
  negated := false
  optional := false
  kind := .wildcard (Wildcard.regex text.toList)

theorem read_wildcard (h : IsWildcard columns text) :
    read text = if Wildcard.size text.toList ≤ Pattern.Expression.maxStates then
      .ok (ofWildcard text) else .error (tooLarge text) := by
  have hnonempty : text.toList ≠ [] := List.ne_nil_of_mem h.star
  have hnegated : isNegated text = false := by simp [isNegated, h.noMinus]
  have hafter : Split.after? "regex:".toList text.toList = none := by
    rw [Split.after?, if_neg (mt List.isPrefixOf_iff_prefix.mp h.noPattern)]
  rw [read, hnegated]
  simp only [Bool.false_eq_true, if_false, h.noQuestion, decide_false]
  rw [kindOf, hafter]
  simp only [List.contains_eq_mem, h.star, decide_true, if_true]
  rw [Wildcard.wholeName?_expression, Wildcard.states_regex hnonempty]
  by_cases hsize : Wildcard.size text.toList ≤ Pattern.Expression.maxStates
  · rw [if_pos hsize, if_pos hsize, String.ofList_toList]
    rfl
  · rw [if_neg hsize, if_neg hsize]
    rfl

/-! ## Columns and new names -/

/-- Adding columns keeps their order. -/
theorem sublist_foldl_addOnce (found selected : List String) :
    (found.foldl addOnce selected).Sublist (selected ++ found) := by
  induction found generalizing selected with
  | nil => simp
  | cons first rest ih =>
    have hfirst : (addOnce selected first).Sublist (selected ++ [first]) := by
      rw [addOnce]
      split
      · exact List.sublist_append_left _ _
      · exact List.Sublist.refl _
    rw [List.foldl_cons, List.append_cons selected]
    exact (ih _).trans (hfirst.append_right rest)

theorem mem_foldl_addOnce {column : String} :
    column ∈ found.foldl addOnce [] ↔ column ∈ found := by
  obtain ⟨fresh, hfold, hmem, -⟩ := foldl_addOnce found []
  simp [hfold, hmem]

theorem nodup_foldl_addOnce : (found.foldl addOnce []).Nodup := by
  obtain ⟨fresh, hfold, -, hsorted⟩ := foldl_addOnce found []
  rw [hfold, List.nil_append]
  exact hsorted.imp fun hlt heq => Nat.ne_of_lt hlt (congrArg (List.idxOf · found) heq)

/-- A column gets its new name where it is, or behind the others. -/
theorem putName_map (name : String → String) (column : String) (selected : List String) :
    putName column (name column) (selected.map fun column => (column, name column)) =
      (addOnce selected column).map fun column => (column, name column) := by
  induction selected with
  | nil => rfl
  | cons first rest ih =>
    rw [List.map_cons, putName]
    by_cases hsame : first = column
    · subst hsame
      simp [addOnce]
    · have hrest : addOnce (first :: rest) column = first :: addOnce rest column := by
        simp only [addOnce, List.contains_cons]
        rw [beq_false_of_ne (Ne.symm hsame), Bool.false_or]
        split <;> rfl
      rw [if_neg hsame, ih, hrest]
      rfl

/-- Columns get their new names in the order in which they are selected. -/
theorem foldl_putName (name : String → String) (found selected : List String) :
    found.foldl (fun renames column => putName column (name column) renames)
        (selected.map fun column => (column, name column)) =
      (found.foldl addOnce selected).map fun column => (column, name column) := by
  induction found generalizing selected with
  | nil => rfl
  | cons first rest ih => rw [List.foldl_cons, List.foldl_cons, putName_map, ih]

/-- the columns that match a wildcard -/
def matched (columns : List String) (text : String) : List String :=
  columns.filter fun column => Wildcard.Matches text.toList column.toList

/-- A wildcard finds the columns that match it, of which there must be one. -/
theorem selectSome_ofWildcard (columns : List String) (text : String) :
    (ofWildcard text).selectSome columns =
      if matched columns text = [] then .error (.unknownColumn text)
      else .ok (matched columns text) := by
  have hselect : (ofWildcard text).select columns = .ok (matched columns text) := by
    simp only [select, ofWildcard, matched, ← Wildcard.isMatch_regex]
    simp
  rw [selectSome_of_ok hselect]
  exact if_congr (and_iff_left rfl) rfl rfl

/-- The columns of a wildcard, or why there are none. -/
theorem expand_eq_of_isWildcard (h : IsWildcard columns text) :
    expand columns [text] =
      if Wildcard.size text.toList ≤ Pattern.Expression.maxStates then
        if matched columns text = [] then .error (.unknownColumn text)
        else .ok ((matched columns text).foldl addOnce [])
      else .error (tooLarge text) := by
  have hnegated : isNegated text = false := by simp [isNegated, h.noMinus]
  have hread := read_wildcard h
  rw [expand_single hnegated]
  by_cases hsize : Wildcard.size text.toList ≤ Pattern.Expression.maxStates
  · rw [if_pos hsize] at hread ⊢
    rw [apply_of_read h.noColumn hread, selectSome_ofWildcard]
    split <;> rfl
  · rw [if_neg hsize] at hread ⊢
    exact apply_of_read_error h.noColumn hread

/-- The new names that a wildcard gives, or why there are none. -/
theorem expandRenames_eq_of_isWildcard (h : IsWildcard columns text) :
    expandRenames columns [(text, replacement)] =
      if Wildcard.size text.toList ≤ Pattern.Expression.maxStates then
        if matched columns text = [] then .error (.unknownColumn text)
        else .ok (((matched columns text).foldl addOnce []).map fun column =>
          (column, (ofWildcard text).renamed replacement column))
      else .error (tooLarge text) := by
  have happly : expandRenames columns [(text, replacement)] =
      applyRename columns [] (text, replacement) := by
    rw [expandRenames, List.foldlM_cons]
    simp
  rw [happly, applyRename, if_neg (by simpa using h.noColumn), read_wildcard h]
  by_cases hsize : Wildcard.size text.toList ≤ Pattern.Expression.maxStates
  · rw [if_pos hsize, if_pos hsize]
    show ((ofWildcard text).selectSome columns >>= fun found => _) = _
    rw [selectSome_ofWildcard]
    split
    · rfl
    · exact congrArg Except.ok (foldl_putName _ _ [])
  · rw [if_neg hsize, if_neg hsize]
    rfl

/-- what becomes of columns under a wildcard and a new name: those that are selected, and their new
names -/
structure TakenOver (columns : List String) (text replacement : String) (selected : List String)
    (renames : List (String × String)) : Prop where
  /-- the columns that texts in place of the stars make are selected -/
  mem_iff : ∀ column, column ∈ selected ↔
    column ∈ columns ∧ ∃ texts, Wildcard.Fill text.toList column.toList texts
  /-- each once -/
  nodup : selected.Nodup
  /-- in their order -/
  sublist : selected.Sublist columns
  /-- they get new names -/
  keys : renames.map (·.1) = selected
  /-- in the new name the stars are replaced by the texts for which those of the wildcard stand -/
  names : ∀ pair ∈ renames, ∃ texts, Wildcard.StandFor text.toList pair.1.toList texts ∧
    pair.2 = String.ofList (Wildcard.filled texts replacement.toList)
  /-- the wildcard as the new name changes nothing -/
  same : replacement = text → ∀ pair ∈ renames, pair.2 = pair.1

theorem mem_matched (hlines : ∀ column ∈ columns, '\n' ∉ column.toList) {column : String} :
    column ∈ matched columns text ↔
      column ∈ columns ∧ ∃ texts, Wildcard.Fill text.toList column.toList texts := by
  rw [matched, List.mem_filter, decide_eq_true_eq]
  exact and_congr_right fun hcolumn => Wildcard.matches_iff (hlines column hcolumn)

/-- The columns that match a wildcard take its texts over. -/
theorem takenOver_matched (hlines : ∀ column ∈ columns, '\n' ∉ column.toList) :
    TakenOver columns text replacement ((matched columns text).foldl addOnce [])
      (((matched columns text).foldl addOnce []).map fun column =>
        (column, (ofWildcard text).renamed replacement column)) := by
  have hnames (column : String) (hcolumn : column ∈ matched columns text) :
      ∃ texts, Wildcard.StandFor text.toList column.toList texts ∧ ∀ replacement,
        (ofWildcard text).renamed replacement column =
          String.ofList (Wildcard.filled texts replacement.toList) := by
    obtain ⟨hthere, hmatches⟩ := List.mem_filter.mp hcolumn
    obtain ⟨texts, htexts, hreplaced⟩ := Wildcard.replaceFirst_regex (hlines column hthere)
      (of_decide_eq_true hmatches)
    exact ⟨texts, htexts, fun replacement => congrArg String.ofList (hreplaced _)⟩
  refine ⟨fun column => mem_foldl_addOnce.trans (mem_matched hlines), nodup_foldl_addOnce, ?_, ?_,
    fun pair hpair => ?_, fun hsame pair hpair => ?_⟩
  · exact (sublist_foldl_addOnce _ []).trans List.filter_sublist
  · exact List.map_map.trans (List.map_id _)
  · obtain ⟨column, hcolumn, rfl⟩ := List.mem_map.mp hpair
    obtain ⟨texts, htexts, hrenamed⟩ := hnames column (mem_foldl_addOnce.mp hcolumn)
    exact ⟨texts, htexts, hrenamed replacement⟩
  · obtain ⟨column, hcolumn, rfl⟩ := List.mem_map.mp hpair
    obtain ⟨texts, htexts, hrenamed⟩ := hnames column (mem_foldl_addOnce.mp hcolumn)
    show (ofWildcard text).renamed replacement column = column
    rw [hrenamed, hsame, ← htexts.makes, String.ofList_toList]

/-- a wildcard of stars only -/
def stars (count : Nat) : String := String.ofList (List.replicate count '*')

theorem toList_stars (count : Nat) : (stars count).toList = List.replicate count '*' :=
  String.toList_ofList

theorem isWildcard_stars (count : Nat) : IsWildcard ["a"] (stars (count + 1)) := by
  have hall : ∀ c ∈ (stars (count + 1)).toList, c = '*' := fun c hc =>
    List.eq_of_mem_replicate (toList_stars _ ▸ hc)
  refine ⟨?_, fun hname => ?_, fun hminus => ?_, fun hpattern => ?_, fun hquestion => ?_⟩
  · rw [toList_stars]
    exact List.mem_replicate.mpr ⟨Nat.succ_ne_zero _, rfl⟩
  · have ha : 'a' ∈ (stars (count + 1)).toList := by
      rw [List.mem_singleton.mp hname]
      exact List.mem_singleton_self 'a'
    exact absurd (hall _ ha) (by decide)
  · exact absurd (hall _ (List.mem_of_head? hminus)) (by decide)
  · exact absurd (hall 'r' (hpattern.subset (by decide))) (by decide)
  · exact absurd (hall _ (List.mem_of_getLast? hquestion)) (by decide)

/-- One star stands for the name, the others for nothing. -/
theorem exists_fill_stars (count : Nat) (name : List Char) :
    ∃ texts, Wildcard.Fill (stars (count + 1)).toList name texts := by
  have hempty (count : Nat) :
      Wildcard.Fill (List.replicate count '*') [] (List.replicate count []) := by
    induction count with
    | zero => exact Wildcard.fill_nil.mpr ⟨rfl, rfl⟩
    | succ count ih => exact Wildcard.fill_star.mpr ⟨[], [], _, rfl, rfl, ih⟩
  rw [toList_stars]
  exact ⟨_, Wildcard.fill_star.mpr ⟨name, [], _, rfl, (List.append_nil _).symm, hempty count⟩⟩

theorem size_stars (count : Nat) : Wildcard.size (stars count).toList = count * 28 + 2 := by
  rw [toList_stars, Wildcard.size, List.map_replicate, List.sum_replicate_nat]
  rfl

end Selector

end TableRecipe
