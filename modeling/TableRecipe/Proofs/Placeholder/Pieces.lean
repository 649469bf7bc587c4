import TableRecipe.Placeholder.Basic
import TableRecipe.Proofs.Outcome

/-!
# Placeholders among other text

A placeholder is found wherever it stands: the text before it and the text behind it are read as
if they stood alone. So a text around a placeholder becomes what its parts become.

* `Placeholder.read?_eq_some` — the texts that begin with a placeholder;
* `Placeholder.pieces_around` — the pieces of a text around a placeholder;
* `Placeholder.Becomes`, `Placeholder.becomes_of_resolve` — what such a text becomes.
-/

namespace TableRecipe.Placeholder

variable {cs name after before left right : List Char} {bindings : Fields} {tolerant : Bool}

/-- a name that a placeholder may hold -/
def IsName (name : List Char) : Prop := name ≠ [] ∧ ∀ c ∈ name, isNamePart c = true

instance : Decidable (IsName name) :=
  decidable_of_iff (name ≠ [] ∧ name.all isNamePart) (by rw [List.all_eq_true]; rfl)

theorem IsName.not_mem_open (h : IsName name) : '\x7b' ∉ name := by
  intro hmem
  exact absurd (h.2 _ hmem) (by decide)

/-! ## Reading -/

/-- A text begins with a placeholder if it is that placeholder and some text after it. -/
theorem read?_eq_some :
    read? cs = some (name, after) ↔ IsName name ∧ cs = write name ++ after := by
  constructor
  · intro h
    simp only [read?] at h
    split at h
    · rename_i rest
      split at h
      · rename_i c part tail htake hdrop
        obtain ⟨rfl, rfl⟩ := Prod.mk.inj (Option.some.inj h)
        refine ⟨⟨nofun, ?_⟩, ?_⟩
        · rw [← htake]
          exact fun c hc => List.all_eq_true.mp List.all_takeWhile c hc
        · have happend := List.takeWhile_append_dropWhile (p := isNamePart) (l := rest)
          rw [htake, hdrop] at happend
          simp [write, ← happend]
      · cases h
    · cases h
  · rintro ⟨⟨hne, hparts⟩, rfl⟩
    have htake : (name ++ '\x7d' :: after).takeWhile isNamePart = name := by
      rw [List.takeWhile_append_of_pos hparts]
      simp [isNamePart]
    have hdrop : (name ++ '\x7d' :: after).dropWhile isNamePart = '\x7d' :: after := by
      rw [List.dropWhile_append_of_pos hparts]
      simp [isNamePart]
    obtain ⟨c, part, rfl⟩ := List.exists_cons_of_ne_nil hne
    have hwrite : write (c :: part) ++ after = '$' :: '\x7b' :: (c :: part ++ '\x7d' :: after) := by
      simp [write]
    rw [hwrite, read?]
    simp only [htake, hdrop]

theorem read?_write (h : IsName name) : read? (write name ++ after) = some (name, after) :=
  read?_eq_some.mpr ⟨h, rfl⟩

/-- Text behind a placeholder does not change that it is one. -/
theorem read?_append_of_some (h : read? cs = some (name, after)) :
    read? (cs ++ right) = some (name, after ++ right) := by
  obtain ⟨hname, rfl⟩ := read?_eq_some.mp h
  rw [List.append_assoc]
  exact read?_write hname

theorem not_straddling {found part rest : List Char} (hcs : cs ≠ []) (h : read? cs = none)
    (hfound : IsName found) (hpart : write found = cs ++ part)
    (hrest : write name ++ right = part ++ rest) : False := by
  obtain ⟨c, cs, rfl⟩ := List.exists_cons_of_ne_nil hcs
  obtain ⟨rfl, htail⟩ := List.cons.inj hpart
  cases part with
  | nil =>
    -- the placeholder would end where the text does
    rw [List.append_nil] at hpart
    rw [← hpart, ← List.append_nil (write found), read?_write hfound] at h
    cases h
  | cons d part =>
    obtain ⟨rfl, hbehind⟩ := List.cons.inj hrest
    cases cs with
    | nil => exact absurd (List.cons.inj htail).1 (by decide)
    | cons e cs =>
      have hname := (List.cons.inj htail).2
      cases part with
      | nil =>
        have hlast := (List.append_inj' hname rfl).2
        exact absurd (List.cons.inj hlast).1 (by decide)
      | cons f part =>
        -- the name would hold the brace of the placeholder behind the text
        obtain ⟨rfl, -⟩ := List.cons.inj hbehind
        have hmem : '\x7b' ∈ found ++ ['\x7d'] := by
          rw [hname]
          simp
        rcases List.mem_append.mp hmem with hmem | hmem
        · exact hfound.not_mem_open hmem
        · exact absurd (List.mem_singleton.mp hmem) (by decide)

/-- No placeholder begins in some text and ends in a placeholder behind it. -/
theorem read?_append_of_none (hcs : cs ≠ []) (h : read? cs = none) :
    read? (cs ++ (write name ++ right)) = none := by
  rcases hread : read? (cs ++ (write name ++ right)) with _ | ⟨found, rest⟩
  · rfl
  · obtain ⟨hfound, happend⟩ := read?_eq_some.mp hread
    rcases List.append_eq_append_iff.mp happend with ⟨part, hpart, hrest⟩ | ⟨part, hpart, hrest⟩
    · exact (not_straddling hcs h hfound hpart hrest).elim
    · rw [hpart] at h
      rw [read?_write hfound] at h
      cases h

/-! ## Pieces -/

@[simp] theorem pieces_nil : pieces [] = [] := by
  rw [pieces]
  rfl

theorem pieces_of_some (h : read? cs = some (name, after)) :
    pieces cs = .name name :: pieces after := by
  rw [pieces]
  split
  · rename_i found rest hread
    obtain ⟨rfl, rfl⟩ := Prod.mk.inj (Option.some.inj (hread.symm.trans h))
    rfl
  · rename_i hread
    rw [h] at hread
    cases hread

theorem pieces_of_none {c : Char} (h : read? (c :: cs) = none) :
    pieces (c :: cs) = .char c :: pieces cs := by
  rw [pieces]
  split
  · rename_i found rest hread
    rw [h] at hread
    cases hread
  · rfl

theorem eq_nil_of_pieces (h : pieces cs = []) : cs = [] := by
  cases cs with
  | nil => rfl
  | cons c rest =>
    rcases hread : read? (c :: rest) with _ | ⟨name, after⟩
    · rw [pieces_of_none hread] at h
      cases h
    · rw [pieces_of_some hread] at h
      cases h

/-- **A placeholder among other text.** The text before it and the text behind it have the pieces
that they have alone. -/
theorem pieces_around (hname : IsName name) :
    pieces (before ++ (write name ++ after)) = pieces before ++ .name name :: pieces after := by
  fun_induction pieces before with
  | case1 cs found rest hread ih =>
    rw [pieces_of_some (read?_append_of_some hread), ih]
    rfl
  | case2 => exact pieces_of_some (read?_write hname)
  | case3 c rest hread ih =>
    rw [List.cons_append, pieces_of_none, ih]
    · rfl
    · exact read?_append_of_none (List.cons_ne_nil c rest) hread

/-- A text around a placeholder is no placeholder itself. -/
theorem whole?_around (hname : IsName name) (hother : before ≠ [] ∨ after ≠ []) :
    whole? (before ++ (write name ++ after)) = none := by
  rw [whole?]
  split
  · rename_i found hread
    -- otherwise the text would be a single piece
    have hpieces : pieces (before ++ (write name ++ after)) =
        pieces before ++ .name name :: pieces after := pieces_around hname
    rw [pieces_of_some hread, pieces_nil] at hpieces
    rcases List.append_eq_singleton_iff.mp hpieces.symm with ⟨hbefore, hrest⟩ | ⟨-, hrest⟩
    · have hafter := eq_nil_of_pieces (List.cons.inj hrest).2
      exact (hother.elim (· (eq_nil_of_pieces hbefore)) (· hafter)).elim
    · cases hrest
  · rfl

theorem whole?_write (hname : IsName name) : whole? (write name) = some name := by
  have hread : read? (write name ++ []) = some (name, []) := read?_write hname
  rw [List.append_nil] at hread
  simp [whole?, hread]

/-! ## Values -/

@[simp] theorem fill_nil : fill bindings tolerant [] = .ok [] := by
  rw [fill, pieces_nil]
  rfl

/-- A text around a placeholder becomes what its parts become. -/
theorem fill_around {filled : List Char} (hname : IsName name)
    (h : fill bindings tolerant (before ++ (write name ++ after)) = .ok filled) :
    ∃ left middle right, fill bindings tolerant before = .ok left ∧
      pieceText bindings tolerant (.name name) = .ok middle ∧
      fill bindings tolerant after = .ok right ∧ filled = left ++ (middle ++ right) := by
  obtain ⟨parts, hparts, hfilled⟩ := bind_eq_ok.mp h
  rw [pieces_around hname, List.mapM_append, List.mapM_cons] at hparts
  obtain ⟨lefts, hlefts, hothers⟩ := bind_eq_ok.mp hparts
  obtain ⟨others, hother, hpure⟩ := bind_eq_ok.mp hothers
  obtain ⟨middle, hmiddle, hrest⟩ := bind_eq_ok.mp hother
  obtain ⟨rights, hrights, hcons⟩ := bind_eq_ok.mp hrest
  obtain rfl := pure_eq_ok.mp hcons
  obtain rfl := pure_eq_ok.mp hpure
  obtain rfl := pure_eq_ok.mp hfilled
  refine ⟨lefts.flatten, middle, rights.flatten, ?_, hmiddle, ?_, by simp⟩
  · exact bind_eq_ok.mpr ⟨lefts, hlefts, rfl⟩
  · exact bind_eq_ok.mpr ⟨rights, hrights, rfl⟩

/-- what a placeholder with text before and after it becomes when bindings are applied: without a
value it stays as it is; with a value it becomes the text of the value, between what the other
texts become; without other text it becomes the value itself, or the list or mapping that the value
is in writing -/
inductive Becomes (reading : Reading) (bindings : Fields) (name : List Char) :
    (before after : List Char) → Value → Prop where
  | kept {before after left right : List Char} {tolerant : Bool}
    (hfind : Fields.find? (String.ofList name) bindings = none)
    (hbefore : fill bindings tolerant before = .ok left)
    (hafter : fill bindings tolerant after = .ok right) :
    Becomes reading bindings name before after
      (.string (String.ofList (left ++ (write name ++ right))))
  | shown {before after left right : List Char} {tolerant : Bool} {value : Value}
    (hfind : Fields.find? (String.ofList name) bindings = some value)
    (hother : before ≠ [] ∨ after ≠ [])
    (hbefore : fill bindings tolerant before = .ok left)
    (hafter : fill bindings tolerant after = .ok right) :
    Becomes reading bindings name before after
      (.string (String.ofList (left ++ (value.text.toList ++ right))))
  | value {value : Value} (hfind : Fields.find? (String.ofList name) bindings = some value)
    (hplain : ∀ inner, value = .string inner → structure? reading inner = none) :
    Becomes reading bindings name [] [] value
  | written {inner : String} {parsed value : Value} {tolerant : Bool}
    (hfind : Fields.find? (String.ofList name) bindings = some (.string inner))
    (hstructure : structure? reading inner = some parsed)
    (hexpand : expand reading bindings tolerant bindings.length [] (String.ofList name) parsed =
      .ok value) :
    Becomes reading bindings name [] [] value

/-- A text that holds a placeholder becomes what the placeholder becomes between its other text. -/
theorem becomes_of_resolve {reading : Reading} {text : String} {value : Value}
    (hname : IsName name) (htext : text.toList = before ++ (write name ++ after))
    (h : resolve reading bindings tolerant (.string text) = .ok value) :
    Becomes reading bindings name before after value := by
  change resolveText reading bindings tolerant _ text = .ok value at h
  rw [resolveText, htext] at h
  -- with other text around it the placeholder is filled in, else it may stand for a whole value
  by_cases hother : before ≠ [] ∨ after ≠ []
  · rw [whole?_around hname hother] at h
    obtain ⟨filled, hfill, h⟩ := bind_eq_ok.mp h
    obtain rfl := pure_eq_ok.mp h
    obtain ⟨left, middle, right, hbefore, hmiddle, hafter, rfl⟩ := fill_around hname hfill
    rw [pieceText] at hmiddle
    rcases hfind : Fields.find? (String.ofList name) bindings with _ | value <;>
      simp only [hfind] at hmiddle
    · split at hmiddle
      · obtain rfl := Except.ok.inj hmiddle
        exact .kept hfind hbefore hafter
      · cases hmiddle
    · obtain rfl := Except.ok.inj hmiddle
      exact .shown hfind hother hbefore hafter
  · obtain ⟨rfl, rfl⟩ : before = [] ∧ after = [] := by simpa using hother
    rw [List.nil_append, List.append_nil, whole?_write hname] at h
    simp only at h
    rcases hfind : Fields.find? (String.ofList name) bindings with _ | value <;>
      simp only [hfind] at h
    · split at h
      · obtain rfl := Except.ok.inj h
        have hkept : text = String.ofList ([] ++ (write name ++ [])) := by
          rw [← htext, String.ofList_toList]
        rw [hkept]
        have hempty : fill bindings tolerant [] = .ok [] := fill_nil
        exact .kept hfind hempty hempty
      · cases h
    · split at h
      · rename_i inner hinner
        obtain rfl := Option.some.inj hinner
        rcases hstructure : structure? reading inner with _ | parsed <;> rw [hstructure] at h
        · obtain rfl := Except.ok.inj h
          refine .value hfind fun inner' hinner' => ?_
          obtain rfl := Value.string.inj hinner'
          exact hstructure
        · exact .written hfind hstructure h
      · rename_i found hplain hfound
        obtain rfl := Option.some.inj hfound
        obtain rfl := Except.ok.inj h
        exact .value hfind fun inner hinner => (hplain inner hinner).elim
      · rename_i hnone
        cases hnone

end TableRecipe.Placeholder
