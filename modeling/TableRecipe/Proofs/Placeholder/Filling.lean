import TableRecipe.Proofs.Placeholder.Consults

/-!
# Filling texts

A text is what its pieces spell, and can be taken apart and put together again as long as nothing in
it reads as a placeholder that was none.

* `Placeholder.spell_pieces`, `Placeholder.pieces_spell` — texts and pieces, both ways;
* `Placeholder.fill_tolerant` — a text that is filled while some names have no value yet;
* `Placeholder.fillPieces_known` — what is left of it, filled with all values.
-/

namespace TableRecipe.Placeholder

variable {first all bindings : Fields} {tolerant : Bool} {text : String} {cs name : List Char}

/-! ## Texts and their pieces -/

/-- the characters of a piece -/
def Piece.spell : Piece → List Char
  | .char c => [c]
  | .name name => write name

/-- A text is what its pieces spell. -/
theorem spell_pieces (cs : List Char) : (pieces cs).flatMap Piece.spell = cs := by
  fun_induction pieces cs with
  | case1 cs name after hread ih =>
    obtain ⟨-, rfl⟩ := read?_eq_some.mp hread
    rw [List.flatMap_cons, ih, Piece.spell]
  | case2 => rfl
  | case3 c rest hread ih => rw [List.flatMap_cons, ih, Piece.spell, List.singleton_append]

theorem isName_of_mem_pieces (h : .name name ∈ pieces cs) : IsName name := by
  fun_induction pieces cs with
  | case1 cs found after hread ih =>
    rcases List.mem_cons.mp h with hsame | h
    · obtain rfl := Piece.name.inj hsame
      exact (read?_eq_some.mp hread).1
    · exact ih h
  | case2 => cases h
  | case3 c rest hread ih =>
    rcases List.mem_cons.mp h with hsame | h
    · cases hsame
    · exact ih h

/-- pieces of which no character could begin a placeholder -/
def Apart (parts : List Piece) : Prop :=
  (∀ c, .char c ∈ parts → c ≠ '\x7b') ∧ ∀ name, .name name ∈ parts → IsName name

/-- Pieces spell no other placeholders than they are if there are no other opening braces. -/
theorem pieces_spell {parts : List Piece} (h : Apart parts) :
    pieces (parts.flatMap Piece.spell) = parts := by
  induction parts with
  | nil => exact pieces_nil
  | cons part rest ih =>
    have hrest := ih ⟨fun c hmem => h.1 c (List.mem_cons_of_mem _ hmem),
      fun name hmem => h.2 name (List.mem_cons_of_mem _ hmem)⟩
    rw [List.flatMap_cons]
    cases part with
    | name name =>
      rw [Piece.spell, pieces_of_some (read?_write (h.2 name (List.mem_cons_self ..))), hrest]
    | char c =>
      rw [Piece.spell, List.singleton_append, pieces_of_none, hrest]
      -- an opening brace behind the character would begin the rest
      rcases hread : read? (c :: rest.flatMap Piece.spell) with _ | ⟨name, after⟩
      · rfl
      · obtain ⟨-, hwrite⟩ := read?_eq_some.mp hread
        obtain ⟨-, hbrace⟩ := List.cons.inj hwrite
        cases rest with
        | nil => cases hbrace
        | cons next rest =>
          rw [List.flatMap_cons] at hbrace
          cases next with
          | name name => exact absurd (List.cons.inj hbrace).1 (by decide)
          | char d =>
            obtain ⟨rfl, -⟩ := List.cons.inj hbrace
            exact absurd rfl (h.1 _ (List.mem_cons_of_mem _ (List.mem_cons_self ..)))

/-! ## Texts filled twice -/

/-- the texts of pieces, in a row -/
def fillPieces (bindings : Fields) (tolerant : Bool) (parts : List Piece) :
    Except Error (List Char) :=
  return (← parts.mapM (pieceText bindings tolerant)).flatten

theorem fillPieces_cons (part : Piece) (parts : List Piece) :
    fillPieces bindings tolerant (part :: parts) = (do
      let text ← pieceText bindings tolerant part
      return text ++ (← fillPieces bindings tolerant parts)) := by
  simp only [fillPieces, List.mapM_cons, bind_assoc, pure_bind, List.flatten_cons]

theorem fillPieces_append (parts parts' : List Piece) :
    fillPieces bindings tolerant (parts ++ parts') = (do
      let text ← fillPieces bindings tolerant parts
      return text ++ (← fillPieces bindings tolerant parts')) := by
  simp only [fillPieces, List.mapM_append, bind_assoc, pure_bind, List.flatten_append]

theorem fillPieces_chars (text : List Char) :
    fillPieces bindings tolerant (text.map .char) = .ok text := by
  induction text with
  | nil => rfl
  | cons c rest ih =>
    rw [List.map_cons, fillPieces_cons, ih]
    rfl

/-- what a piece becomes when names without a value stay as they are -/
def Piece.known (bindings : Fields) : Piece → List Piece
  | .char c => [.char c]
  | .name name =>
    match Fields.find? (String.ofList name) bindings with
    | some value => value.text.toList.map .char
    | none => [.name name]

/-- A text can always be filled if names without a value are tolerated. -/
theorem fill_tolerant (cs : List Char) :
    fill bindings true cs = .ok (((pieces cs).flatMap (Piece.known bindings)).flatMap
      Piece.spell) := by
  change fillPieces bindings true (pieces cs) = _
  induction pieces cs with
  | nil => rfl
  | cons part parts ih =>
    rw [fillPieces_cons, ih, List.flatMap_cons, List.flatMap_append]
    cases part with
    | char c => rfl
    | name name =>
      rcases hfind : Fields.find? (String.ofList name) bindings with _ | value
      · simp [pieceText, Piece.known, hfind, Piece.spell]
        rfl
      · have hspell : (value.text.toList.map Piece.char).flatMap Piece.spell =
            value.text.toList := by
          simp [List.flatMap_map, Piece.spell]
        simp [pieceText, Piece.known, hfind, hspell]
        rfl

/-- Filling the pieces that are left, with more bindings, is filling all of them with these. -/
theorem fillPieces_known (hall : ∀ name value, Fields.find? name first = some value →
      Fields.find? name all = some value) (parts : List Piece) :
    fillPieces all tolerant (parts.flatMap (Piece.known first)) =
      fillPieces all tolerant parts := by
  induction parts with
  | nil => rfl
  | cons part parts ih =>
    have hpart : fillPieces all tolerant (part.known first) = pieceText all tolerant part := by
      cases part with
      | char c => rfl
      | name name =>
        rcases hfind : Fields.find? (String.ofList name) first with _ | value
        · simp only [Piece.known, hfind, fillPieces, List.mapM_cons, List.mapM_nil, bind_assoc,
            pure_bind, List.flatten_cons, List.flatten_nil, List.append_nil, bind_pure]
        · simp only [Piece.known, hfind, fillPieces_chars, pieceText, hall _ _ hfind]
    rw [List.flatMap_cons, fillPieces_append, fillPieces_cons, hpart, ih]

/-- Pieces that stay are apart from each other if there was no other opening brace. -/
theorem apart_known (hchars : ∀ c, .char c ∈ pieces cs → c ≠ '\x7b')
    (hvalues : ∀ name value, .name name ∈ pieces cs →
      Fields.find? (String.ofList name) first = some value → '\x7b' ∉ value.text.toList) :
    Apart ((pieces cs).flatMap (Piece.known first)) := by
  constructor
  · intro c hmem
    obtain ⟨part, hpart, hmem⟩ := List.mem_flatMap.mp hmem
    cases part with
    | char d =>
      obtain rfl := Piece.char.inj (List.mem_singleton.mp hmem)
      exact hchars _ hpart
    | name name =>
      rcases hfind : Fields.find? (String.ofList name) first with _ | value <;>
        simp only [Piece.known, hfind] at hmem
      · cases List.mem_singleton.mp hmem
      · obtain ⟨d, hd, hsame⟩ := List.mem_map.mp hmem
        obtain rfl := Piece.char.inj hsame
        exact fun hbrace => hvalues name value hpart hfind (hbrace ▸ hd)
  · intro name hmem
    obtain ⟨part, hpart, hmem⟩ := List.mem_flatMap.mp hmem
    cases part with
    | char d => cases List.mem_singleton.mp hmem
    | name other =>
      rcases hfind : Fields.find? (String.ofList other) first with _ | value <;>
        simp only [Piece.known, hfind] at hmem
      · obtain rfl := Piece.name.inj (List.mem_singleton.mp hmem)
        exact isName_of_mem_pieces hpart
      · obtain ⟨d, -, hsame⟩ := List.mem_map.mp hmem
        cases hsame

/-! ## Texts that stay as they are -/

theorem fill_of_no_names (h : namesIn text = []) :
    fill bindings tolerant text.toList = .ok text.toList := by
  have hchars : ∀ parts : List Piece, (∀ name, .name name ∉ parts) →
      (parts.flatMap Piece.spell).map .char = parts := by
    intro parts hnone
    induction parts with
    | nil => rfl
    | cons part parts ih =>
      cases part with
      | char c =>
        rw [List.flatMap_cons, List.map_append,
          ih fun name hmem => hnone name (List.mem_cons_of_mem _ hmem)]
        rfl
      | name name => exact (hnone name (List.mem_cons_self ..)).elim
  have hpieces : text.toList.map .char = pieces text.toList := by
    rw [← hchars (pieces text.toList), spell_pieces]
    intro name hmem
    have hname := mem_namesIn.mpr hmem
    rw [h] at hname
    cases hname
  change fillPieces bindings tolerant (pieces text.toList) = _
  rw [← hpieces, fillPieces_chars]

/-- A text without names that have a value stays as it is. -/
theorem fill_unbound (h : ∀ name, .name name ∈ pieces cs →
    Fields.find? (String.ofList name) bindings = none) : fill bindings true cs = .ok cs := by
  have hknown : ∀ parts : List Piece, (∀ name, .name name ∈ parts →
      Fields.find? (String.ofList name) bindings = none) →
      parts.flatMap (Piece.known bindings) = parts := by
    intro parts hnone
    induction parts with
    | nil => rfl
    | cons part parts ih =>
      have hpart : part.known bindings = [part] := by
        cases part with
        | char c => rfl
        | name name => simp only [Piece.known, hnone name (List.mem_cons_self ..)]
      rw [List.flatMap_cons, hpart, ih fun name hmem => hnone name (List.mem_cons_of_mem _ hmem)]
      rfl
  rw [fill_tolerant, hknown _ h, spell_pieces]

/-! ## Names without a value -/

/-- A text cannot be filled because of a name without a value, which is not tolerated. -/
theorem fill_error {e : Error} (h : fill bindings tolerant cs = .error e) :
    tolerant = false ∧ ∃ name, .name name ∈ pieces cs ∧
      Fields.find? (String.ofList name) bindings = none ∧
      e = .of (.unknownVariable (String.ofList name)) := by
  obtain ⟨part, hpart, hfails⟩ := mapM_error (bind_pure_eq_error.mp h)
  cases part with
  | char c => cases hfails
  | name name =>
    rw [pieceText] at hfails
    rcases hfind : Fields.find? (String.ofList name) bindings with _ | value <;>
      simp only [hfind] at hfails
    · cases tolerant with
      | true => cases hfails
      | false => exact ⟨rfl, name, hpart, hfind, (Except.error.inj hfails).symm⟩
    · cases hfails

theorem fill_fails (hname : .name name ∈ pieces cs)
    (hfind : Fields.find? (String.ofList name) bindings = none) :
    ∃ e, fill bindings false cs = .error e := by
  rcases hfill : fill bindings false cs with e | filled
  · exact ⟨e, rfl⟩
  · obtain ⟨parts, hparts, -⟩ := bind_eq_ok.mp hfill
    obtain ⟨place, hplace⟩ := List.mem_iff_getElem?.mp hname
    obtain ⟨part, -, hpart⟩ := (mapM_ok hparts).2 place _ hplace
    rw [pieceText, hfind] at hpart
    cases hpart

end TableRecipe.Placeholder
