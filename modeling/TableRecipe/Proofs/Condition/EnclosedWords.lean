import TableRecipe.Proofs.Condition.Words
import TableRecipe.Proofs.Outcome

/-!
# Words in parentheses

A text falls into the same words in front of a closing parenthesis, since no word is prolonged by
one.

* `Token.ReadsOff`, `Token.readsOff_of_readOne` — a word that is read in front of a closing
  parenthesis;
* `Token.scans_closed` — the words of a text in front of a closing parenthesis.
-/

namespace TableRecipe

namespace Token

variable {whole : String} {tokens others : List Token} {first : Char} {cs rest after : List Char}
  {found : Option Token}

/-! ## Words in front of a closing parenthesis -/

/-- A run of characters ends before a closing parenthesis if it ends with the text. -/
theorem span_closed {p : Char → Bool} (hclose : p ')' = false) (cs more : List Char) :
    (cs ++ ')' :: more).takeWhile p = cs.takeWhile p ∧
      (cs ++ ')' :: more).dropWhile p = cs.dropWhile p ++ ')' :: more := by
  induction cs with
  | nil => simp [hclose]
  | cons c cs ih => cases hc : p c <;> simp [hc, ih]

theorem length_dropWhile {p : Char → Bool} (hfirst : p first) (rest : List Char) :
    ((first :: rest).dropWhile p).length ≤ rest.length := by
  rw [List.dropWhile_cons_of_pos hfirst]
  exact (List.dropWhile_sublist p).length_le

theorem readQuoted_closed {close : Char} (hclose : close ≠ ')') {text : List Char}
    (h : readQuoted close cs = some (text, rest)) (more : List Char) :
    rest.length ≤ cs.length ∧
      readQuoted close (cs ++ ')' :: more) = some (text, rest ++ ')' :: more) := by
  fun_induction readQuoted close cs generalizing text rest with
  | case1 => cases h
  | case2 =>
    obtain ⟨rfl, rfl⟩ := by simpa using h
    simp [readQuoted, hclose.symm]
  | case3 => cases h
  | case4 d rest hdoubled ih =>
    obtain ⟨⟨inner, after⟩, hinner, hresult⟩ := Option.map_eq_some_iff.mp h
    obtain ⟨rfl, rfl⟩ := Prod.mk.inj hresult
    obtain ⟨hlength, hread⟩ := ih hinner
    refine ⟨by simp only [List.length_cons]; omega, ?_⟩
    rw [List.cons_append, List.cons_append, readQuoted, if_pos rfl, if_pos hdoubled, hread]
    rfl
  | case5 d rest hsingle =>
    obtain ⟨rfl, rfl⟩ := by simpa using h
    refine ⟨by simp, ?_⟩
    rw [List.cons_append, List.cons_append, readQuoted, if_pos rfl, if_neg hsingle]
  | case6 c d rest hne ih =>
    obtain ⟨⟨inner, after⟩, hinner, hresult⟩ := Option.map_eq_some_iff.mp h
    obtain ⟨rfl, rfl⟩ := Prod.mk.inj hresult
    obtain ⟨hlength, hread⟩ := ih hinner
    refine ⟨by simp only [List.length_cons] at hlength ⊢; omega, ?_⟩
    rw [List.cons_append, List.cons_append, readQuoted, if_neg hne, ← List.cons_append, hread]
    rfl

/-- A closing parenthesis is part of no operator. -/
theorem readOperator?_closed (first : Char) (rest more : List Char) :
    readOperator? (first :: (rest ++ ')' :: more)) =
      (readOperator? (first :: rest)).map fun (operator, after) =>
        (operator, after ++ ')' :: more) := by
  cases rest with
  | nil =>
    unfold readOperator?
    split <;> simp_all
  | cons d rest =>
    rw [readOperator?.eq_def (first :: d :: rest)]
    split <;> simp_all [readOperator?]
    -- the operators of one character, before a character that does not prolong them
    all_goals
      rename_i hends
      obtain ⟨-, rfl⟩ := hends
      simp_all

theorem readOperator?_length {operator : Operator}
    (h : readOperator? (first :: rest) = some (operator, after)) : after.length ≤ rest.length := by
  unfold readOperator? at h
  split at h <;> simp_all

theorem startsNumber_closed (first : Char) (rest more : List Char) :
    startsNumber (first :: (rest ++ ')' :: more)) = startsNumber (first :: rest) := by
  by_cases hpoint : first = '.'
  · subst hpoint
    cases rest <;> rfl
  · rw [startsNumber_eq hpoint, startsNumber_eq hpoint]

theorem isNumberPart_of_startsNumber (h : startsNumber (first :: rest)) : isNumberPart first := by
  by_cases hpoint : first = '.'
  · simp [isNumberPart, hpoint]
  · rw [startsNumber_eq hpoint] at h
    simp [isNumberPart, h]

theorem isWordPart_of_start (h : Letter.isAlphabetic first || first = '_') : isWordPart first := by
  simp only [Bool.or_eq_true, decide_eq_true_eq] at h
  obtain h | h := h
  · simp [isWordPart, Letter.isAlphanumeric, h]
  · simp [isWordPart, h]

/-- whether a word is read from the start of a text whatever follows the text, provided that it
begins with a closing parenthesis -/
def ReadsOff (first : Char) (rest : List Char) (found : Option Token) (after : List Char) : Prop :=
  after.length ≤ rest.length ∧ ∀ whole more,
    readOne whole first (rest ++ ')' :: more) = .ok (found, after ++ ')' :: more)

theorem ok_of_ite_error {α : Type} {p : Prop} [Decidable p] {error : Error} {x : Except Error α}
    {a : α} (h : (if p then .error error else x) = .ok a) : ¬p ∧ x = .ok a := by
  split at h
  · cases h
  · exact ⟨‹_›, h⟩

theorem readsOff_plain (hplain : IsPlain first)
    (h : readPlain whole first rest = .ok (found, after)) : ReadsOff first rest found after := by
  have hnumber := span_closed (p := isNumberPart) (by decide)
  have hword := span_closed (p := isWordPart) (by decide)
  suffices hplainly : after.length ≤ rest.length ∧ ∀ whole more,
      readPlain whole first (rest ++ ')' :: more) = .ok (found, after ++ ')' :: more) by
    refine ⟨hplainly.1, fun whole more => ?_⟩
    rw [readOne_plain hplain]
    exact hplainly.2 whole more
  rw [readPlain] at h
  split at h
  case h_1 operator rest' hoperator =>
    obtain ⟨rfl, rfl⟩ := by simpa using h
    refine ⟨readOperator?_length hoperator, fun whole more => ?_⟩
    rw [readPlain, readOperator?_closed, hoperator]
    rfl
  case h_2 hoperator =>
    have hclosed (more : List Char) : readOperator? (first :: (rest ++ ')' :: more)) = none := by
      rw [readOperator?_closed, hoperator]
      rfl
    obtain ⟨hbang, h⟩ := ok_of_ite_error h
    split at h
    case isTrue hstart =>
      dsimp only at h
      split at h
      case h_1 value hvalue =>
        obtain ⟨rfl, rfl⟩ := by simpa using h
        refine ⟨length_dropWhile (isNumberPart_of_startsNumber hstart) rest, fun whole more => ?_⟩
        obtain ⟨htake, hdrop⟩ := hnumber (first :: rest) more
        rw [List.cons_append] at htake hdrop
        simp only [readPlain, hclosed, hbang, startsNumber_closed, hstart, htake, hdrop, hvalue,
          if_true, if_false]
      case h_2 => cases h
    case isFalse hstart =>
      split at h
      case isTrue hletter =>
        obtain ⟨rfl, rfl⟩ := by simpa using h
        refine ⟨length_dropWhile (isWordPart_of_start hletter) rest, fun whole more => ?_⟩
        obtain ⟨htake, hdrop⟩ := hword (first :: rest) more
        rw [List.cons_append] at htake hdrop
        simp only [readPlain, hclosed, hbang, startsNumber_closed, hstart, hletter, htake, hdrop,
          if_true, if_false, Bool.false_eq_true]
      case isFalse => cases h

theorem readsOff_single {one : Option Token}
    (hread : ∀ whole rest, readOne whole first rest = .ok (one, rest))
    (h : readOne whole first rest = .ok (found, after)) : ReadsOff first rest found after := by
  rw [hread] at h
  obtain ⟨rfl, rfl⟩ := by simpa using h
  exact ⟨le_rfl, fun whole more => hread whole _⟩

theorem readsOff_quoted {close : Char} {make : String → Token} (hclose : close ≠ ')')
    (hread : ∀ whole rest, readOne whole first rest =
      match readQuoted close rest with
      | some (text, rest) => .ok (some (make (String.ofList text)), rest)
      | none => .error (.conditionSyntax s!"unterminated '{close}' in '{whole}'"))
    (h : readOne whole first rest = .ok (found, after)) : ReadsOff first rest found after := by
  rw [hread] at h
  split at h
  case h_1 text rest' htext =>
    obtain ⟨rfl, rfl⟩ := by simpa using h
    refine ⟨(readQuoted_closed hclose htext []).1, fun whole more => ?_⟩
    rw [hread, (readQuoted_closed hclose htext more).2]
  case h_2 => cases h

theorem readsOff_named (h : readOne whole ':' rest = .ok (found, after)) :
    ReadsOff ':' rest found after := by
  have hread (whole : String) (rest : List Char) : readOne whole ':' rest =
      if (rest.takeWhile isParameter).isEmpty then
        .error (.conditionSyntax "expected a parameter name after ':'")
      else .ok (some (.named (String.ofList (rest.takeWhile isParameter))),
        rest.dropWhile isParameter) := rfl
  rw [hread] at h
  obtain ⟨hname, h⟩ := ok_of_ite_error h
  obtain ⟨rfl, rfl⟩ := by simpa using h
  refine ⟨(List.dropWhile_sublist _).length_le, fun whole more => ?_⟩
  obtain ⟨htake, hdrop⟩ := span_closed (p := isParameter) (by decide) rest more
  rw [hread, htake, hdrop, if_neg hname]

/-- What is read from the start of a text is read before a closing parenthesis as well. -/
theorem readsOff_of_readOne (h : readOne whole first rest = .ok (found, after)) :
    ReadsOff first rest found after := by
  by_cases hplain : IsPlain first
  · exact readsOff_plain hplain (readOne_plain hplain ▸ h)
  · by_cases hblank : Letter.isBlank first
    · have hread (whole : String) (rest : List Char) :
          readOne whole first rest = .ok (none, rest) := by simp [readOne, hblank]
      exact readsOff_single hread h
    · have hspecial : first ∈ ['(', ')', ',', '?', '-', '\'', '"', '\x60', '[', ':'] := by
        by_contra hnone
        exact hplain ⟨by simpa using hblank, hnone⟩
      simp only [List.mem_cons, List.not_mem_nil, or_false] at hspecial
      obtain rfl | rfl | rfl | rfl | rfl | rfl | rfl | rfl | rfl | rfl := hspecial
      · exact readsOff_single (fun _ _ => rfl) h
      · exact readsOff_single (fun _ _ => rfl) h
      · exact readsOff_single (fun _ _ => rfl) h
      · exact readsOff_single (fun _ _ => rfl) h
      · exact readsOff_single (fun _ _ => rfl) h
      · exact readsOff_quoted (by decide) (fun _ _ => rfl) h
      · exact readsOff_quoted (by decide) (fun _ _ => rfl) h
      · exact readsOff_quoted (by decide) (fun _ _ => rfl) h
      · exact readsOff_quoted (by decide) (fun _ _ => rfl) h
      · exact readsOff_named h

/-- A text falls into the word that is read from its start and those of the rest. -/
theorem Scans.read (h : Scans after tokens) (hlength : after.length ≤ rest.length)
    (hread : ∀ whole, readOne whole first rest = .ok (found, after)) :
    Scans (first :: rest) (found.toList ++ tokens) := by
  intro whole fuel hfuel
  obtain ⟨fuel, rfl⟩ := Nat.exists_eq_add_of_lt (Nat.zero_lt_of_lt hfuel)
  have hafter : scanFrom whole (0 + fuel) after = .ok tokens :=
    h whole _ (by simp only [List.length_cons] at hfuel; omega)
  rw [scanFrom, hread]
  cases found with
  | none => exact hafter
  | some token =>
    change (do return token :: (← scanFrom whole (0 + fuel) after)) = _
    rw [hafter]
    rfl

/-- A text in front of a closing parenthesis falls into the words that it falls into alone, and
those of the rest. -/
theorem scans_closed {fuel : Nat} (h : scanFrom whole fuel cs = .ok tokens)
    (hfuel : cs.length < fuel) (hrest : Scans rest others) :
    Scans (cs ++ ')' :: rest) (tokens ++ .closeParen :: others) := by
  induction fuel generalizing cs tokens with
  | zero => cases hfuel
  | succ fuel ih =>
    cases cs with
    | nil =>
      obtain rfl : [] = tokens := Except.ok.inj h
      have hread (whole : String) : readOne whole ')' rest = .ok (some .closeParen, rest) := rfl
      exact hrest.read le_rfl hread
    | cons first cs =>
      rw [scanFrom] at h
      obtain ⟨⟨found, after⟩, hone, h⟩ := bind_eq_ok.mp h
      obtain ⟨hlength, hread⟩ := readsOff_of_readOne hone
      have hafter : after.length < fuel := by
        simp only [List.length_cons] at hfuel
        omega
      obtain ⟨more, hmore, rfl⟩ : ∃ more, scanFrom whole fuel after = .ok more ∧
          tokens = found.toList ++ more := by
        cases found with
        | none => exact ⟨tokens, h, rfl⟩
        | some token =>
          obtain ⟨more, hmore, h⟩ := bind_eq_ok.mp h
          exact ⟨more, hmore, (pure_eq_ok.mp h).symm⟩
      rw [List.append_assoc, List.cons_append]
      exact (ih hmore hafter).read (by simpa using hlength) fun whole => hread whole rest

end Token

end TableRecipe
