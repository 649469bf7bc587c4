import TableRecipe.Condition.Token
import TableRecipe.Proofs.Number.Texts

/-!
# Words and their spelling

Every word has a spelling: names stand in double quotes, texts in single quotes, and a quote in
them is doubled. A line of words, with blanks between them where no parenthesis and no comma is,
falls into these words again.

* `Token.spelling` — how a word is spelled;
* `Token.Spelled` — the words that have a spelling;
* `Token.layout` — words on a line;
* `Token.scan_layout` — the words of such a line.
-/

namespace TableRecipe.Token

variable {whole : String} {token next : Token} {tokens : List Token} {cs rest : List Char}

/-! ## Spelling -/

/-- a text with each quote in it doubled -/
def doubled (quote : Char) (text : List Char) : List Char :=
  text.flatMap fun c => if c = quote then [quote, quote] else [c]

/-- a text between quotes -/
def quoted (quote : Char) (text : String) : List Char :=
  quote :: (doubled quote text.toList ++ [quote])

/-- how a word is spelled; a number by the digits of its integer part -/
def spelling : Token → List Char
  | column name => quoted '"' name
  | word keyword => keyword.text.toList
  | literal text => quoted '\'' text
  | number value => Nat.toDigits 10 value.truncate.toNat
  | positional => ['?']
  | named name => ':' :: name.toList
  | sign operator => operator.text.toList
  | minus => ['-']
  | openParen => ['(']
  | closeParen => [')']
  | comma => [',']

/-- whether a word has a spelling: numbers are whole and exact, names of parameters consist of
letters, digits and underscores -/
def Spelled : Token → Prop
  | number value => ∃ n ≤ Binary64.greatestExact, value = .finite false (n * Binary64.one)
  | named name => name ≠ "" ∧ ∀ c ∈ name.toList, isParameter c
  | _ => True

/-- whether a word stands close to the one before it: not behind a parenthesis or a minus, nor
before a parenthesis or a comma -/
def isClose (before after : Token) : Bool :=
  before = openParen || before = minus || after = closeParen || after = comma

/-- words on a line -/
def layout : List Token → List Char
  | [] => []
  | [token] => token.spelling
  | token :: next :: rest =>
    token.spelling ++ (if isClose token next then [] else [' ']) ++ layout (next :: rest)

/-! ## What follows a word -/

/-- a text that does not prolong the word before it -/
def Apart (rest : List Char) : Prop := ∀ c ∈ rest.head?, c = ' ' ∨ c = ')' ∨ c = ','

/-- A run of characters ends before what follows it. -/
theorem Apart.span {p : Char → Bool} (h : Apart rest) (hall : ∀ c ∈ cs, p c)
    (hends : p ' ' = false ∧ p ')' = false ∧ p ',' = false) :
    (cs ++ rest).takeWhile p = cs ∧ (cs ++ rest).dropWhile p = rest := by
  refine Decimal.takeWhile_append_stop hall fun c hc => ?_
  obtain rfl | rfl | rfl := h c hc
  · exact hends.1
  · exact hends.2.1
  · exact hends.2.2

/-- What is quoted ends with the quote that is not doubled. -/
theorem readQuoted_doubled (quote : Char) (hquote : quote ∉ [']', ' ', ')', ',']) (text : List Char)
    (h : Apart rest) :
    readQuoted quote (doubled quote text ++ quote :: rest) = some (text, rest) := by
  have hbracket : quote ≠ ']' := fun e => hquote (by simp [e])
  induction text with
  | nil =>
    cases rest with
    | nil => simp [doubled, readQuoted]
    | cons d more =>
      have hd : d ≠ quote := by
        rintro rfl
        exact hquote (List.mem_cons_of_mem _ (by simpa using h d rfl))
      simp [doubled, readQuoted, hd]
  | cons c more ih =>
    by_cases hc : c = quote
    · have hfirst : doubled quote (c :: more) = quote :: quote :: doubled quote more := by
        simp [doubled, hc]
      rw [hfirst, List.cons_append, List.cons_append, readQuoted, ih]
      simp [hbracket, hc]
    · have hfirst : doubled quote (c :: more) = c :: doubled quote more := by simp [doubled, hc]
      -- the closing quote at least is still ahead, so that the reader looks at one more character
      obtain ⟨d, after, hafter⟩ : ∃ d after, doubled quote more ++ quote :: rest = d :: after :=
        List.exists_cons_of_ne_nil (by simp)
      rw [hfirst, List.cons_append, hafter, readQuoted, if_neg hc, ← hafter, ih]
      rfl

/-! ## One word -/

/-- whether a character begins an operator, a number or a plain word -/
def IsPlain (c : Char) : Prop :=
  Letter.isBlank c = false ∧ c ∉ ['(', ')', ',', '?', '-', '\'', '"', '\x60', '[', ':']

instance {c : Char} : Decidable (IsPlain c) := inferInstanceAs (Decidable (_ ∧ _))

theorem readOne_plain {first : Char} (h : IsPlain first) :
    readOne whole first rest = readPlain whole first rest := by
  obtain ⟨hblank, hplain⟩ := h
  simp only [List.mem_cons, List.not_mem_nil, or_false, not_or] at hplain
  simp [readOne, hblank, hplain]

/-- whether a character begins a number or a plain word -/
def IsWordStart (c : Char) : Prop := IsPlain c ∧ c ∉ ['=', '!', '<', '>']

instance {c : Char} : Decidable (IsWordStart c) := inferInstanceAs (Decidable (_ ∧ _))

theorem IsWordStart.readOperator? {first : Char} (h : IsWordStart first) :
    readOperator? (first :: rest) = none := by
  obtain ⟨-, hsign⟩ := h
  simp only [List.mem_cons, List.not_mem_nil, or_false, not_or] at hsign
  rw [Token.readOperator?.eq_def]
  split <;> simp_all

/-- What follows an operator does not prolong it. -/
theorem readOperator?_text (operator : Operator) (h : Apart rest) :
    readOperator? (operator.text.toList ++ rest) = some (operator, rest) := by
  cases rest with
  | nil => cases operator <;> rfl
  | cons c more => cases operator <;> obtain rfl | rfl | rfl := h c rfl <;> rfl

theorem isPlain_of_operator (operator : Operator) :
    ∃ first more, operator.text.toList = first :: more ∧ IsPlain first := by
  cases operator <;> exact ⟨_, _, rfl, by decide⟩

/-- A keyword is a plain word, and is that keyword. -/
theorem isWordStart_of_keyword (keyword : Keyword) :
    keyword.text.toList.all isWordPart ∧ Keyword.ofWord? keyword.text.toList = some keyword ∧
      ∃ first more, keyword.text.toList = first :: more ∧ IsWordStart first ∧
        Letter.isAlphabetic first ∧ first ≠ '.' ∧ Letter.isAsciiDigit first = false := by
  cases keyword <;> refine ⟨by decide +kernel, by decide +kernel, _, _, rfl, ?_⟩ <;> decide +kernel

theorem startsNumber_eq {first : Char} (h : first ≠ '.') :
    startsNumber (first :: rest) = Letter.isAsciiDigit first := by
  rw [startsNumber.eq_def]
  split <;> simp_all

theorem readOne_keyword (keyword : Keyword) (h : Apart rest) :
    ∃ first more, keyword.text.toList = first :: more ∧
      readOne whole first (more ++ rest) = .ok (some (.word keyword), rest) := by
  obtain ⟨hparts, hkeyword, first, more, htext, hstart, hletter, hpoint, hdigit⟩ :=
    isWordStart_of_keyword keyword
  rw [htext] at hparts hkeyword ⊢
  obtain ⟨htake, hdrop⟩ := h.span (List.all_eq_true.mp hparts) (by decide +kernel)
  have hbang : first ≠ '!' := fun e => hstart.2 (by simp [e])
  refine ⟨first, more, rfl, ?_⟩
  rw [readOne_plain hstart.1, readPlain, hstart.readOperator?, startsNumber_eq hpoint]
  simp only [hbang, hdigit, hletter, if_false, Bool.false_eq_true, Bool.true_or, if_true]
  rw [← List.cons_append, htake, hdrop, hkeyword]

/-- A text of digits is a number. -/
theorem readOne_denotes {value : Binary64} (hdenotes : Decimal.Denotes cs value) (h : Apart rest) :
    ∃ first more, cs = first :: more ∧
      readOne whole first (more ++ rest) = .ok (some (.number value), rest) := by
  obtain ⟨⟨first, more, rfl, hdigit⟩, hpart, hread⟩ := hdenotes
  have hparts : ∀ c ∈ first :: more, isNumberPart c := by
    intro c hc
    obtain hc | rfl := hpart c hc
    · exact Decimal.forall_digit (p := fun c => isNumberPart c) (by decide) hc
    · decide
  obtain ⟨hstart, hpoint, hdigit⟩ :
      IsWordStart first ∧ first ≠ '.' ∧ Letter.isAsciiDigit first :=
    Decimal.forall_digit (p := fun c => IsWordStart c ∧ c ≠ '.' ∧ Letter.isAsciiDigit c)
      (by decide) hdigit
  obtain ⟨htake, hdrop⟩ := h.span hparts (by decide)
  have hbang : first ≠ '!' := fun e => hstart.2 (by simp [e])
  refine ⟨first, more, rfl, ?_⟩
  rw [readOne_plain hstart.1, readPlain, hstart.readOperator?, startsNumber_eq hpoint]
  simp only [hbang, hdigit, if_false, if_true]
  rw [← List.cons_append, htake, hdrop, hread]

/-- A word is read from its spelling. -/
theorem readOne_spelling (whole : String) (hspelled : token.Spelled)
    (h : token = openParen ∨ token = minus ∨ Apart rest) :
    ∃ first more, token.spelling = first :: more ∧
      readOne whole first (more ++ rest) = .ok (some token, rest) := by
  cases token with
  | openParen => exact ⟨_, _, rfl, rfl⟩
  | minus => exact ⟨_, _, rfl, rfl⟩
  | closeParen => exact ⟨_, _, rfl, rfl⟩
  | comma => exact ⟨_, _, rfl, rfl⟩
  | positional => exact ⟨_, _, rfl, rfl⟩
  | column name =>
    have hrest : Apart rest := by simpa using h
    have hread := readQuoted_doubled '"' (by decide) name.toList hrest
    refine ⟨_, _, rfl, ?_⟩
    rw [List.append_assoc, List.singleton_append]
    have hblank : Letter.isBlank '"' = false := by decide
    simp [readOne, hblank, hread]
  | literal text =>
    have hrest : Apart rest := by simpa using h
    have hread := readQuoted_doubled '\'' (by decide) text.toList hrest
    refine ⟨_, _, rfl, ?_⟩
    rw [List.append_assoc, List.singleton_append]
    have hblank : Letter.isBlank '\'' = false := by decide
    simp [readOne, hblank, hread]
  | word keyword => exact readOne_keyword keyword (by simpa using h)
  | sign operator =>
    obtain ⟨first, more, htext, hplain⟩ := isPlain_of_operator operator
    have hread := readOperator?_text operator (by simpa using h)
    rw [htext] at hread
    refine ⟨first, more, htext, ?_⟩
    rw [readOne_plain hplain, readPlain, ← List.cons_append, hread]
  | number value =>
    obtain ⟨n, hn, rfl⟩ := hspelled
    have hdigits : (number (.finite false (n * Binary64.one))).spelling = Nat.toDigits 10 n := by
      rw [spelling, Binary64.truncate_whole (Binary64.lt_of_exact hn)]
      rfl
    rw [hdigits]
    exact readOne_denotes (Binary64.denotes_whole hn) (by simpa using h)
  | named name =>
    obtain ⟨hne, hall⟩ := hspelled
    have hrest : Apart rest := by simpa using h
    obtain ⟨htake, hdrop⟩ := hrest.span hall (by decide)
    refine ⟨_, _, rfl, ?_⟩
    have hblank : Letter.isBlank ':' = false := by decide
    simp [readOne, hblank, htake, hdrop, hne]

/-! ## Words on a line -/

/-- a text falls into words, whatever the fuel that its length needs -/
def Scans (cs : List Char) (tokens : List Token) : Prop :=
  ∀ whole fuel, cs.length < fuel → scanFrom whole fuel cs = .ok tokens

theorem scans_nil : Scans [] [] := by
  intro whole fuel hfuel
  cases fuel <;> rfl

theorem Scans.blank (h : Scans cs tokens) : Scans (' ' :: cs) tokens := by
  intro whole fuel hfuel
  cases fuel with
  | zero => cases hfuel
  | succ fuel =>
    have hblank : readOne whole ' ' cs = .ok (none, cs) := by simp [readOne, Letter.isBlank]
    rw [scanFrom, hblank]
    exact h whole fuel (by simpa using hfuel)

/-- A text falls into the word that it begins with and those of the rest. -/
theorem Scans.word (h : Scans rest tokens)
    (hread : ∀ whole, ∃ first more, cs = first :: more ∧
      readOne whole first (more ++ rest) = .ok (some token, rest)) :
    Scans (cs ++ rest) (token :: tokens) := by
  intro whole fuel hfuel
  obtain ⟨first, more, rfl, hone⟩ := hread whole
  cases fuel with
  | zero => cases hfuel
  | succ fuel =>
    have hrest : scanFrom whole fuel rest = .ok tokens :=
      h whole fuel (by simp only [List.length_append, List.length_cons] at hfuel; omega)
    rw [List.cons_append, scanFrom, hone]
    change (do return token :: (← scanFrom whole fuel rest)) = _
    rw [hrest]
    rfl

theorem Scans.spelling (h : Scans rest tokens) (hspelled : token.Spelled)
    (hapart : token = openParen ∨ token = minus ∨ Apart rest) :
    Scans (token.spelling ++ rest) (token :: tokens) :=
  h.word fun whole => readOne_spelling whole hspelled hapart

theorem Scans.number {value : Binary64} (h : Scans rest tokens)
    (hdenotes : Decimal.Denotes cs value) (hapart : Apart rest) :
    Scans (cs ++ rest) (number value :: tokens) :=
  h.word fun _ => readOne_denotes hdenotes hapart

/-- A line starts with the spelling of its first word. -/
theorem layout_cons (token : Token) (tokens : List Token) :
    ∃ after, layout (token :: tokens) = token.spelling ++ after := by
  cases tokens with
  | nil => exact ⟨[], (List.append_nil _).symm⟩
  | cons next rest => exact ⟨_, List.append_assoc ..⟩

/-- No word stands close to one that it would prolong. -/
theorem layout_apart (h : isClose token next) :
    token = openParen ∨ token = minus ∨ Apart (layout (next :: tokens)) := by
  obtain ⟨after, hafter⟩ := layout_cons next tokens
  rw [hafter]
  simp only [isClose, Bool.or_eq_true, decide_eq_true_eq] at h
  obtain ((h | h) | rfl) | rfl := h
  · exact .inl h
  · exact .inr (.inl h)
  · exact .inr (.inr (by simp [Apart, Token.spelling]))
  · exact .inr (.inr (by simp [Apart, Token.spelling]))

theorem scans_layout (tokens : List Token) (hspelled : ∀ token ∈ tokens, token.Spelled) :
    Scans (layout tokens) tokens := by
  induction tokens with
  | nil => exact scans_nil
  | cons token tokens ih =>
    have hfirst := hspelled token (List.mem_cons_self ..)
    have hmore := ih fun other hother => hspelled other (List.mem_cons_of_mem _ hother)
    cases tokens with
    | nil => simpa [layout] using scans_nil.spelling hfirst (.inr (.inr (by simp [Apart])))
    | cons next rest =>
      rw [layout, List.append_assoc]
      split
      case isTrue hclose => exact hmore.spelling hfirst (layout_apart hclose)
      case isFalse => exact hmore.blank.spelling hfirst (.inr (.inr (by simp [Apart])))

/-- **Words on a line.** A line of words falls into these words. -/
theorem scan_layout (hspelled : ∀ token ∈ tokens, token.Spelled) :
    scan (String.ofList (layout tokens)) = .ok tokens := by
  rw [scan, String.toList_ofList]
  exact scans_layout tokens hspelled _ _ (Nat.lt_succ_self _)

end TableRecipe.Token
