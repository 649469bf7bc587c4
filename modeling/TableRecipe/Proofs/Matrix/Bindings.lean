import Mathlib.Algebra.BigOperators.Ring.List
import Mathlib.Algebra.Ring.Nat
import Mathlib.Data.List.Forall2
import TableRecipe.Matrix
import TableRecipe.Proofs.Fields

/-!
# Bindings of a matrix

The candidates of the variables are combined by choosing a place in every list of candidates. A
strategy tells which choices are made, and in which order; each of them binds the variables in the
order in which they were declared.

* `Matrix.IsChoice` — a place in every list, `Matrix.chosen` — the binding of the candidates there;
* `Matrix.ways` — all choices, the place of the first variable changing last;
* `Matrix.mem_ways_iff`, `Matrix.pairwise_ways`, `Matrix.length_ways` — each of them once, in order;
* `Matrix.getElem?_chosen`, `Matrix.names_chosen` — each variable is bound to a candidate of its own;
* `Matrix.combine_permutations`, `Matrix.combine_loop` — the bindings of the two strategies;
* `Matrix.combine_outcome` — all of this for lists of candidates.
-/

namespace TableRecipe.Matrix

variable {choices : List (String × List Value)} {places : List Nat} {start : Fields}

/-! ## Choices -/

/-- a place in every list of candidates -/
def IsChoice (choices : List (String × List Value)) (places : List Nat) : Prop :=
  List.Forall₂ (fun place choice => place < choice.2.length) places choices

/-- the binding of every variable to its candidate at the place chosen for it -/
def chosen (choices : List (String × List Value)) (places : List Nat) : Fields :=
  choices.zipWith (fun choice place => (choice.1, (choice.2[place]?).getD .null)) places

/-- all choices, the place in the first list changing last -/
def ways : List (String × List Value) → List (List Nat)
  | [] => [[]]
  | (_, values) :: rest =>
    (List.range values.length).flatMap fun place => (ways rest).map (place :: ·)

theorem mem_ways_iff : places ∈ ways choices ↔ IsChoice choices places := by
  induction choices generalizing places with
  | nil => simp [ways, IsChoice]
  | cons choice rest ih =>
    simp only [ways, List.mem_flatMap, List.mem_range, List.mem_map, ih]
    constructor
    · rintro ⟨place, hplace, others, hothers, rfl⟩
      exact .cons hplace hothers
    · rintro (_ | ⟨hplace, hothers⟩)
      exact ⟨_, hplace, _, hothers, rfl⟩

/-- No choice is made twice, and each comes before those that are greater at the first place where
they differ. -/
theorem pairwise_ways : (ways choices).Pairwise (List.Lex (· < ·)) := by
  induction choices with
  | nil => exact List.pairwise_singleton _ _
  | cons choice rest ih =>
    rw [ways, List.pairwise_flatMap]
    refine ⟨fun place _ => ?_, ?_⟩
    · exact List.pairwise_map.mpr (ih.imp .cons)
    · refine List.pairwise_lt_range.imp fun {place other} hlt => ?_
      intro first hfirst second hsecond
      obtain ⟨-, -, rfl⟩ := List.mem_map.mp hfirst
      obtain ⟨-, -, rfl⟩ := List.mem_map.mp hsecond
      exact .rel hlt

theorem length_ways : (ways choices).length = (choices.map (·.2.length)).prod := by
  induction choices with
  | nil => rfl
  | cons choice rest ih =>
    rw [ways, List.length_flatMap, List.map_cons, List.prod_cons, ← ih]
    simp only [List.length_map, List.map_const', List.length_range, List.sum_replicate_nat]

/-- Places beyond the end of a list start again at its front. -/
theorem isChoice_mod (h : ∀ choice ∈ choices, choice.2 ≠ []) (place : Nat) :
    IsChoice choices (choices.map fun choice => place % choice.2.length) := by
  rw [IsChoice, List.forall₂_map_left_iff, List.forall₂_same]
  exact fun choice hmem => Nat.mod_lt _ (List.length_pos_iff.mpr (h choice hmem))

/-! ## What is bound -/

/-- A choice binds every variable to one of its candidates. -/
theorem getElem?_chosen (h : IsChoice choices places) {number : Nat}
    {choice : String × List Value} (hchoice : choices[number]? = some choice) :
    ∃ place value, places[number]? = some place ∧ choice.2[place]? = some value ∧
      (chosen choices places)[number]? = some (choice.1, value) := by
  obtain ⟨hnumber, rfl⟩ := List.getElem?_eq_some_iff.mp hchoice
  have hplaces : number < places.length := (List.Forall₂.length_eq h) ▸ hnumber
  have hplace : places[number] < choices[number].2.length :=
    (List.forall₂_iff_get.mp h).2 number hplaces hnumber
  refine ⟨places[number], choices[number].2[places[number]], List.getElem?_eq_getElem hplaces,
    List.getElem?_eq_getElem hplace, ?_⟩
  rw [chosen, List.getElem?_zipWith]
  simp [hnumber, hplaces, hplace]

theorem names_chosen (h : IsChoice choices places) :
    (chosen choices places).names = choices.map (·.1) := by
  induction h with
  | nil => rfl
  | cons _ _ ih => exact congrArg _ ih

/-- A strategy that goes through the places binds the variables in the order of the lists. -/
theorem bindingAt_eq (hnames : (choices.map (·.1)).Nodup) (place : Nat) :
    bindingAt choices place =
      chosen choices (choices.map fun choice => place % choice.2.length) := by
  have hpairs : (Fields.names (choices.map fun choice =>
      (choice.1, (choice.2[place % choice.2.length]?).getD .null))).Nodup := by
    simpa [Fields.names, Function.comp_def] using hnames
  rw [bindingAt, Fields.ofPairs_of_nodup hpairs, chosen, List.zipWith_map_right, List.zipWith_self]

theorem map_range_getD (values : List Value) :
    (List.range values.length).map (fun place => (values[place]?).getD .null) = values := by
  refine List.ext_getElem (by simp) fun place hleft hright => ?_
  simp [hright]

/-- every binding so far, with every candidate of one more variable -/
def withEach (bindings : List Fields) (choice : String × List Value) : List Fields :=
  bindings.flatMap fun binding => choice.2.map fun value => Fields.insert choice.1 value binding

theorem withEach_eq {bindings : List Fields} {choice : String × List Value}
    (hnew : ∀ binding ∈ bindings, choice.1 ∉ binding.names) :
    withEach bindings choice =
      bindings.flatMap fun binding => (List.range choice.2.length).map fun place =>
        binding ++ [(choice.1, (choice.2[place]?).getD .null)] := by
  refine List.flatMap_congr fun binding hmem => ?_
  have hinsert (value : Value) : Fields.insert choice.1 value binding =
      binding ++ [(choice.1, value)] := Fields.insert_of_not_mem (hnew binding hmem)
  simp only [hinsert]
  conv_lhs => rw [← map_range_getD choice.2, List.map_map]
  rfl

/-- Every binding so far goes on with every choice of the lists that are left. -/
theorem foldl_withEach {bindings : List Fields}
    (hnames : ∀ binding ∈ bindings, (binding.names ++ choices.map (·.1)).Nodup) :
    choices.foldl withEach bindings =
      bindings.flatMap fun binding => (ways choices).map fun places =>
        binding ++ chosen choices places := by
  induction choices generalizing bindings with
  | nil => simp [ways, chosen]
  | cons choice rest ih =>
    have hnew : ∀ binding ∈ bindings, choice.1 ∉ binding.names := fun binding hmem hname =>
      (List.nodup_append.mp (hnames binding hmem)).2.2 choice.1 hname choice.1
        (List.mem_cons_self ..) rfl
    rw [List.foldl_cons, withEach_eq hnew, ih]
    · rw [List.flatMap_assoc]
      refine List.flatMap_congr fun binding _ => ?_
      rw [List.flatMap_map, ways, List.map_flatMap]
      refine List.flatMap_congr fun place _ => ?_
      simp [chosen]
    · intro binding hmem
      obtain ⟨before, hbefore, hmem⟩ := List.mem_flatMap.mp hmem
      obtain ⟨place, -, rfl⟩ := List.mem_map.mp hmem
      simpa [Fields.names] using hnames before hbefore

/-! ## The strategies -/

/-- whether there is nothing to choose: no variables, or one without candidates -/
def NoChoice (choices : List (String × List Value)) : Prop :=
  choices = [] ∨ ∃ choice ∈ choices, choice.2 = []

theorem noChoice_iff :
    (choices.isEmpty || choices.any (·.2.isEmpty)) = true ↔ NoChoice choices := by
  simp [NoChoice, List.isEmpty_iff]

theorem combine_nil (h : NoChoice choices) (strategy : Strategy) :
    combine choices strategy = [] := by
  rw [combine.eq_def]
  exact if_pos (noChoice_iff.mpr h)

theorem ways_nil (hne : choices ≠ []) (h : NoChoice choices) : ways choices = [] := by
  obtain ⟨choice, hmem, hnone⟩ := h.resolve_left hne
  refine List.eq_nil_iff_length_eq_zero.mpr ?_
  have hzero : 0 ∈ choices.map (·.2.length) :=
    List.mem_map.mpr ⟨choice, hmem, by rw [hnone]; rfl⟩
  rw [length_ways, List.prod_eq_zero hzero]

theorem combine_permutations (hne : choices ≠ []) (hnames : (choices.map (·.1)).Nodup) :
    combine choices .permutations = (ways choices).map (chosen choices) := by
  by_cases h : NoChoice choices
  · rw [combine_nil h, ways_nil hne h]
    rfl
  · have hstart : ∀ binding ∈ [[]], (Fields.names binding ++ choices.map (·.1)).Nodup := by
      simpa [Fields.names] using hnames
    rw [combine, if_neg (mt noChoice_iff.mp h)]
    exact (foldl_withEach hstart).trans (by simp)

/-- how many candidates the longest list has -/
def longest (choices : List (String × List Value)) : Nat :=
  choices.foldl (fun longest choice => max longest choice.2.length) 0

theorem max?_length (hne : choices ≠ []) :
    (choices.map (·.2.length)).max? = some (longest choices) := by
  obtain ⟨choice, rest, rfl⟩ := List.exists_cons_of_ne_nil hne
  rw [List.map_cons, List.max?_cons', longest, List.foldl_cons, List.foldl_map, Nat.zero_max]

theorem combine_loop (h : ¬NoChoice choices) (hnames : (choices.map (·.1)).Nodup) :
    combine choices .loop = (List.range (longest choices)).map fun place =>
      chosen choices (choices.map fun choice => place % choice.2.length) := by
  rw [combine, if_neg (mt noChoice_iff.mp h)]
  exact List.map_congr_left fun place _ => bindingAt_eq hnames place

/-- **Bindings.** Where the variables have different names, permutations make every choice of a
place for each variable once, in lexicographic order, so that there are as many bindings as the
product of the lengths tells; a loop makes as many choices as the longest list has candidates, each
list starting again at its end. Every binding has the variables in the order in which they were
declared. Without variables, or with one that has no candidates, there is no binding. -/
theorem combine_outcome (hnames : (choices.map (·.1)).Nodup) :
    (choices ≠ [] →
      combine choices .permutations = (ways choices).map (chosen choices) ∧
      (∀ places, places ∈ ways choices ↔ IsChoice choices places) ∧
      (ways choices).Pairwise (List.Lex (· < ·)) ∧
      (combine choices .permutations).length = (choices.map (·.2.length)).prod) ∧
    (¬NoChoice choices →
      (choices.map (·.2.length)).max? = some (combine choices .loop).length ∧
      ∀ place < (combine choices .loop).length,
        IsChoice choices (choices.map fun choice => place % choice.2.length) ∧
        (combine choices .loop)[place]? =
          some (chosen choices (choices.map fun choice => place % choice.2.length))) ∧
    (∀ strategy, ∀ binding ∈ combine choices strategy, binding.names = choices.map (·.1)) ∧
    ∀ strategy, NoChoice choices → combine choices strategy = [] := by
  have hfull (h : ¬NoChoice choices) : ∀ choice ∈ choices, choice.2 ≠ [] :=
    fun choice hmem hempty => h (.inr ⟨choice, hmem, hempty⟩)
  refine ⟨fun hne => ?_, fun h => ?_, fun strategy binding hmem => ?_,
    fun strategy h => combine_nil h strategy⟩
  · rw [combine_permutations hne hnames, List.length_map, length_ways]
    exact ⟨rfl, fun _ => mem_ways_iff, pairwise_ways, rfl⟩
  · rw [combine_loop h hnames, List.length_map, List.length_range]
    refine ⟨max?_length fun hnil => h (.inl hnil), fun place hplace => ?_⟩
    exact ⟨isChoice_mod (hfull h) place, by simp [hplace]⟩
  · by_cases h : NoChoice choices
    · rw [combine_nil h] at hmem
      cases hmem
    · cases strategy with
      | loop =>
        rw [combine_loop h hnames] at hmem
        obtain ⟨place, -, rfl⟩ := List.mem_map.mp hmem
        exact names_chosen (isChoice_mod (hfull h) place)
      | permutations =>
        rw [combine_permutations (fun hnil => h (.inl hnil)) hnames] at hmem
        obtain ⟨places, hplaces, rfl⟩ := List.mem_map.mp hmem
        exact names_chosen (mem_ways_iff.mp hplaces)

/-- two variables, one with more candidates than the other -/
def sizesAndColors : List (String × List Value) :=
  [("size", [.ofInt 1, .ofInt 2]), ("color", [.string "r", .string "g", .string "b"])]

theorem combine_outcome_sizesAndColors :
    (sizesAndColors.map (·.1)).Nodup ∧
      (ways sizesAndColors) = [[0, 0], [0, 1], [0, 2], [1, 0], [1, 1], [1, 2]] ∧
      combine sizesAndColors .permutations =
        (ways sizesAndColors).map (chosen sizesAndColors) ∧
      (combine sizesAndColors .loop)[2]? =
        some [("size", .ofInt 1), ("color", .string "b")] := by
  have hnames : (sizesAndColors.map (·.1)).Nodup := by decide
  obtain ⟨hpermutations, hloop, -⟩ := combine_outcome hnames
  obtain ⟨hlength, hat⟩ := hloop (by simp [NoChoice, sizesAndColors])
  have hthree : (combine sizesAndColors .loop).length = 3 := Option.some.inj hlength.symm
  refine ⟨hnames, rfl, (hpermutations (by decide)).1, ?_⟩
  exact (hat 2 (by rw [hthree]; decide)).2

end TableRecipe.Matrix
