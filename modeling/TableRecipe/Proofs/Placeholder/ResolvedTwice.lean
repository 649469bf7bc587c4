import TableRecipe.Placeholder.Recipe
import TableRecipe.Proofs.Placeholder.Filling
import TableRecipe.Proofs.Placeholder.Replacing

/-!
# Placeholders that are replaced twice

What is bound only later is resolved twice: first with the bindings around it, names without a value
being tolerated, then with all bindings. The first time leaves a text behind that the second time
reads anew. It comes out as if all bindings had been applied at once unless what was put in reads as
a placeholder, or makes one with the text around it, or leaves nothing but a placeholder.

* `Placeholder.LeadsTo` — the texts that are resolved when a text is;
* `Placeholder.Settled` — what a second time must not change;
* `Placeholder.Harmless` — bindings that put nothing in that the second time could read;
* `Placeholder.resolve_twice` — when resolving twice is the same as resolving once.
-/

namespace TableRecipe.Placeholder

variable {reading : Reading} {first second all bindings : Fields} {tolerant : Bool}
  {opened : List String} {value parsed : Value} {text : String} {name : List Char}

/-! ## Texts of each kind -/

/-- the list or mapping that a value holds in writing -/
def written? (reading : Reading) : Value → Option Value
  | .string inner => structure? reading inner
  | _ => none

/-- the kinds of texts, by what is resolved in them -/
inductive Kind (reading : Reading) (bindings : Fields) (text : String) : Prop where
  /-- text with any number of placeholders in it -/
  | mixed (hwhole : whole? text.toList = none)
  /-- a placeholder for a name without a value -/
  | unbound (name : List Char) (hwhole : whole? text.toList = some name)
    (hfind : Fields.find? (String.ofList name) bindings = none)
  /-- a placeholder for a value -/
  | plain (name : List Char) (value : Value) (hwhole : whole? text.toList = some name)
    (hfind : Fields.find? (String.ofList name) bindings = some value)
    (hwritten : written? reading value = none)
  /-- a placeholder for a list or mapping in writing -/
  | written (name : List Char) (value parsed : Value) (hwhole : whole? text.toList = some name)
    (hfind : Fields.find? (String.ofList name) bindings = some value)
    (hwritten : written? reading value = some parsed)

theorem kind (reading : Reading) (bindings : Fields) (text : String) :
    Kind reading bindings text := by
  rcases hwhole : whole? text.toList with _ | name
  · exact .mixed hwhole
  · rcases hfind : Fields.find? (String.ofList name) bindings with _ | value
    · exact .unbound name hwhole hfind
    · rcases hwritten : written? reading value with _ | parsed
      · exact .plain name value hwhole hfind hwritten
      · exact .written name value parsed hwhole hfind hwritten

section

variable {expand expand' : String → Value → Except Error Value}

theorem resolveText_mixed (hwhole : whole? text.toList = none) :
    resolveText reading bindings tolerant expand text =
      (fill bindings tolerant text.toList).map fun filled => .string (String.ofList filled) := by
  rw [resolveText, hwhole]
  rcases fill bindings tolerant text.toList with e | filled <;> rfl

theorem resolveText_unbound (hwhole : whole? text.toList = some name)
    (hfind : Fields.find? (String.ofList name) bindings = none) :
    resolveText reading bindings tolerant expand text =
      if tolerant then .ok (.string text)
      else .error (.of (.unknownVariable (String.ofList name))) := by
  simp only [resolveText, hwhole, hfind]

theorem resolveText_plain (hwhole : whole? text.toList = some name)
    (hfind : Fields.find? (String.ofList name) bindings = some value)
    (hwritten : written? reading value = none) :
    resolveText reading bindings tolerant expand text = .ok value := by
  cases value with
  | string inner =>
    rw [written?] at hwritten
    simp only [resolveText, hwhole, hfind, hwritten]
  | null => simp only [resolveText, hwhole, hfind]
  | bool flag => simp only [resolveText, hwhole, hfind]
  | number n => simp only [resolveText, hwhole, hfind]
  | list items => simp only [resolveText, hwhole, hfind]
  | object entries => simp only [resolveText, hwhole, hfind]

theorem resolveText_written (hwhole : whole? text.toList = some name)
    (hfind : Fields.find? (String.ofList name) bindings = some value)
    (hwritten : written? reading value = some parsed) :
    resolveText reading bindings tolerant expand text = expand (String.ofList name) parsed := by
  cases value with
  | string inner =>
    rw [written?] at hwritten
    simp only [resolveText, hwhole, hfind, hwritten]
  | null => cases hwritten
  | bool flag => cases hwritten
  | number n => cases hwritten
  | list items => cases hwritten
  | object entries => cases hwritten

/-- A text is resolved with success if what is bound in writing is. -/
theorem resolveText_mono {result : Value}
    (hexpand : ∀ name parsed result, expand name parsed = .ok result →
      expand' name parsed = .ok result)
    (h : resolveText reading bindings tolerant expand text = .ok result) :
    resolveText reading bindings tolerant expand' text = .ok result := by
  cases kind reading bindings text with
  | mixed hwhole => rwa [resolveText_mixed hwhole] at h ⊢
  | unbound name hwhole hfind => rwa [resolveText_unbound hwhole hfind] at h ⊢
  | plain name value hwhole hfind hwritten => rwa [resolveText_plain hwhole hfind hwritten] at h ⊢
  | written name value parsed hwhole hfind hwritten =>
    rw [resolveText_written hwhole hfind hwritten] at h ⊢
    exact hexpand _ _ _ h

end

/-- What is bound in writing is resolved with success inside of fewer opened names, too. -/
theorem expand_mono {free free' : Nat} {opened' : List String} {name : String} {result : Value}
    (hfree : free ≤ free') (hopened : opened' ⊆ opened)
    (h : expand reading bindings tolerant free opened name parsed = .ok result) :
    expand reading bindings tolerant free' opened' name parsed = .ok result := by
  induction free generalizing free' opened opened' name parsed result with
  | zero => cases h
  | succ free ih =>
    obtain ⟨left, rfl⟩ : ∃ left, free' = left + 1 := ⟨free' - 1, by omega⟩
    rw [expand] at h ⊢
    split at h
    · cases h
    · rename_i hname
      have hname' : ¬ opened'.contains name := fun hmem => hname (List.contains_iff_mem.mpr
        (hopened (List.contains_iff_mem.mp hmem)))
      have hmore : opened' ++ [name] ⊆ opened ++ [name] :=
        List.append_subset.mpr ⟨List.Subset.trans hopened (List.subset_append_left ..),
          List.subset_append_right ..⟩
      rw [if_neg hname']
      exact Value.replaceTexts_mono parsed (fun text _ r hr =>
        resolveText_mono (fun _ _ _ => ih (by omega) hmore) hr) h

/-! ## The second time -/

/-- the list or mapping in writing that a text stands for -/
def standsFor? (reading : Reading) (bindings : Fields) (text : String) : Option Value := do
  let name ← whole? text.toList
  written? reading (← Fields.find? (String.ofList name) bindings)

/-- the texts that are resolved when a text is: itself, and those of the list or mapping in writing
that such a text stands for -/
inductive LeadsTo (reading : Reading) (bindings : Fields) : String → String → Prop where
  | self (text : String) : LeadsTo reading bindings text text
  | written {text part last : String} {parsed : Value}
    (hparsed : standsFor? reading bindings text = some parsed) (hpart : part ∈ parsed.texts)
    (h : LeadsTo reading bindings part last) : LeadsTo reading bindings text last

/-- What holds of all texts that a text leads to holds of the text, and of all that the texts of the
list or mapping lead to which it stands for. -/
theorem forall_leadsTo_of_some {p : String → Prop}
    (hparsed : standsFor? reading bindings text = some parsed) :
    (∀ last, LeadsTo reading bindings text last → p last) ↔
      p text ∧ ∀ part ∈ parsed.texts, ∀ last, LeadsTo reading bindings part last → p last := by
  constructor
  · intro h
    refine ⟨h text (.self text), fun part hpart last hleads => ?_⟩
    exact h last (.written hparsed hpart hleads)
  · rintro ⟨hself, hparts⟩ last hleads
    cases hleads with
    | self => exact hself
    | written hparsed' hpart hleads =>
      obtain rfl := Option.some.inj (hparsed.symm.trans hparsed')
      exact hparts _ hpart last hleads

/-- A text that stands for no list or mapping leads to itself alone. -/
theorem forall_leadsTo_of_none {p : String → Prop}
    (hnone : standsFor? reading bindings text = none) :
    (∀ last, LeadsTo reading bindings text last → p last) ↔ p text := by
  refine ⟨fun h => h text (.self text), fun hself last hleads => ?_⟩
  cases hleads with
  | self => exact hself
  | written hparsed _ _ =>
    rw [hnone] at hparsed
    cases hparsed

/-- A second time, with all bindings, makes the same of a text as all bindings make at once: a value
that took the place of the text resolves to itself, and a text in which some names were filled
becomes the text in which all names are filled. -/
def Settled (reading : Reading) (first all : Fields) (text : String) : Prop :=
  match whole? text.toList with
  | none =>
    ∀ middle filled, fill first true text.toList = .ok middle →
      fill all false text.toList = .ok filled →
      resolve reading all false (.string (String.ofList middle)) =
        .ok (.string (String.ofList filled))
  | some name =>
    ∀ value, Fields.find? (String.ofList name) first = some value →
      written? reading value = none → resolve reading all false value = .ok value

section

variable (hall : ∀ name value, Fields.find? name first = some value →
  Fields.find? name all = some value)
include hall

/-- A text that is resolved twice comes out as if it had been resolved once if and only if all the
texts that it leads to are settled. -/
theorem resolveText_twice {expandFirst expandAll : String → Value → Except Error Value}
    {text : String} {middle result : Value}
    (hexpand : ∀ name parsed middle result, expandFirst name parsed = .ok middle →
      expandAll name parsed = .ok result → (resolve reading all false middle = .ok result ↔
        ∀ part ∈ parsed.texts, ∀ last, LeadsTo reading first part last →
          Settled reading first all last))
    (hmono : ∀ name parsed result, expandAll name parsed = .ok result →
      expand reading all false all.length [] name parsed = .ok result)
    (hmiddle : resolveText reading first true expandFirst text = .ok middle)
    (hresult : resolveText reading all false expandAll text = .ok result) :
    resolve reading all false middle = .ok result ↔
      ∀ last, LeadsTo reading first text last → Settled reading first all last := by
  cases kind reading first text with
  | mixed hwhole =>
    have hnone : standsFor? reading first text = none := by rw [standsFor?, hwhole]; rfl
    rw [resolveText_mixed hwhole] at hmiddle hresult
    rcases hfirst : fill first true text.toList with e | filled <;> rw [hfirst] at hmiddle
    · cases hmiddle
    rcases hlast : fill all false text.toList with e | filled' <;> rw [hlast] at hresult
    · cases hresult
    obtain rfl := Except.ok.inj hmiddle
    obtain rfl := Except.ok.inj hresult
    simp [forall_leadsTo_of_none hnone, Settled, hwhole, hfirst, hlast]
  | unbound name hwhole hfind =>
    have hnone : standsFor? reading first text = none := by rw [standsFor?, hwhole]; simp [hfind]
    rw [resolveText_unbound hwhole hfind, if_pos rfl] at hmiddle
    obtain rfl := Except.ok.inj hmiddle
    -- the text is still there, so it is resolved as it was
    have hsecond : resolve reading all false (.string text) = .ok result :=
      resolveText_mono hmono hresult
    simp [forall_leadsTo_of_none hnone, Settled, hwhole, hfind, hsecond]
  | plain name value hwhole hfind hwritten =>
    have hnone : standsFor? reading first text = none := by
      rw [standsFor?, hwhole]; simp [hfind, hwritten]
    rw [resolveText_plain hwhole hfind hwritten] at hmiddle
    rw [resolveText_plain hwhole (hall _ _ hfind) hwritten] at hresult
    obtain rfl := Except.ok.inj hmiddle
    obtain rfl := Except.ok.inj hresult
    simp [forall_leadsTo_of_none hnone, Settled, hwhole, hfind, hwritten]
  | written name value parsed hwhole hfind hwritten =>
    have hparsed : standsFor? reading first text = some parsed := by
      rw [standsFor?, hwhole]; simp [hfind, hwritten]
    rw [resolveText_written hwhole hfind hwritten] at hmiddle
    rw [resolveText_written hwhole (hall _ _ hfind) hwritten] at hresult
    have hself : Settled reading first all text := by simp [Settled, hwhole, hfind, hwritten]
    rw [hexpand _ _ _ _ hmiddle hresult, forall_leadsTo_of_some hparsed, and_iff_right hself]

/-- The same holds of what is bound in writing. -/
theorem expand_twice {free free' : Nat} {opened' : List String} {name : String}
    {middle result : Value} (hfree : free' ≤ all.length)
    (hmiddle : expand reading first true free opened name parsed = .ok middle)
    (hresult : expand reading all false free' opened' name parsed = .ok result) :
    resolve reading all false middle = .ok result ↔
      ∀ part ∈ parsed.texts, ∀ last, LeadsTo reading first part last →
        Settled reading first all last := by
  induction free generalizing free' opened opened' name parsed middle result with
  | zero => cases hmiddle
  | succ free ih =>
    cases free' with
    | zero => cases hresult
    | succ free' =>
      rw [expand] at hmiddle hresult
      split at hmiddle
      · cases hmiddle
      split at hresult
      · cases hresult
      refine Value.replaceTexts_again parsed ?_ hmiddle hresult
      intro text _ middle result hmiddle hresult
      refine resolveText_twice hall ?_ ?_ hmiddle hresult
      · intro name parsed middle result hmiddle hresult
        exact ih (by omega) hmiddle hresult
      · exact fun name parsed result => expand_mono (by omega) (List.nil_subset _)

end

/-! ## Nothing to read anew -/

/-- what the first time leaves of a text holds nothing that a second time could read: a value that
takes its place mentions no name; no name in it has a value; or its other characters and the values
put in have no opening brace, and it does not shrink to a placeholder -/
def Harmless (reading : Reading) (first : Fields) (text : String) : Prop :=
  match whole? text.toList with
  | none =>
    (∀ name, .name name ∈ pieces text.toList → Fields.find? (String.ofList name) first = none) ∨
    (∀ c, .char c ∈ pieces text.toList → c ≠ '\x7b') ∧
    (∀ name value, .name name ∈ pieces text.toList →
      Fields.find? (String.ofList name) first = some value → '\x7b' ∉ value.text.toList) ∧
    ∀ middle, fill first true text.toList = .ok middle → whole? middle = none
  | some name =>
    ∀ value, Fields.find? (String.ofList name) first = some value → written? reading value = none →
      ∀ part ∈ value.texts, namesIn part = []

/-- A value that mentions no name resolves to itself. -/
theorem resolve_of_no_names (h : ∀ text ∈ value.texts, namesIn text = []) :
    resolve reading bindings tolerant value = .ok value := by
  refine Value.replaceTexts_self value fun text htext => ?_
  have hwhole : whole? text.toList = none := by
    rcases hname : whole? text.toList with _ | name
    · rfl
    · have hmem := mem_namesIn_of_whole? hname
      rw [h text htext] at hmem
      cases hmem
  rw [resolveText_mixed hwhole, fill_of_no_names (h text htext)]
  simp [Except.map]

theorem settled_of_harmless (hall : ∀ name value, Fields.find? name first = some value →
    Fields.find? name all = some value) (h : Harmless reading first text) :
    Settled reading first all text := by
  rw [Settled]
  rw [Harmless] at h
  split
  · rename_i hwhole
    rw [hwhole] at h
    intro middle filled hmiddle hfilled
    change resolveText reading all false _ _ = _
    rcases h with hunbound | ⟨hchars, hvalues, hmixed⟩
    · rw [fill_unbound hunbound] at hmiddle
      obtain rfl := Except.ok.inj hmiddle
      rw [String.ofList_toList, resolveText_mixed hwhole, hfilled]
      rfl
    · have hnone := hmixed middle hmiddle
      rw [fill_tolerant] at hmiddle
      obtain rfl := Except.ok.inj hmiddle
      rw [resolveText_mixed (by rwa [String.toList_ofList]), String.toList_ofList]
      -- what is left has the pieces that it was spelled from
      have hfill : fill all false (((pieces text.toList).flatMap (Piece.known first)).flatMap
          Piece.spell) = .ok filled := by
        change fillPieces all false (pieces _) = _
        rw [pieces_spell (apart_known hchars hvalues), fillPieces_known hall]
        exact hfilled
      rw [hfill]
      rfl
  · rename_i name hwhole
    rw [hwhole] at h
    exact fun value hfind hwritten => resolve_of_no_names (h value hfind hwritten)

/-- **Placeholders that are replaced twice.** Take bindings of different names. To resolve a value
with the first ones, names without a value being tolerated, and what comes out with all of them, is
the same as to resolve it with all of them if and only if every text in it is settled, and every
text of a list or mapping bound in writing that such a text leads to. They are if the first time
leaves nothing behind that the second time could read. -/
theorem resolve_twice {node middle result : Value}
    (hdisjoint : ∀ name, (Fields.find? name first).isSome → Fields.find? name second = none)
    (hmiddle : resolve reading first true node = .ok middle)
    (hresult : resolve reading (Fields.extend first second) false node = .ok result) :
    (resolve reading (Fields.extend first second) false middle = .ok result ↔
      ∀ text ∈ node.texts, ∀ last, LeadsTo reading first text last →
        Settled reading first (Fields.extend first second) last) ∧
    ((∀ text ∈ node.texts, ∀ last, LeadsTo reading first text last →
        Harmless reading first last) →
      resolve reading (Fields.extend first second) false middle = .ok result) := by
  have hall : ∀ name value, Fields.find? name first = some value →
      Fields.find? name (Fields.extend first second) = some value := by
    intro name value hfind
    have hsecond := hdisjoint name (by rw [hfind]; rfl)
    rw [Fields.find?_extend, Fields.find?_ofPairs_of_none hsecond, hfind]
    rfl
  have htwice : resolve reading (Fields.extend first second) false middle = .ok result ↔
      ∀ text ∈ node.texts, ∀ last, LeadsTo reading first text last →
        Settled reading first (Fields.extend first second) last := by
    refine Value.replaceTexts_again node ?_ hmiddle hresult
    intro text _ middle result hmiddle hresult
    refine resolveText_twice hall ?_ (fun _ _ _ h => h) hmiddle hresult
    exact fun name parsed middle result => expand_twice hall (Nat.le_refl _)
  refine ⟨htwice, fun hharmless => htwice.mpr fun text htext last hleads => ?_⟩
  exact settled_of_harmless hall (hharmless text htext last hleads)

/-- bindings around a body: a list in writing that names a variable, and a text -/
def around : Fields := [("columns", .string "[a, \"$\x7bx\x7d\"]"), ("lead", .string "p")]

/-- the bindings of the body -/
def ofBody : Fields := [("x", .ofInt 5)]

/-- a body that mentions all of them -/
def body : Value := .list [.string "$\x7bcolumns\x7d", .string "$\x7blead\x7d-$\x7bx\x7d"]

theorem resolve_twice_body :
    (∀ name, (Fields.find? name around).isSome → Fields.find? name ofBody = none) ∧
    resolve readDocument around true body =
      .ok (.list [.list [.string "a", .string "$\x7bx\x7d"], .string "p-$\x7bx\x7d"]) ∧
    resolve readDocument (Fields.extend around ofBody) false body =
      .ok (.list [.list [.string "a", .ofInt 5], .string "p-5"]) ∧
    ∀ text ∈ body.texts, ∀ last, LeadsTo readDocument around text last →
      Settled readDocument around (Fields.extend around ofBody) last := by
  have hdisjoint : ∀ name, (Fields.find? name around).isSome →
      Fields.find? name ofBody = none := by
    intro name hbound
    by_cases hname : "x" = name
    · subst hname
      cases hbound
    · simp [ofBody, Fields.find?, hname]
  have hmiddle : resolve readDocument around true body =
      .ok (.list [.list [.string "a", .string "$\x7bx\x7d"], .string "p-$\x7bx\x7d"]) := by
    decide +kernel
  have hresult : resolve readDocument (Fields.extend around ofBody) false body =
      .ok (.list [.list [.string "a", .ofInt 5], .string "p-5"]) := by
    decide +kernel
  have hagain : resolve readDocument (Fields.extend around ofBody) false
      (.list [.list [.string "a", .string "$\x7bx\x7d"], .string "p-$\x7bx\x7d"]) =
      .ok (.list [.list [.string "a", .ofInt 5], .string "p-5"]) := by
    decide +kernel
  exact ⟨hdisjoint, hmiddle, hresult, (resolve_twice hdisjoint hmiddle hresult).1.mp hagain⟩

/-- A text put in is read as a placeholder the second time; and a text that shrinks to a placeholder
becomes a number, though all bindings at once make a text of it. -/
theorem placeholder_read_anew :
    (resolve readDocument [("a", .string "$\x7bb\x7d")] true (.string "$\x7ba\x7d") =
        .ok (.string "$\x7bb\x7d") ∧
      resolve readDocument (Fields.extend [("a", .string "$\x7bb\x7d")] [("b", .string "v")]) false
        (.string "$\x7ba\x7d") = .ok (.string "$\x7bb\x7d") ∧
      resolve readDocument (Fields.extend [("a", .string "$\x7bb\x7d")] [("b", .string "v")]) false
        (.string "$\x7bb\x7d") = .ok (.string "v")) ∧
    resolve readDocument [("a", .string "")] true (.string "$\x7ba\x7d$\x7bb\x7d") =
        .ok (.string "$\x7bb\x7d") ∧
      resolve readDocument (Fields.extend [("a", .string "")] [("b", .ofInt 5)]) false
        (.string "$\x7ba\x7d$\x7bb\x7d") = .ok (.string "5") ∧
      resolve readDocument (Fields.extend [("a", .string "")] [("b", .ofInt 5)]) false
        (.string "$\x7bb\x7d") = .ok (.ofInt 5) := by
  decide +kernel

end TableRecipe.Placeholder
