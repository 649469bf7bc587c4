import TableRecipe.Proofs.Placeholder.Consults

/-!
# Replacing texts again

What is known about the replacements of single texts is known about the replacement of all texts in
a value, however they are nested in it.

* `Value.replaceTexts_mono` — a replacement that succeeds more often;
* `Value.replaceTexts_again` — replacing what has been replaced;
* `Value.replaceTexts_self` — a replacement that changes nothing;
* `Value.replaceTexts_outcome` — a replacement that may fail.
-/

namespace TableRecipe

namespace Value

variable {replace replace' again : String → Except Error Value}

mutual
/-- A replacement that succeeds wherever another does, with the same result, changes a value as that
one does. -/
theorem replaceTexts_mono : (value : Value) → {result : Value} →
    (∀ text ∈ value.texts, ∀ r, replace text = .ok r → replace' text = .ok r) →
    value.replaceTexts replace = .ok result → value.replaceTexts replace' = .ok result
  | .string text, _, hmono, h => hmono text (List.mem_singleton_self text) _ h
  | .list items, _, hmono, h => by
    obtain ⟨items', hitems, hpure⟩ := bind_eq_ok.mp h
    exact bind_eq_ok.mpr ⟨items', replaceInItems_mono items hmono hitems, hpure⟩
  | .object entries, _, hmono, h => by
    obtain ⟨entries', hentries, hpure⟩ := bind_eq_ok.mp h
    exact bind_eq_ok.mpr ⟨entries', replaceInEntries_mono entries hmono hentries, hpure⟩
  | .null, _, _, h => h
  | .bool _, _, _, h => h
  | .number _, _, _, h => h
theorem replaceInItems_mono : (items : List Value) → {result : List Value} →
    (∀ text ∈ textsInItems items, ∀ r, replace text = .ok r → replace' text = .ok r) →
    replaceInItems replace items = .ok result → replaceInItems replace' items = .ok result
  | [], _, _, h => h
  | item :: rest, _, hmono, h => by
    obtain ⟨item', hitem, h⟩ := bind_eq_ok.mp h
    obtain ⟨rest', hrest, hpure⟩ := bind_eq_ok.mp h
    refine bind_eq_ok.mpr ⟨item', ?_, bind_eq_ok.mpr ⟨rest', ?_, hpure⟩⟩
    · exact replaceTexts_mono item (fun text hmem => hmono text (List.mem_append_left _ hmem)) hitem
    · exact replaceInItems_mono rest (fun text hmem => hmono text (List.mem_append_right _ hmem))
        hrest
theorem replaceInEntries_mono : (entries : Fields) → {result : Fields} →
    (∀ text ∈ textsInEntries entries, ∀ r, replace text = .ok r → replace' text = .ok r) →
    replaceInEntries replace entries = .ok result → replaceInEntries replace' entries = .ok result
  | [], _, _, h => h
  | (name, value) :: rest, _, hmono, h => by
    obtain ⟨value', hvalue, h⟩ := bind_eq_ok.mp h
    obtain ⟨rest', hrest, hpure⟩ := bind_eq_ok.mp h
    refine bind_eq_ok.mpr ⟨value', ?_, bind_eq_ok.mpr ⟨rest', ?_, hpure⟩⟩
    · exact replaceTexts_mono value (fun text hmem => hmono text (List.mem_append_left _ hmem))
        hvalue
    · exact replaceInEntries_mono rest (fun text hmem => hmono text (List.mem_append_right _ hmem))
        hrest
end

variable {once : String → Except Error Value} {p : String → Prop}

mutual
/-- If a condition says for each text whether two replacements, one after the other, come to what a
third makes of it, then it says so for a value whose texts all satisfy it. -/
theorem replaceTexts_again : (value : Value) → {first result : Value} →
    (∀ text ∈ value.texts, ∀ first result, replace text = .ok first → once text = .ok result →
      (first.replaceTexts again = .ok result ↔ p text)) →
    value.replaceTexts replace = .ok first → value.replaceTexts once = .ok result →
    (first.replaceTexts again = .ok result ↔ ∀ text ∈ value.texts, p text)
  | .string text, first, result, hp, h, hresult => by
    rw [texts, List.forall_mem_singleton]
    exact hp text (List.mem_singleton_self text) first result h hresult
  | .list items, _, _, hp, h, hresult => by
    obtain ⟨firsts, hfirsts, hpure⟩ := bind_eq_ok.mp h
    obtain ⟨results, hresults, hpure'⟩ := bind_eq_ok.mp hresult
    obtain rfl := pure_eq_ok.mp hpure
    obtain rfl := pure_eq_ok.mp hpure'
    rw [texts, ← replaceInItems_again items hp hfirsts hresults, replaceTexts, bind_eq_ok]
    simp only [pure_eq_ok, list.injEq, exists_eq_right]
  | .object entries, _, _, hp, h, hresult => by
    obtain ⟨firsts, hfirsts, hpure⟩ := bind_eq_ok.mp h
    obtain ⟨results, hresults, hpure'⟩ := bind_eq_ok.mp hresult
    obtain rfl := pure_eq_ok.mp hpure
    obtain rfl := pure_eq_ok.mp hpure'
    rw [texts, ← replaceInEntries_again entries hp hfirsts hresults, replaceTexts, bind_eq_ok]
    simp only [pure_eq_ok, object.injEq, exists_eq_right]
  | .null, _, _, _, h, hresult => by
    obtain rfl := pure_eq_ok.mp h
    exact ⟨fun _ => nofun, fun _ => hresult⟩
  | .bool _, _, _, _, h, hresult => by
    obtain rfl := pure_eq_ok.mp h
    exact ⟨fun _ => nofun, fun _ => hresult⟩
  | .number _, _, _, _, h, hresult => by
    obtain rfl := pure_eq_ok.mp h
    exact ⟨fun _ => nofun, fun _ => hresult⟩
theorem replaceInItems_again : (items : List Value) → {firsts results : List Value} →
    (∀ text ∈ textsInItems items, ∀ first result, replace text = .ok first →
      once text = .ok result → (first.replaceTexts again = .ok result ↔ p text)) →
    replaceInItems replace items = .ok firsts → replaceInItems once items = .ok results →
    (replaceInItems again firsts = .ok results ↔ ∀ text ∈ textsInItems items, p text)
  | [], _, _, _, h, hresult => by
    obtain rfl := pure_eq_ok.mp h
    exact ⟨fun _ => nofun, fun _ => hresult⟩
  | item :: rest, _, _, hp, h, hresult => by
    obtain ⟨first, hfirst, h⟩ := bind_eq_ok.mp h
    obtain ⟨firsts, hfirsts, hpure⟩ := bind_eq_ok.mp h
    obtain ⟨result, hone, hresult⟩ := bind_eq_ok.mp hresult
    obtain ⟨results, hresults, hpure'⟩ := bind_eq_ok.mp hresult
    obtain rfl := pure_eq_ok.mp hpure
    obtain rfl := pure_eq_ok.mp hpure'
    obtain ⟨hp, hps⟩ := List.forall_mem_append.mp hp
    rw [textsInItems, List.forall_mem_append, ← replaceTexts_again item hp hfirst hone,
      ← replaceInItems_again rest hps hfirsts hresults, replaceInItems]
    simp only [bind_eq_ok, pure_eq_ok, List.cons.injEq, exists_eq_right_right]
theorem replaceInEntries_again : (entries : Fields) → {firsts results : Fields} →
    (∀ text ∈ textsInEntries entries, ∀ first result, replace text = .ok first →
      once text = .ok result → (first.replaceTexts again = .ok result ↔ p text)) →
    replaceInEntries replace entries = .ok firsts → replaceInEntries once entries = .ok results →
    (replaceInEntries again firsts = .ok results ↔ ∀ text ∈ textsInEntries entries, p text)
  | [], _, _, _, h, hresult => by
    obtain rfl := pure_eq_ok.mp h
    exact ⟨fun _ => nofun, fun _ => hresult⟩
  | (name, value) :: rest, _, _, hp, h, hresult => by
    obtain ⟨first, hfirst, h⟩ := bind_eq_ok.mp h
    obtain ⟨firsts, hfirsts, hpure⟩ := bind_eq_ok.mp h
    obtain ⟨result, hone, hresult⟩ := bind_eq_ok.mp hresult
    obtain ⟨results, hresults, hpure'⟩ := bind_eq_ok.mp hresult
    obtain rfl := pure_eq_ok.mp hpure
    obtain rfl := pure_eq_ok.mp hpure'
    obtain ⟨hp, hps⟩ := List.forall_mem_append.mp hp
    rw [textsInEntries, List.forall_mem_append, ← replaceTexts_again value hp hfirst hone,
      ← replaceInEntries_again rest hps hfirsts hresults, replaceInEntries]
    simp only [bind_eq_ok, pure_eq_ok, List.cons.injEq, Prod.mk.injEq, true_and,
      exists_eq_right_right]
end

mutual
/-- A value whose texts stay as they are stays as it is. -/
theorem replaceTexts_self : (value : Value) →
    (∀ text ∈ value.texts, replace text = .ok (.string text)) →
    value.replaceTexts replace = .ok value
  | .string text, h => h text (List.mem_singleton_self text)
  | .list items, h => by
    rw [replaceTexts, replaceInItems_self items h]
    rfl
  | .object entries, h => by
    rw [replaceTexts, replaceInEntries_self entries h]
    rfl
  | .null, _ => rfl
  | .bool _, _ => rfl
  | .number _, _ => rfl
theorem replaceInItems_self : (items : List Value) →
    (∀ text ∈ textsInItems items, replace text = .ok (.string text)) →
    replaceInItems replace items = .ok items
  | [], _ => rfl
  | item :: rest, h => by
    obtain ⟨hitem, hrest⟩ := List.forall_mem_append.mp h
    rw [replaceInItems, replaceTexts_self item hitem, replaceInItems_self rest hrest]
    rfl
theorem replaceInEntries_self : (entries : Fields) →
    (∀ text ∈ textsInEntries entries, replace text = .ok (.string text)) →
    replaceInEntries replace entries = .ok entries
  | [], _ => rfl
  | (name, value) :: rest, h => by
    obtain ⟨hvalue, hrest⟩ := List.forall_mem_append.mp h
    rw [replaceInEntries, replaceTexts_self value hvalue, replaceInEntries_self rest hrest]
    rfl
end

variable (replace) in
mutual
/-- Either all texts of a value are replaced, or the value fails as one of them does. -/
theorem replaceTexts_outcome : (value : Value) →
    (∃ result, value.replaceTexts replace = .ok result ∧
      ∀ text ∈ value.texts, ∃ r, replace text = .ok r) ∨
    ∃ e, value.replaceTexts replace = .error e ∧ ∃ text ∈ value.texts, replace text = .error e
  | .string text => by
    simp only [replaceTexts, texts, List.mem_singleton, forall_eq, exists_eq_left]
    rcases replace text with e | result
    · exact .inr ⟨e, rfl, rfl⟩
    · exact .inl ⟨result, rfl, result, rfl⟩
  | .list items => by
    rw [replaceTexts]
    rcases replaceInItems_outcome items with ⟨items', h, hall⟩ | ⟨e, h, htext⟩ <;> rw [h]
    · exact .inl ⟨.list items', rfl, hall⟩
    · exact .inr ⟨e, rfl, htext⟩
  | .object entries => by
    rw [replaceTexts]
    rcases replaceInEntries_outcome entries with ⟨entries', h, hall⟩ | ⟨e, h, htext⟩ <;> rw [h]
    · exact .inl ⟨.object entries', rfl, hall⟩
    · exact .inr ⟨e, rfl, htext⟩
  | .null => .inl ⟨.null, rfl, nofun⟩
  | .bool flag => .inl ⟨.bool flag, rfl, nofun⟩
  | .number n => .inl ⟨.number n, rfl, nofun⟩
theorem replaceInItems_outcome : (items : List Value) →
    (∃ results, replaceInItems replace items = .ok results ∧
      ∀ text ∈ textsInItems items, ∃ r, replace text = .ok r) ∨
    ∃ e, replaceInItems replace items = .error e ∧
      ∃ text ∈ textsInItems items, replace text = .error e
  | [] => .inl ⟨[], rfl, nofun⟩
  | item :: rest => by
    rw [replaceInItems]
    rcases replaceTexts_outcome item with ⟨item', h, hall⟩ | ⟨e, h, text, hmem, htext⟩ <;> rw [h]
    · rcases replaceInItems_outcome rest with ⟨rest', hr, hrest⟩ | ⟨e, hr, text, hmem, htext⟩ <;>
        rw [hr]
      · exact .inl ⟨item' :: rest', rfl, List.forall_mem_append.mpr ⟨hall, hrest⟩⟩
      · exact .inr ⟨e, rfl, text, List.mem_append_right _ hmem, htext⟩
    · exact .inr ⟨e, rfl, text, List.mem_append_left _ hmem, htext⟩
theorem replaceInEntries_outcome : (entries : Fields) →
    (∃ results, replaceInEntries replace entries = .ok results ∧
      ∀ text ∈ textsInEntries entries, ∃ r, replace text = .ok r) ∨
    ∃ e, replaceInEntries replace entries = .error e ∧
      ∃ text ∈ textsInEntries entries, replace text = .error e
  | [] => .inl ⟨[], rfl, nofun⟩
  | (name, value) :: rest => by
    rw [replaceInEntries]
    rcases replaceTexts_outcome value with ⟨value', h, hall⟩ | ⟨e, h, text, hmem, htext⟩ <;> rw [h]
    · rcases replaceInEntries_outcome rest with ⟨rest', hr, hrest⟩ | ⟨e, hr, text, hmem, htext⟩ <;>
        rw [hr]
      · exact .inl ⟨(name, value') :: rest', rfl, List.forall_mem_append.mpr ⟨hall, hrest⟩⟩
      · exact .inr ⟨e, rfl, text, List.mem_append_right _ hmem, htext⟩
    · exact .inr ⟨e, rfl, text, List.mem_append_left _ hmem, htext⟩
end

/-- A value that fails has a text that fails. -/
theorem replaceTexts_error {value : Value} {e : Error} (h : value.replaceTexts replace = .error e) :
    ∃ text ∈ value.texts, replace text = .error e := by
  rcases replaceTexts_outcome replace value with ⟨result, hok, -⟩ | ⟨e', herror, htext⟩
  · rw [h] at hok
    cases hok
  · obtain rfl := Except.error.inj (h.symm.trans herror)
    exact htext

/-- A value with a text that fails does so too, if not for the same reason. -/
theorem replaceTexts_fails {value : Value} {text : String} {e : Error} (hmem : text ∈ value.texts)
    (h : replace text = .error e) : ∃ e, value.replaceTexts replace = .error e := by
  rcases replaceTexts_outcome replace value with ⟨result, -, hall⟩ | ⟨e', herror, -⟩
  · obtain ⟨r, hok⟩ := hall text hmem
    rw [h] at hok
    cases hok
  · exact ⟨e', herror⟩

end Value

end TableRecipe
