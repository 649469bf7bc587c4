import TableRecipe.Engine
import TableRecipe.Table.Edit

/-!
# Outcomes

What a success says about the parts that led to it, for computations without effects
(`Except Error`), for changes of a table (`Edit`) and for parts of a run (`Engine`).

* `bind_eq_ok`, `Engine.bind_ok` — a sequence succeeds only if its parts do;
* `Returns`, `FailsOnly` — what holds of the result or of the failure, if there is one;
* `foldlM_ok`, `mapM_ok` — what every step of a successful fold keeps, and what a successful map
  returns;
* `Edit.run_bind`, `Engine.runIn_bind`, … — how changes and parts of a run are carried out.
-/

namespace TableRecipe

variable {α β γ : Type}

/-! ## Computations without effects -/

instance decidableEqOutcome {ε : Type} [DecidableEq ε] [DecidableEq α] : DecidableEq (Except ε α)
  | .ok a, .ok b => decidable_of_iff (a = b) ⟨congrArg _, Except.ok.inj⟩
  | .error e, .error e' => decidable_of_iff (e = e') ⟨congrArg _, Except.error.inj⟩
  | .ok _, .error _ => .isFalse nofun
  | .error _, .ok _ => .isFalse nofun

/-- A sequence succeeds if and only if both of its parts do. -/
theorem bind_eq_ok {x : Except Error α} {f : α → Except Error β} {b : β} :
    (x >>= f) = .ok b ↔ ∃ a, x = .ok a ∧ f a = .ok b := by
  constructor
  · intro h
    cases x with
    | ok a => exact ⟨a, rfl, h⟩
    | error e => cases h
  · rintro ⟨a, rfl, h⟩
    exact h

/-- A sequence fails if its first part does, or else the second one. -/
theorem bind_eq_error {x : Except Error α} {f : α → Except Error β} {e : Error} :
    (x >>= f) = .error e ↔ x = .error e ∨ ∃ a, x = .ok a ∧ f a = .error e := by
  cases x with
  | ok a =>
    refine ⟨fun h => .inr ⟨a, rfl, h⟩, ?_⟩
    rintro (h | ⟨_, ha, h⟩)
    · cases h
    · obtain rfl := Except.ok.inj ha
      exact h
  | error e' =>
    refine ⟨fun h => .inl (congrArg _ (Except.error.inj h)), ?_⟩
    rintro (h | ⟨_, h, -⟩)
    · exact congrArg _ (Except.error.inj h)
    · cases h

/-- Sequences agree if what follows agrees on the result that the first part has. -/
theorem bind_congr_ok {x : Except Error α} {f g : α → Except Error β}
    (h : ∀ a, x = .ok a → f a = g a) : x >>= f = x >>= g := by
  cases x with
  | ok a => exact h a rfl
  | error e => rfl

/-- A sequence that ends in a result fails if and only if its first part does. -/
theorem bind_pure_eq_error {x : Except Error α} {f : α → β} {e : Error} :
    (x >>= fun a => pure (f a)) = .error e ↔ x = .error e := by
  cases x with
  | ok a => exact ⟨nofun, nofun⟩
  | error e' => exact ⟨fun h => congrArg _ (Except.error.inj h), fun h => congrArg _ (Except.error.inj h)⟩

@[simp] theorem pure_eq_ok {a b : α} : (pure a : Except Error α) = .ok b ↔ a = b :=
  ⟨Except.ok.inj, congrArg _⟩

theorem throw_ne_ok {e : Error} {a : α} : (throw e : Except Error α) ≠ .ok a := by
  intro h
  cases h

/-- a property of the result of a computation, should there be one -/
def Returns (motive : β → Prop) (x : Except Error β) : Prop := ∀ b, x = .ok b → motive b

namespace Returns

variable {motive : β → Prop}

theorem pure {b : β} (h : motive b) : Returns motive (pure b) := by
  intro b' hb
  exact pure_eq_ok.mp hb ▸ h

theorem throw {e : Error} : Returns motive (throw e) := fun _ h => (throw_ne_ok h).elim

theorem bind {x : Except Error α} {f : α → Except Error β}
    (h : ∀ a, x = .ok a → Returns motive (f a)) : Returns motive (x >>= f) := by
  intro b hb
  obtain ⟨a, hx, ha⟩ := bind_eq_ok.mp hb
  exact h a hx b ha

theorem ite {p : Prop} [Decidable p] {x y : Except Error β} (hx : Returns motive x)
    (hy : Returns motive y) : Returns motive (if p then x else y) := by
  split
  · exact hx
  · exact hy

end Returns

/-- a property of the failure of a computation, should there be one -/
def FailsOnly (motive : Error → Prop) (x : Except Error β) : Prop := ∀ e, x = .error e → motive e

namespace FailsOnly

variable {motive : Error → Prop}

theorem pure {b : β} : FailsOnly motive (pure b) := nofun

theorem throw {e : Error} (h : motive e) : FailsOnly motive (throw e : Except Error β) := by
  intro e' he
  cases he
  exact h

theorem bind {x : Except Error α} {f : α → Except Error β} (hx : FailsOnly motive x)
    (hf : ∀ a, x = .ok a → FailsOnly motive (f a)) : FailsOnly motive (x >>= f) := by
  intro e he
  obtain hfirst | ⟨a, ha, hsecond⟩ := bind_eq_error.mp he
  · exact hx e hfirst
  · exact hf a ha e hsecond

/-- A fold fails only as its steps do. -/
theorem foldlM {f : β → α → Except Error β} {xs : List α} {start : β}
    (h : ∀ x ∈ xs, ∀ b, FailsOnly motive (f b x)) : FailsOnly motive (xs.foldlM f start) := by
  induction xs generalizing start with
  | nil => exact pure
  | cons x rest ih =>
    rw [List.foldlM_cons]
    exact bind (h x List.mem_cons_self start) fun _ _ => ih fun y hy => h y (.tail x hy)

end FailsOnly

/-- What every step of a fold keeps is kept by the whole. -/
theorem foldlM_ok {f : β → α → Except Error β} {xs : List α} {start result : β}
    (motive : β → Prop) (h : xs.foldlM f start = .ok result) (hstart : motive start)
    (hstep : ∀ x ∈ xs, ∀ b b', f b x = .ok b' → motive b → motive b') : motive result := by
  induction xs generalizing start with
  | nil =>
    obtain rfl := Except.ok.inj h
    exact hstart
  | cons x rest ih =>
    rw [List.foldlM_cons] at h
    obtain ⟨middle, hx, hrest⟩ := bind_eq_ok.mp h
    refine ih hrest (hstep x (List.mem_cons_self ..) _ _ hx hstart) ?_
    exact fun y hy => hstep y (List.mem_cons_of_mem _ hy)

/-- A successful map applies the function to every item, in order. -/
theorem mapM_ok {f : α → Except Error β} {xs : List α} {ys : List β}
    (h : xs.mapM f = .ok ys) :
    ys.length = xs.length ∧
      ∀ (i : Nat) (x : α), xs[i]? = some x → ∃ y, ys[i]? = some y ∧ f x = .ok y := by
  induction xs generalizing ys with
  | nil =>
    obtain rfl := Except.ok.inj h
    exact ⟨rfl, fun i x hx => by simp at hx⟩
  | cons x rest ih =>
    rw [List.mapM_cons] at h
    obtain ⟨y, hy, h⟩ := bind_eq_ok.mp h
    obtain ⟨ys', hys, h⟩ := bind_eq_ok.mp h
    obtain rfl := pure_eq_ok.mp h
    obtain ⟨hlength, hat⟩ := ih hys
    refine ⟨by simp [hlength], ?_⟩
    intro i x' hx'
    cases i with
    | zero =>
      obtain rfl : x = x' := by simpa using hx'
      exact ⟨y, rfl, hy⟩
    | succ i => exact hat i x' (by simpa using hx')

/-- A map fails with the failure of the first item that fails. -/
theorem mapM_eq_error_iff {f : α → Except Error β} {xs : List α} {e : Error} :
    xs.mapM f = .error e ↔ ∃ before x after, xs = before ++ x :: after ∧
      (∀ y ∈ before, ∃ b, f y = .ok b) ∧ f x = .error e := by
  induction xs with
  | nil => simp [pure, Except.pure]
  | cons first rest ih =>
    rw [List.mapM_cons]
    constructor
    · intro h
      rcases hfirst : f first with e' | b <;> rw [hfirst] at h
      · obtain rfl := Except.error.inj h
        exact ⟨[], first, rest, rfl, by simp, hfirst⟩
      · rcases hrest : rest.mapM f with e' | bs <;> rw [hrest] at h
        · obtain rfl := Except.error.inj h
          obtain ⟨before, x, after, rfl, hbefore, hx⟩ := ih.mp hrest
          refine ⟨first :: before, x, after, rfl, ?_, hx⟩
          exact List.forall_mem_cons.mpr ⟨⟨b, hfirst⟩, hbefore⟩
        · cases h
    · rintro ⟨before, x, after, hsplit, hbefore, hx⟩
      cases before with
      | nil =>
        obtain ⟨rfl, rfl⟩ := List.cons.inj hsplit
        rw [hx]
        rfl
      | cons y before =>
        obtain ⟨rfl, rfl⟩ := List.cons.inj hsplit
        obtain ⟨⟨b, hfirst⟩, hbefore⟩ := List.forall_mem_cons.mp hbefore
        rw [hfirst, ih.mpr ⟨before, x, after, rfl, hbefore, hx⟩]
        rfl

theorem mapM_error {f : α → Except Error β} {xs : List α} {e : Error} (h : xs.mapM f = .error e) :
    ∃ x ∈ xs, f x = .error e := by
  obtain ⟨before, x, after, rfl, -, hx⟩ := mapM_eq_error_iff.mp h
  exact ⟨x, by simp, hx⟩

/-- A map succeeds if and only if the function does for every item. -/
theorem exists_mapM_ok_iff {f : α → Except Error β} {xs : List α} :
    (∃ ys, xs.mapM f = .ok ys) ↔ ∀ x ∈ xs, ∃ y, f x = .ok y := by
  constructor
  · rintro ⟨ys, hmap⟩ x hmem
    obtain ⟨place, hplace⟩ := List.mem_iff_getElem?.mp hmem
    obtain ⟨y, -, hy⟩ := (mapM_ok hmap).2 place x hplace
    exact ⟨y, hy⟩
  · intro h
    rcases hmap : xs.mapM f with e | ys
    · obtain ⟨x, hmem, he⟩ := mapM_error hmap
      obtain ⟨y, hy⟩ := h x hmem
      rw [hy] at he
      cases he
    · exact ⟨ys, rfl⟩

/-- What a successful map returns, it returns for some item. -/
theorem mem_of_mapM {f : α → Except Error β} {xs : List α} {ys : List β} {y : β}
    (h : xs.mapM f = .ok ys) (hmem : y ∈ ys) : ∃ x ∈ xs, f x = .ok y := by
  obtain ⟨hlength, hat⟩ := mapM_ok h
  obtain ⟨i, hi, rfl⟩ := List.mem_iff_getElem.mp hmem
  have hx : xs[i]? = some xs[i] := List.getElem?_eq_getElem (hlength ▸ hi)
  obtain ⟨y, hy, hfx⟩ := hat i _ hx
  rw [List.getElem?_eq_getElem hi] at hy
  obtain rfl := Option.some.inj hy
  exact ⟨_, List.getElem_mem _, hfx⟩

/-- Two successful maps, one after the other, are one. -/
theorem mapM_bind {f : α → Except Error β} {g : β → Except Error γ} {xs : List α} {ys : List β}
    {zs : List γ} (hf : xs.mapM f = .ok ys) (hg : ys.mapM g = .ok zs) :
    xs.mapM (fun x => f x >>= g) = .ok zs := by
  induction xs generalizing ys zs with
  | nil =>
    obtain rfl := Except.ok.inj hf
    exact hg
  | cons x rest ih =>
    rw [List.mapM_cons] at hf
    obtain ⟨y, hy, hf⟩ := bind_eq_ok.mp hf
    obtain ⟨ys', hys, hf⟩ := bind_eq_ok.mp hf
    obtain rfl := pure_eq_ok.mp hf
    rw [List.mapM_cons] at hg
    obtain ⟨z, hz, hg⟩ := bind_eq_ok.mp hg
    obtain ⟨zs', hzs, hg⟩ := bind_eq_ok.mp hg
    obtain rfl := pure_eq_ok.mp hg
    have hx : (f x >>= g) = .ok z := bind_eq_ok.mpr ⟨y, hy, hz⟩
    rw [List.mapM_cons]
    exact bind_eq_ok.mpr ⟨z, hx, bind_eq_ok.mpr ⟨zs', ih hys hzs, rfl⟩⟩

theorem mapM_congr {m : Type → Type} [Monad m] [LawfulMonad m] {f g : α → m β} {xs : List α}
    (h : ∀ x ∈ xs, f x = g x) : xs.mapM f = xs.mapM g := by
  induction xs with
  | nil => rfl
  | cons x rest ih =>
    rw [List.mapM_cons, List.mapM_cons, h x (List.mem_cons_self ..),
      ih fun y hy => h y (List.mem_cons_of_mem _ hy)]

/-! ## Changes of a table -/

namespace Edit

variable {table : Table}

theorem run_bind (x : Edit α) (f : α → Edit β) :
    (x >>= f).run table =
      match x.run table with
      | (.ok a, table) => (f a).run table
      | (.error error, table) => (.error error, table) := by
  change (ExceptT.bindCont f (x.run table).1) (x.run table).2 = _
  rcases x.run table with ⟨_ | a, table⟩ <;> rfl

@[simp] theorem run_get : (get : Edit Table).run table = (.ok table, table) := rfl

@[simp] theorem run_set (other : Table) : (set other : Edit PUnit).run table = (.ok (), other) :=
  rfl

@[simp] theorem run_throw (e : Error) : (throw e : Edit α).run table = (.error e, table) := rfl

@[simp] theorem run_liftM (x : Except Error α) : (liftM x : Edit α).run table = (x, table) := by
  cases x <;> rfl

end Edit

/-! ## Parts of a run -/

namespace Engine

variable {context : Context} {world world' : World}

@[simp] theorem runIn_pure (a : α) : (pure a : Engine α).runIn context world = (.ok a, world) :=
  rfl

@[simp] theorem runIn_throw (e : Error) :
    (throw e : Engine α).runIn context world = (.error e, world) :=
  rfl

theorem runIn_ofExcept (x : Except Error α) :
    (ofExcept x).runIn context world = (x, world) := by
  cases x <;> rfl

theorem runIn_bind (x : Engine α) (f : α → Engine β) :
    (x >>= f).runIn context world =
      match x.runIn context world with
      | (.ok a, middle) => (f a).runIn context middle
      | (.error e, middle) => (.error e, middle) := by
  change (ExceptT.bindCont (fun a => f a context) (x.runIn context world).1)
    (x.runIn context world).2 = _
  rcases x.runIn context world with ⟨_ | a, middle⟩ <;> rfl

/-- A sequence succeeds only if both of its parts do. -/
theorem bind_ok {x : Engine α} {f : α → Engine β} {b : β}
    (h : (x >>= f).runIn context world = (.ok b, world')) :
    ∃ a middle, x.runIn context world = (.ok a, middle) ∧
      (f a).runIn context middle = (.ok b, world') := by
  rw [runIn_bind] at h
  rcases hx : x.runIn context world with ⟨_ | a, middle⟩ <;> rw [hx] at h
  · simp at h
  · exact ⟨a, middle, rfl, h⟩

/-- A computation without effects succeeds in a run as it does alone. -/
theorem ofExcept_ok {x : Except Error α} {a : α}
    (h : (ofExcept x).runIn context world = (.ok a, world')) : x = .ok a ∧ world' = world := by
  rw [runIn_ofExcept] at h
  exact ⟨congrArg Prod.fst h, (congrArg Prod.snd h).symm⟩

/-- A sequence that begins without effects. -/
theorem ofExcept_bind_ok {x : Except Error α} {f : α → Engine β} {b : β}
    (h : (ofExcept x >>= f).runIn context world = (.ok b, world')) :
    ∃ a, x = .ok a ∧ (f a).runIn context world = (.ok b, world') := by
  obtain ⟨a, middle, hx, hf⟩ := bind_ok h
  obtain ⟨hok, rfl⟩ := ofExcept_ok hx
  exact ⟨a, hok, hf⟩

/-- A sequence fails if its first part does, or else the second one. -/
theorem bind_error {x : Engine α} {f : α → Engine β} {e : Error}
    (h : (x >>= f).runIn context world = (.error e, world')) :
    x.runIn context world = (.error e, world') ∨
      ∃ a middle, x.runIn context world = (.ok a, middle) ∧
        (f a).runIn context middle = (.error e, world') := by
  rw [runIn_bind] at h
  rcases hx : x.runIn context world with ⟨e' | a, middle⟩ <;> rw [hx] at h
  · obtain ⟨he, rfl⟩ := Prod.mk.inj h
    obtain rfl := Except.error.inj he
    exact .inl rfl
  · exact .inr ⟨a, middle, rfl, h⟩

theorem ofExcept_bind_error {x : Except Error α} {f : α → Engine β} {e : Error}
    (h : (ofExcept x >>= f).runIn context world = (.error e, world')) :
    x = .error e ∨ ∃ a, x = .ok a ∧ (f a).runIn context world = (.error e, world') := by
  rcases bind_error h with h | ⟨a, middle, hx, hf⟩
  · rw [runIn_ofExcept] at h
    exact .inl (congrArg Prod.fst h)
  · obtain ⟨hok, rfl⟩ := ofExcept_ok hx
    exact .inr ⟨a, hok, hf⟩

/-- A sequence that ends in a result fails if and only if its first part does. -/
theorem bind_pure_error {x : Engine α} {f : α → β} {e : Error} :
    (x >>= fun a => pure (f a)).runIn context world = (.error e, world') ↔
      x.runIn context world = (.error e, world') := by
  rw [runIn_bind]
  rcases x.runIn context world with ⟨e' | a, middle⟩
  · simp
  · simp

@[simp] theorem runIn_read_bind (f : Context → Engine α) :
    (read >>= f).runIn context world = (f context).runIn context world :=
  rfl

theorem ext {x y : Engine α} (h : ∀ context world, x.runIn context world = y.runIn context world) :
    x = y :=
  funext fun context => funext fun world => h context world

/-- Sequences agree if what follows agrees on every result that the first part may have. -/
theorem bind_congr {x : Engine α} {f g : α → Engine β}
    (h : ∀ a context world world', x.runIn context world = (.ok a, world') → f a = g a) :
    x >>= f = x >>= g := by
  refine ext fun context world => ?_
  rw [runIn_bind, runIn_bind]
  rcases hx : x.runIn context world with ⟨_ | a, middle⟩
  · rfl
  · simp only [h a context world middle hx]

theorem ofExcept_bind_congr {x : Except Error α} {f g : α → Engine β}
    (h : ∀ a, x = .ok a → f a = g a) : ofExcept x >>= f = ofExcept x >>= g :=
  bind_congr fun a _ _ _ hx => h a (ofExcept_ok hx).1

/-- Folds agree if their steps agree on all that the fold can come to. -/
theorem foldlM_congr_of {f g : β → α → Engine β} {xs : List α} {start : β} (motive : β → Prop)
    (hstart : motive start) (h : ∀ b, motive b → ∀ x ∈ xs, f b x = g b x)
    (hkeeps : ∀ b, motive b → ∀ x ∈ xs, ∀ b' context world world',
      (f b x).runIn context world = (.ok b', world') → motive b') :
    xs.foldlM f start = xs.foldlM g start := by
  induction xs generalizing start with
  | nil => rfl
  | cons x rest ih =>
    have hx : x ∈ x :: rest := List.mem_cons_self ..
    have hrest : ∀ y ∈ rest, y ∈ x :: rest := fun _ hy => List.mem_cons_of_mem _ hy
    rw [List.foldlM_cons, List.foldlM_cons, ← h start hstart x hx]
    refine bind_congr fun b context world world' hb => ih (hkeeps start hstart x hx _ _ _ _ hb) ?_ ?_
    · exact fun b hb y hy => h b hb y (hrest y hy)
    · exact fun b hb y hy => hkeeps b hb y (hrest y hy)

theorem foldlM_congr {f g : β → α → Engine β} {xs : List α} {start : β}
    (h : ∀ b, ∀ x ∈ xs, f b x = g b x) : xs.foldlM f start = xs.foldlM g start :=
  foldlM_congr_of (fun _ => True) trivial (fun b _ => h b) fun _ _ _ _ _ _ _ _ _ => trivial

theorem each_congr {f g : α → Engine β} {xs : List α} (h : ∀ x ∈ xs, f x = g x) :
    each xs f = each xs g := by
  have houtcomes : outcomes f xs = outcomes g xs := by
    induction xs with
    | nil => rfl
    | cons x rest ih =>
      simp only [outcomes]
      rw [h x (List.mem_cons_self ..), ih fun y hy => h y (List.mem_cons_of_mem _ hy)]
  simp only [each]
  rw [houtcomes]

theorem forIn_congr {f g : α → β → Engine (ForInStep β)} {xs : List α} {start : β}
    (h : ∀ x ∈ xs, ∀ b, f x b = g x b) : forIn xs start f = forIn xs start g := by
  induction xs generalizing start with
  | nil => rfl
  | cons x rest ih =>
    rw [List.forIn_cons, List.forIn_cons, h x (List.mem_cons_self ..)]
    refine bind_congr fun step _ _ _ _ => ?_
    cases step with
    | done b => rfl
    | yield b => exact ih fun y hy => h y (List.mem_cons_of_mem _ hy)

theorem runIn_attempt (x : Engine α) :
    x.attempt.runIn context world =
      match x.runIn context world with
      | (.ok a, world) => (.ok (.ok a), world)
      | (.error error, world) =>
        if error.cause.stopsRun then (.error error, world) else (.ok (.error error), world) :=
  rfl

/-- What was attempted with success succeeds. -/
theorem attempt_ok {x : Engine α} {a : α}
    (h : x.attempt.runIn context world = (.ok (.ok a), world')) :
    x.runIn context world = (.ok a, world') := by
  rw [runIn_attempt] at h
  rcases hx : x.runIn context world with ⟨e | a', middle⟩ <;> rw [hx] at h
  · by_cases hstops : e.cause.stopsRun <;> simp [hstops] at h
  · simpa using h

theorem throw_ok {e : Error} {a : α}
    (h : (throw e : Engine α).runIn context world = (.ok a, world')) : False := by
  simp at h

theorem pure_ok {a b : α} (h : (pure a : Engine α).runIn context world = (.ok b, world')) :
    a = b ∧ world' = world := by
  simp only [runIn_pure, Prod.mk.injEq, Except.ok.injEq] at h
  exact ⟨h.1, h.2.symm⟩

/-- What every step of a fold keeps is kept by the whole. -/
theorem foldlM_ok {f : β → α → Engine β} {xs : List α} {start result : β} (motive : β → Prop)
    (h : (xs.foldlM f start).runIn context world = (.ok result, world')) (hstart : motive start)
    (hstep : ∀ b, motive b → ∀ x ∈ xs, ∀ b' context world world',
      (f b x).runIn context world = (.ok b', world') → motive b') : motive result := by
  induction xs generalizing start world with
  | nil => exact (pure_ok h).1 ▸ hstart
  | cons x rest ih =>
    rw [List.foldlM_cons] at h
    obtain ⟨middle, _, hx, hrest⟩ := bind_ok h
    refine ih hrest (hstep start hstart x (List.mem_cons_self ..) _ _ _ _ hx) ?_
    exact fun b hb y hy => hstep b hb y (List.mem_cons_of_mem _ hy)

theorem runIn_mapError (change : Error → Error) (x : Engine α) :
    (x.mapError change).runIn context world =
      match x.runIn context world with
      | (.ok a, world) => (.ok a, world)
      | (.error error, world) => (.error (change error), world) :=
  rfl

/-- Telling the place of failures leaves successes alone. -/
theorem locating_ok {location step : String} {x : Engine α} {a : α}
    (h : (x.locating location step).runIn context world = (.ok a, world')) :
    x.runIn context world = (.ok a, world') := by
  rw [locating, runIn_mapError] at h
  rcases hx : x.runIn context world with ⟨_ | a', middle⟩ <;> rw [hx] at h
  · simp at h
  · exact h

/-- A failure whose place is told is a failure without it. -/
theorem locating_error {location step : String} {x : Engine α} {e : Error}
    (h : (x.locating location step).runIn context world = (.error e, world')) :
    ∃ raised, x.runIn context world = (.error raised, world') ∧
      e = raised.locate location step := by
  rw [locating, runIn_mapError] at h
  rcases hx : x.runIn context world with ⟨raised | a, after⟩ <;> rw [hx] at h
  · obtain ⟨he, rfl⟩ := Prod.mk.inj h
    exact ⟨raised, rfl, (Except.error.inj he).symm⟩
  · simp at h

/-- A successful map returns one result for every item. -/
theorem length_of_mapM_ok {f : α → Engine β} {xs : List α} {ys : List β}
    (h : (xs.mapM f).runIn context world = (.ok ys, world')) : ys.length = xs.length := by
  induction xs generalizing ys world world' with
  | nil =>
    obtain ⟨rfl, -⟩ := pure_ok h
    rfl
  | cons x rest ih =>
    rw [List.mapM_cons] at h
    obtain ⟨y, _, -, h⟩ := bind_ok h
    obtain ⟨ys', _, hys, h⟩ := bind_ok h
    obtain ⟨rfl, -⟩ := pure_ok h
    simp [ih hys]

end Engine

end TableRecipe
