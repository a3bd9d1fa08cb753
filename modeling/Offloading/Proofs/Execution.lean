import Offloading.Platform.Calls
/-!
# Executions

All steps of the library, from accelerator calls to platform calls, are computations that may fail
and keep what they did before they failed. `exec` runs one. `Returns` says that a run succeeds, with
which value and in which state, and opens step by step. `Along` says that a computation, whether it
fails or not, only moves its state along a reflexive and transitive relation.
-/

namespace Offloading

variable {ε σ α β : Type}

/-- What a computation gives when it starts in `s`, and the state that it leaves. -/
def exec (x : ExceptT ε (StateM σ) α) (s : σ) : Except ε α × σ := x.run.run s

section exec

variable {x : ExceptT ε (StateM σ) α} {f : α → ExceptT ε (StateM σ) β} {s s' : σ}

@[simp] theorem exec_pure (a : α) : exec (pure a : ExceptT ε (StateM σ) α) s = (.ok a, s) := rfl

@[simp] theorem exec_throw (e : ε) :
    exec (throw e : ExceptT ε (StateM σ) α) s = (.error e, s) := rfl

@[simp] theorem exec_get : exec (get : ExceptT ε (StateM σ) σ) s = (.ok s, s) := rfl

@[simp] theorem exec_set : exec (set s' : ExceptT ε (StateM σ) PUnit) s = (.ok ⟨⟩, s') := rfl

@[simp] theorem exec_modify (g : σ → σ) :
    exec (modify g : ExceptT ε (StateM σ) PUnit) s = (.ok ⟨⟩, g s) := rfl

theorem exec_bind :
    exec (x >>= f) s =
      match exec x s with
      | (.ok a, s') => exec (f a) s'
      | (.error e, s') => (.error e, s') := by
  simp only [exec, ExceptT.run_bind, StateT.run_bind]
  rcases x.run.run s with ⟨_ | _, _⟩ <;> rfl

theorem exec_get_bind {f : σ → ExceptT ε (StateM σ) β} : exec (get >>= f) s = exec (f s) s := rfl

theorem exec_bind_ok {a : α} (h : exec x s = (.ok a, s')) :
    exec (x >>= f) s = exec (f a) s' := by
  rw [exec_bind, h]

theorem exec_bind_error {e : ε} (h : exec x s = (.error e, s')) :
    exec (x >>= f) s = (.error e, s') := by
  rw [exec_bind, h]

theorem exec_map (g : α → β) :
    exec (g <$> x) s =
      match exec x s with
      | (.ok a, s') => (.ok (g a), s')
      | (.error e, s') => (.error e, s') := by
  rw [map_eq_pure_bind, exec_bind]
  rcases exec x s with ⟨_ | _, _⟩ <;> rfl

theorem exec_tryCatch (g : ε → ExceptT ε (StateM σ) α) :
    exec (tryCatch x g) s =
      match exec x s with
      | (.ok a, s') => (.ok a, s')
      | (.error e, s') => exec (g e) s' := by
  change (x.run >>= fun
    | .ok a => pure (.ok a)
    | .error e => (g e).run).run s = _
  rw [StateT.run_bind, exec]
  rcases x.run.run s with ⟨_ | _, _⟩ <;> rfl

end exec

/-- Started in `s`, the computation succeeds with `a` and leaves the state `s'`. -/
def Returns (x : ExceptT ε (StateM σ) α) (s : σ) (a : α) (s' : σ) : Prop :=
  exec x s = (.ok a, s')

section Returns

variable {x : ExceptT ε (StateM σ) α} {f : α → ExceptT ε (StateM σ) β} {s s' s'' : σ} {a b : α}

theorem returns_pure : Returns (pure a : ExceptT ε (StateM σ) α) s b s' ↔ b = a ∧ s' = s := by
  rw [Returns, exec_pure, Prod.mk.injEq, Except.ok.injEq, eq_comm, eq_comm (a := s)]

theorem returns_bind {b : β} :
    Returns (x >>= f) s b s'' ↔ ∃ a s', Returns x s a s' ∧ Returns (f a) s' b s'' := by
  unfold Returns
  rw [exec_bind]
  rcases exec x s with ⟨e | a, s'⟩
  · simp
  · constructor
    · intro h
      exact ⟨a, s', rfl, h⟩
    · rintro ⟨_, _, h, h'⟩
      cases h
      exact h'

theorem not_returns_throw {e : ε} : ¬ Returns (throw e : ExceptT ε (StateM σ) α) s a s' := by
  intro h
  cases h

theorem returns_get {r : σ} :
    Returns (get : ExceptT ε (StateM σ) σ) s r s' ↔ r = s ∧ s' = s := returns_pure (b := r)

theorem returns_modify {g : σ → σ} {u : PUnit} :
    Returns (modify g : ExceptT ε (StateM σ) PUnit) s u s' ↔ s' = g s := by
  constructor
  · intro h
    cases h
    rfl
  · rintro rfl
    rfl

theorem returns_get_bind {f : σ → ExceptT ε (StateM σ) β} {b : β} :
    Returns (get >>= f) s b s'' ↔ Returns (f s) s b s'' := Iff.rfl

theorem returns_modify_bind {g : σ → σ} {f : PUnit → ExceptT ε (StateM σ) β} {b : β} :
    Returns (modify g >>= f) s b s'' ↔ Returns (f ⟨⟩) (g s) b s'' := Iff.rfl

theorem returns_pure_bind {b : β} :
    Returns (pure a >>= f) s b s'' ↔ Returns (f a) s b s'' := Iff.rfl

theorem not_returns_throw_bind {e : ε} {b : β} : ¬ Returns (throw e >>= f) s b s'' := by
  intro h
  cases h

/-- What holds after two steps holds if the first one fails, and if it succeeds then after the
second. -/
theorem exec_bind_ind {P : σ → Prop} (error : ∀ e s', exec x s = (.error e, s') → P s')
    (ok : ∀ a s', Returns x s a s' → P (exec (f a) s').2) : P (exec (x >>= f) s).2 := by
  rw [exec_bind]
  rcases h : exec x s with ⟨e | a, s'⟩
  · exact error e s' h
  · exact ok a s' h

/-- A run is determined by where it starts. -/
theorem Returns.unique {a' : α} (h : Returns x s a s') (h' : Returns x s a' s'') :
    a' = a ∧ s'' = s' := by
  rw [Returns] at h h'
  rw [h] at h'
  cases h'
  exact ⟨rfl, rfl⟩

/-- A loop over two lists is a loop over the first one and then over the second one. -/
theorem returns_forM_append {γ : Type} {g : γ → ExceptT ε (StateM σ) PUnit} {xs ys : List γ}
    {u : PUnit} :
    Returns ((xs ++ ys).forM g) s u s'' ↔
      ∃ s', Returns (xs.forM g) s ⟨⟩ s' ∧ Returns (ys.forM g) s' u s'' := by
  induction xs generalizing s with
  | nil =>
      constructor
      · intro h
        exact ⟨s, rfl, h⟩
      · rintro ⟨_, here, h⟩
        cases here
        exact h
  | cons x rest ih =>
      change Returns (g x >>= fun _ => (rest ++ ys).forM g) s u s'' ↔
        ∃ s', Returns (g x >>= fun _ => rest.forM g) s ⟨⟩ s' ∧ _
      rw [returns_bind]
      constructor
      · rintro ⟨a, s₁, first, h⟩
        obtain ⟨s₂, middle, last⟩ := ih.1 h
        exact ⟨s₂, returns_bind.2 ⟨a, s₁, first, middle⟩, last⟩
      · rintro ⟨s₂, h, last⟩
        obtain ⟨a, s₁, first, middle⟩ := returns_bind.1 h
        exact ⟨a, s₁, first, ih.2 ⟨s₂, middle, last⟩⟩

theorem returns_forM_cons {γ : Type} {g : γ → ExceptT ε (StateM σ) PUnit} {x : γ} {rest : List γ}
    {u : PUnit} :
    Returns ((x :: rest).forM g) s u s'' ↔
      ∃ s', Returns (g x) s ⟨⟩ s' ∧ Returns (rest.forM g) s' u s'' :=
  returns_bind.trans ⟨fun ⟨_, s', h⟩ => ⟨s', h⟩, fun ⟨s', h⟩ => ⟨⟨⟩, s', h⟩⟩

/-- A run that ends well returns. -/
theorem returns_of_ok (h : (exec x s).1 = .ok a) : Returns x s a (exec x s).2 := Prod.ext h rfl

end Returns

/-- A relation that any number of steps keep. -/
class Lasting (R : σ → σ → Prop) : Prop where
  /-- No step keeps it. -/
  refl : ∀ s, R s s
  /-- Two steps keep it. -/
  trans : ∀ {s s' s''}, R s s' → R s' s'' → R s s''

/-- If the property held before, it holds afterwards. -/
def Kept (P : σ → Prop) (s s' : σ) : Prop := P s → P s'

instance {P : σ → Prop} : Lasting (Kept P) where
  refl _ h := h
  trans h h' p := h' (h p)

/-- The view does not change. -/
def Fixed {τ : Type} (view : σ → τ) (s s' : σ) : Prop := view s' = view s

instance {τ : Type} {view : σ → τ} : Lasting (Fixed view) where
  refl _ := rfl
  trans h h' := h'.trans h

instance : Lasting (@Eq σ) where
  refl _ := rfl
  trans h h' := h.trans h'

/-- The state may become anything. -/
def Anything (_ _ : σ) : Prop := True

instance : Lasting (@Anything σ) where
  refl _ := trivial
  trans _ _ := trivial

/-- Whether it fails or not, the computation moves its state along `R`. -/
def Along (R : σ → σ → Prop) (x : ExceptT ε (StateM σ) α) : Prop :=
  ∀ s, R s (exec x s).2

namespace Along

variable {R : σ → σ → Prop} {x : ExceptT ε (StateM σ) α} {f : α → ExceptT ε (StateM σ) β}

theorem returns {s s' : σ} {a : α} (h : Along R x) (hx : Returns x s a s') : R s s' := by
  have := h s
  rwa [hx] at this

theorem mono {S : σ → σ → Prop} (h : Along R x) (hRS : ∀ {s s'}, R s s' → S s s') : Along S x :=
  fun s => hRS (h s)

theorem modify {g : σ → σ} (h : ∀ s, R s (g s)) :
    Along R (modify g : ExceptT ε (StateM σ) PUnit) := h

/-- A first step that only reads the state hands its value on. -/
theorem bind_get {f : σ → ExceptT ε (StateM σ) β} (h : ∀ s, R s (exec (f s) s).2) :
    Along R (MonadState.get >>= f) := h

theorem ite {c : Prop} [Decidable c] {y : ExceptT ε (StateM σ) α} (hx : Along R x)
    (hy : Along R y) : Along R (if c then x else y) := by
  split
  · exact hx
  · exact hy

variable [Lasting R]

theorem pure {a : α} : Along R (pure a : ExceptT ε (StateM σ) α) := fun s => Lasting.refl s

theorem throw {e : ε} : Along R (throw e : ExceptT ε (StateM σ) α) := fun s => Lasting.refl s

theorem get : Along R (get : ExceptT ε (StateM σ) σ) := fun s => Lasting.refl s

/-- What follows a first step may use how that step ended. -/
theorem bind_returns {s : σ} (hx : R s (exec x s).2)
    (hf : ∀ a s', Returns x s a s' → R s' (exec (f a) s').2) : R s (exec (x >>= f) s).2 := by
  refine exec_bind_ind (fun e s' h => ?_) fun a s' h => ?_
  · rwa [h] at hx
  · rw [h] at hx
    exact Lasting.trans hx (hf a s' h)

theorem bind_at {s : σ} (hx : R s (exec x s).2) (hf : ∀ a, Along R (f a)) :
    R s (exec (x >>= f) s).2 :=
  bind_returns hx fun a s' _ => hf a s'

theorem bind (hx : Along R x) (hf : ∀ a, Along R (f a)) : Along R (x >>= f) :=
  fun s => bind_at (hx s) hf

theorem map {g : α → β} (hx : Along R x) : Along R (g <$> x) := by
  rw [map_eq_pure_bind]
  exact hx.bind fun _ => pure

theorem tryCatch {g : ε → ExceptT ε (StateM σ) α} (hx : Along R x) (hg : ∀ e, Along R (g e)) :
    Along R (MonadExcept.tryCatch x g) := by
  intro s
  change R s (exec (MonadExceptOf.tryCatch x g) s).2
  have first := hx s
  have run := exec_tryCatch (x := x) (s := s) g
  rcases h : exec x s with ⟨e | a, s'⟩
  · rw [h] at first run
    exact run ▸ Lasting.trans first (hg e s')
  · rw [h] at first run
    exact run ▸ first

theorem forM {γ : Type} {g : γ → ExceptT ε (StateM σ) PUnit} (hg : ∀ c, Along R (g c))
    (items : List γ) : Along R (items.forM g) := by
  induction items with
  | nil => exact pure
  | cons c rest ih => exact (hg c).bind fun _ => ih

theorem mapM {γ : Type} {g : γ → ExceptT ε (StateM σ) α} (hg : ∀ c, Along R (g c))
    (items : List γ) : Along R (items.mapM g) := by
  induction items with
  | nil => exact pure
  | cons c rest ih =>
      rw [List.mapM_cons]
      exact (hg c).bind fun _ => ih.bind fun _ => pure

end Along

/-- A property is kept by two steps if the first one keeps it and the second one does where the
first one left the state. -/
theorem Kept.bind {P : σ → Prop} {x : ExceptT ε (StateM σ) α} {f : α → ExceptT ε (StateM σ) β}
    {s : σ} (hs : P s) (hx : Along (Kept P) x)
    (hf : ∀ a s', P s' → Returns x s a s' → P (exec (f a) s').2) : P (exec (x >>= f) s).2 := by
  have first := hx s hs
  refine exec_bind_ind (fun e s' h => ?_) fun a s' h => ?_
  · rwa [h] at first
  · rw [h] at first
    exact hf a s' first h

/-- The computation neither looks at what `f` changes nor changes it. -/
def Blind (f : σ → σ) (x : ExceptT ε (StateM σ) α) : Prop :=
  ∀ s, exec x (f s) = ((exec x s).1, f (exec x s).2)

namespace Blind

variable {f : σ → σ} {x y : ExceptT ε (StateM σ) α} {g : α → ExceptT ε (StateM σ) β}

theorem returns (h : Blind f x) {s s' : σ} {a : α} (hx : Returns x (f s) a s') :
    Returns x s a (exec x s).2 ∧ s' = f (exec x s).2 := by
  rw [Returns, h s, Prod.mk.injEq] at hx
  exact ⟨Prod.ext hx.1 rfl, hx.2.symm⟩

theorem returns_iff (h : Blind f x) {s s' : σ} {a : α} :
    Returns x (f s) a s' ↔ ∃ r, Returns x s a r ∧ s' = f r := by
  constructor
  · intro hx
    obtain ⟨ran, same⟩ := h.returns hx
    exact ⟨_, ran, same⟩
  · rintro ⟨r, ran, rfl⟩
    rw [Returns, h s, ran]

theorem pure {a : α} : Blind f (pure a : ExceptT ε (StateM σ) α) := fun _ => rfl

theorem throw {e : ε} : Blind f (throw e : ExceptT ε (StateM σ) α) := fun _ => rfl

theorem modify {h : σ → σ} (same : ∀ s, h (f s) = f (h s)) :
    Blind f (modify h : ExceptT ε (StateM σ) PUnit) := by
  intro s
  rw [exec_modify, exec_modify, same]

theorem bind_returns {s : σ} (hx : Blind f x)
    (hg : ∀ a s', Returns x s a s' → exec (g a) (f s') = ((exec (g a) s').1, f (exec (g a) s').2)) :
    exec (x >>= g) (f s) = ((exec (x >>= g) s).1, f (exec (x >>= g) s).2) := by
  rw [exec_bind, exec_bind, hx s]
  rcases h : exec x s with ⟨e | a, s'⟩
  · rfl
  · exact hg a s' h

theorem bind (hx : Blind f x) (hg : ∀ a, Blind f (g a)) : Blind f (x >>= g) :=
  fun _ => bind_returns hx fun a s' _ => hg a s'

/-- What follows a look at the state is the same if `f` changed it. -/
theorem bind_get {h : σ → ExceptT ε (StateM σ) α} (same : ∀ s, h (f s) = h s)
    (hh : ∀ s, Blind f (h s)) : Blind f (get >>= h) := by
  intro s
  rw [exec_get_bind, exec_get_bind, same]
  exact hh s s

theorem ite {c : Prop} [Decidable c] (hx : Blind f x) (hy : Blind f y) :
    Blind f (if c then x else y) := by
  split
  · exact hx
  · exact hy

theorem forM {γ : Type} {h : γ → ExceptT ε (StateM σ) PUnit} (hh : ∀ c, Blind f (h c))
    (items : List γ) : Blind f (items.forM h) := by
  induction items with
  | nil => exact pure
  | cons c rest ih => exact (hh c).bind fun _ => ih

end Blind

section lift

variable {ε' τ : Type} {x : ExceptT ε (StateM σ) α} {y : ExceptT ε' (StateM τ) α}

/-- The computation `y` runs `x` on a part of its state and names the errors in its own way. -/
def Lifts (view : τ → σ) (put : τ → σ → τ) (wrap : ε → ε') (x : ExceptT ε (StateM σ) α)
    (y : ExceptT ε' (StateM τ) α) : Prop :=
  ∀ t, exec y t = ((exec x (view t)).1.mapError wrap, put t (exec x (view t)).2)

variable {view : τ → σ} {put : τ → σ → τ} {wrap : ε → ε'}

theorem Lifts.returns (h : Lifts view put wrap x y) {t t' : τ} {a : α} :
    Returns y t a t' ↔ ∃ s', Returns x (view t) a s' ∧ t' = put t s' := by
  unfold Returns
  rw [h t]
  rcases exec x (view t) with ⟨e | b, s'⟩
  · constructor
    · intro h
      cases h
    · rintro ⟨_, h, -⟩
      cases h
  · constructor
    · intro h
      cases h
      exact ⟨s', rfl, rfl⟩
    · rintro ⟨_, h, rfl⟩
      cases h
      rfl

theorem Lifts.along (h : Lifts view put wrap x y) {R : σ → σ → Prop} {S : τ → τ → Prop}
    (hx : Along R x) (hS : ∀ t s', R (view t) s' → S t (put t s')) : Along S y := by
  intro t
  rw [h t]
  exact hS t _ (hx (view t))

end lift

/-! ## Steps in a row -/

/-- Where an element of two lists in a row comes, it comes in the first list, or after all of the first
list in the second one. -/
theorem append_cases {xs ys earlier later : List α} {x : α}
    (h : xs ++ ys = earlier ++ x :: later) :
    (∃ rest, xs = earlier ++ x :: rest ∧ later = rest ++ ys) ∨
      ∃ between, earlier = xs ++ between ∧ ys = between ++ x :: later := by
  rcases List.append_eq_append_iff.1 h with ⟨between, rfl, same⟩ | ⟨between, rfl, same⟩
  · exact .inr ⟨between, rfl, same⟩
  · cases between with
    | nil => exact .inr ⟨[], by simp, same.symm⟩
    | cons y rest =>
        cases same
        exact .inl ⟨rest, rfl, rfl⟩

end Offloading
