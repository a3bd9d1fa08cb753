import Offloading.Proofs.Execution
/-!
# Computations that succeed

`Attains` says that a computation succeeds, with which value, and what holds of the state that it leaves.
Where `Returns` speaks about a run that is known to have succeeded, it also says that the run does succeed,
so that a computation is followed forwards, step by step and loop by loop.
-/

namespace Offloading

variable {ε σ α β : Type}

/-- Started in `s`, the computation succeeds with `a` and leaves a state with the property `P`. -/
def Attains (x : ExceptT ε (StateM σ) α) (s : σ) (a : α) (P : σ → Prop) : Prop :=
  ∃ s', Returns x s a s' ∧ P s'

namespace Attains

variable {x : ExceptT ε (StateM σ) α} {f : α → ExceptT ε (StateM σ) β} {s : σ} {a : α} {b : β}
  {P Q : σ → Prop}

theorem pure (h : P s) : Attains (Pure.pure a : ExceptT ε (StateM σ) α) s a P := ⟨s, rfl, h⟩

theorem mono (h : Attains x s a P) (hPQ : ∀ s', P s' → Q s') : Attains x s a Q := by
  obtain ⟨s', ran, holds⟩ := h
  exact ⟨s', ran, hPQ s' holds⟩

theorem bind (h : Attains x s a P) (hf : ∀ s', P s' → Attains (f a) s' b Q) :
    Attains (x >>= f) s b Q := by
  obtain ⟨s', ran, holds⟩ := h
  obtain ⟨s'', ran', holds'⟩ := hf s' holds
  exact ⟨s'', returns_bind.2 ⟨a, s', ran, ran'⟩, holds'⟩

theorem bind_get {f : σ → ExceptT ε (StateM σ) β} (h : Attains (f s) s b Q) :
    Attains (MonadState.get >>= f) s b Q := h

theorem modify {g : σ → σ} (h : P (g s)) :
    Attains (modify g : ExceptT ε (StateM σ) PUnit) s ⟨⟩ P := ⟨g s, rfl, h⟩

/-- What succeeds is not caught. -/
theorem tryCatch {g : ε → ExceptT ε (StateM σ) α} (h : Attains x s a P) :
    Attains (MonadExcept.tryCatch x g) s a P := by
  obtain ⟨s', ran, holds⟩ := h
  have run := exec_tryCatch (x := x) (s := s) g
  rw [ran] at run
  exact ⟨s', run, holds⟩

end Attains

theorem Lifts.attains {ε' τ : Type} {view : τ → σ} {put : τ → σ → τ} {wrap : ε → ε'}
    {x : ExceptT ε (StateM σ) α} {y : ExceptT ε' (StateM τ) α} (h : Lifts view put wrap x y) {t : τ}
    {a : α} {P : σ → Prop} {Q : τ → Prop} (hx : Attains x (view t) a P)
    (hPQ : ∀ s', P s' → Q (put t s')) : Attains y t a Q := by
  obtain ⟨s', ran, holds⟩ := hx
  exact ⟨put t s', h.returns.2 ⟨s', ran, rfl⟩, hPQ s' holds⟩

/-! ## Loops -/

section loops

variable {g : Nat → ExceptT ε (StateM σ) PUnit} {I : Nat → σ → Prop} {s : σ} {n : Nat}

theorem attains_forM_nil {γ : Type} {g : γ → ExceptT ε (StateM σ) PUnit} {P : σ → Prop} (h : P s) :
    Attains (([] : List γ).forM g) s ⟨⟩ P := Attains.pure h

theorem attains_forM_cons {γ : Type} {g : γ → ExceptT ε (StateM σ) PUnit} {x : γ} {rest : List γ}
    {P Q : σ → Prop} (first : Attains (g x) s ⟨⟩ P)
    (others : ∀ s', P s' → Attains (rest.forM g) s' ⟨⟩ Q) : Attains ((x :: rest).forM g) s ⟨⟩ Q :=
  first.bind others

theorem attains_forM_append {γ : Type} {g : γ → ExceptT ε (StateM σ) PUnit} {xs ys : List γ}
    {P Q : σ → Prop} (first : Attains (xs.forM g) s ⟨⟩ P)
    (others : ∀ s', P s' → Attains (ys.forM g) s' ⟨⟩ Q) : Attains ((xs ++ ys).forM g) s ⟨⟩ Q := by
  obtain ⟨s', ran, holds⟩ := first
  obtain ⟨s'', ran', holds'⟩ := others s' holds
  exact ⟨s'', returns_forM_append.2 ⟨s', ran, ran'⟩, holds'⟩

/-- A loop over two positions at a time. -/
theorem attains_forM_pairs (start : I 0 s)
    (step : ∀ k < n, ∀ s, I k s → Attains ([2 * k, 2 * k + 1].forM g) s ⟨⟩ (I (k + 1))) :
    Attains ((List.range (2 * n)).forM g) s ⟨⟩ (I n) := by
  induction n with
  | zero => exact attains_forM_nil start
  | succ n ih =>
      have split : List.range (2 * (n + 1)) = List.range (2 * n) ++ [2 * n, 2 * n + 1] := by
        rw [Nat.mul_succ, List.range_succ, List.range_succ, List.append_assoc]
        rfl
      rw [split]
      exact attains_forM_append (ih fun k lt => step k (Nat.lt_succ_of_lt lt)) (step n (Nat.lt_succ_self n))

/-- The same loop backwards: what held of all positions is undone two at a time. -/
theorem attains_forM_pairs_reverse (start : I n s)
    (step : ∀ k < n, ∀ s, I (k + 1) s → Attains ([2 * k + 1, 2 * k].forM g) s ⟨⟩ (I k)) :
    Attains ((List.range (2 * n)).reverse.forM g) s ⟨⟩ (I 0) := by
  induction n generalizing s with
  | zero => exact attains_forM_nil start
  | succ n ih =>
      have split : (List.range (2 * (n + 1))).reverse =
          [2 * n + 1, 2 * n] ++ (List.range (2 * n)).reverse := by
        rw [Nat.mul_succ, List.range_succ, List.range_succ, List.reverse_append, List.reverse_append]
        rfl
      rw [split]
      exact attains_forM_append (step n (Nat.lt_succ_self n) s start) fun s' holds =>
        ih holds fun k lt => step k (Nat.lt_succ_of_lt lt)

end loops

end Offloading
