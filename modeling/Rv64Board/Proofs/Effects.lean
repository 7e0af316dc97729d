import Mathlib.Order.Defs.Unbundled
import Mathlib.Tactic.Common
import Rv64Board.Board.State

/-!
# What a computation leaves behind

Computations on the bus and on the board either answer or raise an exception, and either way they
leave a state.  This file has the tools to follow that state.

* `finalState` — the state that a run ends in, whether it answers or raises.
* `passes` — a test of what a run answers and leaves, for runs that can be evaluated.
* `bind_eq_ok`, `bind_eq_error` — a run of two computations in a row, taken apart.
* `Leaves R x` — **every** run of `x` goes from a state to one related by `R`.  For a preorder this
  passes through sequences (`Leaves.bind`), so what a long computation leaves follows from what its
  accesses leave.
* `onBus_eq_ok`, `onBus_eq_error` — work on the bus, seen from the board.
-/

namespace Rv64Board

variable {ε ε' σ α β : Type}

/-- The state that a run ends in. -/
def finalState : EStateM.Result ε σ α → σ
  | .ok _ s => s
  | .error _ s => s

@[simp] lemma finalState_ok (a : α) (s : σ) : finalState (.ok a s : EStateM.Result ε σ α) = s := rfl

@[simp] lemma finalState_error (e : ε) (s : σ) :
    finalState (.error e s : EStateM.Result ε σ α) = s := rfl

/-- A run answers, and what it answers and leaves passes a test. -/
def passes (test : α → σ → Bool) : EStateM.Result ε σ α → Bool
  | .ok a s => test a s
  | .error _ _ => false

lemma ok_of_passes (test : α → σ → Bool) {r : EStateM.Result ε σ α} (hr : passes test r = true) :
    ∃ a s, r = .ok a s ∧ test a s = true := by
  cases r with
  | ok a s => exact ⟨a, s, rfl, hr⟩
  | error e s => cases hr

/-! ## Runs taken apart -/

lemma bind_eq_ok {x : EStateM ε σ α} {f : α → EStateM ε σ β} {s s' : σ} {b : β}
    (h : (x >>= f) s = .ok b s') : ∃ a t, x s = .ok a t ∧ f a t = .ok b s' := by
  simp only [bind, EStateM.bind] at h
  split at h
  · exact ⟨_, _, by assumption, h⟩
  · cases h

lemma bind_eq_error {x : EStateM ε σ α} {f : α → EStateM ε σ β} {s s' : σ} {e : ε}
    (h : (x >>= f) s = .error e s') :
    x s = .error e s' ∨ ∃ a t, x s = .ok a t ∧ f a t = .error e s' := by
  simp only [bind, EStateM.bind] at h
  split at h
  · exact Or.inr ⟨_, _, by assumption, h⟩
  · cases h
    exact Or.inl (by assumption)

lemma bind_run_ok {x : EStateM ε σ α} {s t : σ} {a : α} (h : x s = .ok a t)
    (f : α → EStateM ε σ β) : (x >>= f) s = f a t := by
  simp only [bind, EStateM.bind, h]

lemma bind_run_error {x : EStateM ε σ α} {s t : σ} {e : ε} (h : x s = .error e t)
    (f : α → EStateM ε σ β) : (x >>= f) s = .error e t := by
  simp only [bind, EStateM.bind, h]

lemma run'_eq_some {x : EStateM ε σ α} {s : σ} {a : α} (h : x.run' s = some a) :
    ∃ t, x s = .ok a t := by
  delta EStateM.run' EStateM.run at h
  split at h
  next v t hrun =>
    cases h
    exact ⟨t, hrun⟩
  · cases h

lemma adaptExcept_eq_ok {g : ε → ε'} {x : EStateM ε σ α} {s s' : σ} {a : α} :
    EStateM.adaptExcept g x s = .ok a s' ↔ x s = .ok a s' := by
  simp only [EStateM.adaptExcept]
  cases x s <;> simp

lemma adaptExcept_eq_error {g : ε → ε'} {x : EStateM ε σ α} {s s' : σ} {e : ε'} :
    EStateM.adaptExcept g x s = .error e s' ↔ ∃ e₀, g e₀ = e ∧ x s = .error e₀ s' := by
  simp only [EStateM.adaptExcept]
  cases x s with
  | ok a t => simp
  | error e₀ t =>
      simp only [EStateM.Result.error.injEq]
      constructor
      · rintro ⟨he, rfl⟩
        exact ⟨e₀, he, rfl, rfl⟩
      · rintro ⟨e₁, he, rfl, rfl⟩
        exact ⟨he, rfl⟩

lemma finalState_adaptExcept (g : ε → ε') (x : EStateM ε σ α) (s : σ) :
    finalState (EStateM.adaptExcept g x s) = finalState (x s) := by
  simp only [EStateM.adaptExcept]
  cases x s <;> rfl

/-! ## What every run leaves -/

/-- Every run of a computation leaves a state related to the one it started from. -/
def Leaves (R : σ → σ → Prop) (x : EStateM ε σ α) : Prop :=
  ∀ s, R s (finalState (x s))

namespace Leaves

variable {R : σ → σ → Prop}

lemma pure [IsPreorder σ R] (a : α) : Leaves R (Pure.pure a : EStateM ε σ α) := fun s => refl s

lemma throw [IsPreorder σ R] (e : ε) : Leaves R (MonadExcept.throw e : EStateM ε σ α) :=
  fun s => refl s

/-- **A relation that composes passes through sequences,** also where the second computation is
    known only at the states that the first one leads to. -/
lemma bind_at [IsPreorder σ R] {x : EStateM ε σ α} {f : α → EStateM ε σ β} {s : σ}
    (hx : R s (finalState (x s))) (hf : ∀ a t, x s = .ok a t → R t (finalState (f a t))) :
    R s (finalState ((x >>= f) s)) := by
  cases hrun : x s with
  | ok a t =>
      rw [hrun] at hx
      rw [bind_run_ok hrun]
      exact IsTrans.trans _ _ _ hx (hf a t hrun)
  | error e t =>
      rw [hrun] at hx
      rw [bind_run_error hrun]
      exact hx

lemma bind [IsPreorder σ R] {x : EStateM ε σ α} {f : α → EStateM ε σ β} (hx : Leaves R x)
    (hf : ∀ a, Leaves R (f a)) : Leaves R (x >>= f) :=
  fun s => bind_at (hx s) fun a t _ => hf a t

lemma adaptExcept {g : ε → ε'} {x : EStateM ε σ α} (hx : Leaves R x) :
    Leaves R (EStateM.adaptExcept g x) := by
  intro s
  rw [finalState_adaptExcept]
  exact hx s

lemma of_ok {x : EStateM ε σ α} (hx : Leaves R x) {s t : σ} {a : α} (h : x s = .ok a t) :
    R s t := by
  have hs := hx s
  rw [h] at hs
  exact hs

lemma of_error {x : EStateM ε σ α} (hx : Leaves R x) {s t : σ} {e : ε} (h : x s = .error e t) :
    R s t := by
  have hs := hx s
  rw [h] at hs
  exact hs

end Leaves

/-! ## From the bus to the board -/

namespace Board

/-- Looking at the hart changes nothing. -/
lemma getHart_bind (f : Hart → EStateM Exception Board β) (b : Board) :
    (getHart >>= f) b = f b.hart b := rfl

lemma onBus_eq_ok {x : EStateM Exception Bus α} {b b' : Board} {a : α} :
    onBus x b = .ok a b' ↔ x b.bus = .ok a b'.bus ∧ b' = { b with bus := b'.bus } := by
  rw [onBus]
  cases x b.bus with
  | ok a₀ t =>
      simp only [EStateM.Result.ok.injEq]
      constructor
      · rintro ⟨ha, rfl⟩
        exact ⟨⟨ha, rfl⟩, rfl⟩
      · rintro ⟨⟨ha, rfl⟩, hb⟩
        exact ⟨ha, hb.symm⟩
  | error e t => simp

lemma onBus_eq_error {x : EStateM Exception Bus α} {b b' : Board} {e : Exception} :
    onBus x b = .error e b' ↔ x b.bus = .error e b'.bus ∧ b' = { b with bus := b'.bus } := by
  rw [onBus]
  cases x b.bus with
  | ok a t => simp
  | error e₀ t =>
      simp only [EStateM.Result.error.injEq]
      constructor
      · rintro ⟨he, rfl⟩
        exact ⟨⟨he, rfl⟩, rfl⟩
      · rintro ⟨⟨he, rfl⟩, hb⟩
        exact ⟨he, hb.symm⟩

end Board

end Rv64Board
