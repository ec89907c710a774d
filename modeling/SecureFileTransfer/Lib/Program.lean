import Mathlib.Logic.Basic
import Mathlib.Order.Defs.Unbundled

/-!
# Program — stateful code with exceptions

`Prog ε σ α` is code over a state `σ` that returns an `α` or throws an `ε`.  An exception keeps the
state reached so far, as in a language with side effects.  Two ways to reason about a program:

* `wp x Q s` — run from `s`, the outcome and the final state satisfy `Q`;
* `Steps R x` — every run of `x` relates its first state to its last by `R`.
-/

namespace SecureFileTransfer

theorem exists_of_map_eq_ok {ε α β : Type} {f : α → β} {r : Except ε α} {b : β}
    (h : r.map f = .ok b) : ∃ a, r = .ok a ∧ f a = b := by
  cases r with
  | error e => cases h
  | ok a => exact ⟨a, rfl, Except.ok.inj h⟩

theorem eq_error_of_map_eq_error {ε α β : Type} {f : α → β} {r : Except ε α} {e : ε}
    (h : r.map f = .error e) : r = .error e := by
  cases r with
  | error e' => exact congrArg Except.error (Except.error.inj h)
  | ok a => cases h

def Prog (ε σ α : Type) : Type := σ → Except ε α × σ

namespace Prog

variable {ε σ τ α β : Type}

instance : Monad (Prog ε σ) where
  pure a := fun s => (.ok a, s)
  bind x f := fun s =>
    match x s with
    | (.ok a, s') => f a s'
    | (.error e, s') => (.error e, s')

instance : MonadExceptOf ε (Prog ε σ) where
  throw e := fun s => (.error e, s)
  tryCatch x h := fun s =>
    match x s with
    | (.ok a, s') => (.ok a, s')
    | (.error e, s') => h e s'

/-- Read the state; the answer may be an exception. -/
def ask (f : σ → Except ε α) : Prog ε σ α := fun s => (f s, s)

/-- A value and a new state. -/
def modifyGet (f : σ → α × σ) : Prog ε σ α := fun s => (.ok (f s).1, (f s).2)

/-- A pure outcome: a value, or an exception that leaves the state alone. -/
def outcome (r : Except ε α) : Prog ε σ α := fun s => (r, s)

/-- Replace the state by an outcome that carries the new one. -/
def update (f : σ → Except ε σ) : Prog ε σ Unit := fun s =>
  match f s with
  | .ok s' => (.ok (), s')
  | .error e => (.error e, s)

/-- Run on a part of a larger state. -/
def zoom (part : τ → σ) (put : τ → σ → τ) (x : Prog ε σ α) : Prog ε τ α := fun t =>
  ((x (part t)).1, put t (x (part t)).2)

/-! ## Weakest preconditions -/

def wp (x : Prog ε σ α) (Q : Except ε α → σ → Prop) (s : σ) : Prop := Q (x s).1 (x s).2

/-- What `x >>= f` still has to show after `x`. -/
def wpBind (f : α → Prog ε σ β) (Q : Except ε β → σ → Prop) : Except ε α → σ → Prop
  | .ok a, s => wp (f a) Q s
  | .error e, s => Q (.error e) s

/-- What `tryCatch x h` still has to show after `x`. -/
def wpCatch (h : ε → Prog ε σ α) (Q : Except ε α → σ → Prop) : Except ε α → σ → Prop
  | .ok a, s => Q (.ok a) s
  | .error e, s => wp (h e) Q s

section Rules

variable {Q : Except ε β → σ → Prop} {P : Except ε α → σ → Prop} {s : σ}

@[simp] theorem wp_pure (a : α) : wp (pure a : Prog ε σ α) P s = P (.ok a) s := rfl

theorem wp_return {a : α} (h : P (.ok a) s) : wp (pure a : Prog ε σ α) P s := h

@[simp] theorem wp_throw (e : ε) : wp (throw e : Prog ε σ α) P s = P (.error e) s := rfl

@[simp] theorem wp_ask (f : σ → Except ε α) : wp (ask f : Prog ε σ α) P s = P (f s) s := rfl

@[simp] theorem wp_outcome (r : Except ε α) : wp (outcome r : Prog ε σ α) P s = P r s := rfl

@[simp] theorem wp_modifyGet (f : σ → α × σ) :
    wp (modifyGet f : Prog ε σ α) P s = P (.ok (f s).1) (f s).2 := rfl

theorem wp_update {f : σ → Except ε σ} {Q : Except ε Unit → σ → Prop} :
    wp (update f) Q s ↔ (∀ s', f s = .ok s' → Q (.ok ()) s') ∧ (∀ e, f s = .error e → Q (.error e) s) := by
  unfold wp update
  cases h : f s with
  | ok s' => simp
  | error e => simp

@[simp] theorem wp_bind (x : Prog ε σ α) (f : α → Prog ε σ β) :
    wp (x >>= f) Q s = wp x (wpBind f Q) s := by
  show Q _ _ = wpBind f Q (x s).1 (x s).2
  simp only [Bind.bind]
  rcases x s with ⟨_ | _, _⟩ <;> rfl

@[simp] theorem wp_tryCatch (x : Prog ε σ α) (h : ε → Prog ε σ α) :
    wp (tryCatch x h) P s = wp x (wpCatch h P) s := by
  show P _ _ = wpCatch h P (x s).1 (x s).2
  simp only [tryCatch, tryCatchThe, MonadExceptOf.tryCatch]
  rcases x s with ⟨_ | _, _⟩ <;> rfl

@[simp] theorem wpBind_ok (f : α → Prog ε σ β) (a : α) : wpBind f Q (.ok a) s = wp (f a) Q s := rfl

@[simp] theorem wpBind_error (f : α → Prog ε σ β) (e : ε) :
    wpBind f Q (.error e) s = Q (.error e) s := rfl

@[simp] theorem wpCatch_ok (h : ε → Prog ε σ α) (a : α) : wpCatch h P (.ok a) s = P (.ok a) s := rfl

@[simp] theorem wpCatch_error (h : ε → Prog ε σ α) (e : ε) :
    wpCatch h P (.error e) s = wp (h e) P s := rfl

theorem wp_mono {x : Prog ε σ α} {P' : Except ε α → σ → Prop} (h : wp x P s)
    (himp : ∀ r s', P r s' → P' r s') : wp x P' s :=
  himp _ _ h

theorem wp_and {x : Prog ε σ α} {P' : Except ε α → σ → Prop} (h : wp x P s) (h' : wp x P' s) :
    wp x (fun r s' => P r s' ∧ P' r s') s :=
  ⟨h, h'⟩

/-- What holds however the program ends. -/
theorem wp_of_forall {x : Prog ε σ α} (h : ∀ r s', P r s') : wp x P s := h _ _

/-- A program whose value is only renamed. -/
theorem wp_map {x : Prog ε σ α} {g : α → β} (h : wp x (fun r s' => Q (r.map g) s') s) :
    wp (x >>= fun a => pure (g a)) Q s := by
  rw [wp_bind]
  refine wp_mono h ?_
  rintro (e | a) s' hq
  · exact hq
  · exact hq

theorem wp_ite {c : Prop} [Decidable c] {x y : Prog ε σ α} (ht : c → wp x P s)
    (hf : ¬ c → wp y P s) : wp (if c then x else y) P s := by
  split
  · exact ht ‹_›
  · exact hf ‹_›

/-- A specification says what an actual run yields. -/
theorem of_wp {x : Prog ε σ α} {r : Except ε α} {s' : σ} (h : wp x P s) (hrun : x s = (r, s')) :
    P r s' := by
  have h' : P (x s).1 (x s).2 := h
  rwa [hrun] at h'

end Rules

@[simp] theorem wp_zoom {part : τ → σ} {put : τ → σ → τ} {x : Prog ε σ α}
    {P : Except ε α → τ → Prop} {t : τ} :
    wp (zoom part put x) P t = wp x (fun r s => P r (put t s)) (part t) := rfl

/-! ## What every run does to the state -/

def Steps (R : σ → σ → Prop) (x : Prog ε σ α) : Prop := ∀ s, R s (x s).2

namespace Steps

variable {R : σ → σ → Prop}

theorem wp {x : Prog ε σ α} (h : Steps R x) (s : σ) : Prog.wp x (fun _ s' => R s s') s := h s

theorem outcome (hrefl : ∀ s, R s s) (r : Except ε α) : Steps R (Prog.outcome r : Prog ε σ α) :=
  hrefl

theorem pure (hrefl : ∀ s, R s s) (a : α) : Steps R (Pure.pure a : Prog ε σ α) := hrefl

theorem throw (hrefl : ∀ s, R s s) (e : ε) : Steps R (MonadExcept.throw e : Prog ε σ α) := hrefl

theorem ask (hrefl : ∀ s, R s s) (f : σ → Except ε α) : Steps R (Prog.ask f : Prog ε σ α) := hrefl

theorem bind (htrans : ∀ {a b c}, R a b → R b c → R a c) {x : Prog ε σ α} {f : α → Prog ε σ β}
    (hx : Steps R x) (hf : ∀ a, Steps R (f a)) : Steps R (x >>= f) := by
  intro s
  have h₁ := hx s
  show R s ((x >>= f) s).2
  simp only [Bind.bind]
  rcases hrun : x s with ⟨_ | a, s'⟩
  · rw [hrun] at h₁
    exact h₁
  · rw [hrun] at h₁
    exact htrans h₁ (hf a s')

theorem tryCatch (htrans : ∀ {a b c}, R a b → R b c → R a c) {x : Prog ε σ α}
    {h : ε → Prog ε σ α} (hx : Steps R x) (hh : ∀ e, Steps R (h e)) :
    Steps R (MonadExcept.tryCatch x h) := by
  intro s
  have h₁ := hx s
  show R s (MonadExcept.tryCatch x h s).2
  simp only [MonadExcept.tryCatch, tryCatchThe, MonadExceptOf.tryCatch]
  rcases hrun : x s with ⟨e | a, s'⟩
  · rw [hrun] at h₁
    exact htrans h₁ (hh e s')
  · rw [hrun] at h₁
    exact h₁

theorem ite {c : Prop} [Decidable c] {x y : Prog ε σ α} (hx : Steps R x) (hy : Steps R y) :
    Steps R (if c then x else y) := by
  split
  · exact hx
  · exact hy

theorem mono {R' : σ → σ → Prop} {x : Prog ε σ α} (h : Steps R x) (himp : ∀ s s', R s s' → R' s s') :
    Steps R' x := fun s => himp _ _ (h s)

end Steps

end Prog
end SecureFileTransfer
