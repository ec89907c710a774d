import Mathlib.Logic.Basic

/-!
# Calls — code as the calls it makes, and what holds when it is cut short

`Calls ι ans ε α` is code that makes calls `c : ι`, is given an `ans c` for each of them, and
returns an `α` or throws an `ε`.  A device answers a call: the answer and the device's next state
depend on its state and on a fault the environment picks.  Such code can be stopped between any two
calls, so its specification has two parts: `wpc I x Q s` says that `I` holds at every point at
which `x`, started in `s`, can be stopped, and that `Q` holds of its result.
-/

namespace SecureFileTransfer

inductive Calls (ι : Type) (ans : ι → Type) (ε α : Type) : Type
  | done (r : Except ε α)
  | call (c : ι) (k : ans c → Calls ι ans ε α)

namespace Calls

variable {ι ε α β σ φ : Type} {ans : ι → Type}

/-- Make one call and return its answer. -/
def ask (c : ι) : Calls ι ans ε (ans c) := .call c fun a => .done (.ok a)

def andThen : Calls ι ans ε α → (α → Calls ι ans ε β) → Calls ι ans ε β
  | .done (.ok a), f => f a
  | .done (.error e), _ => .done (.error e)
  | .call c k, f => .call c fun a => (k a).andThen f

def orElse : Calls ι ans ε α → (ε → Calls ι ans ε α) → Calls ι ans ε α
  | .done (.ok a), _ => .done (.ok a)
  | .done (.error e), h => h e
  | .call c k, h => .call c fun a => (k a).orElse h

instance : Monad (Calls ι ans ε) where
  pure a := .done (.ok a)
  bind := andThen

instance : MonadExceptOf ε (Calls ι ans ε) where
  throw e := .done (.error e)
  tryCatch := orElse

/-- The call that is made next. -/
def next? : Calls ι ans ε α → Option ι
  | .done _ => none
  | .call c _ => some c

/-- Run to the end; the environment picks its faults one after the other. -/
def exec (act : (c : ι) → φ → σ → ans c × σ) :
    Calls ι ans ε α → (Nat → φ) → σ → Except ε α × σ
  | .done r, _, s => (r, s)
  | .call c k, faults, s =>
      exec act (k (act c (faults 0) s).1) (fun n => faults (n + 1)) (act c (faults 0) s).2

/-- The calls of a run to the end, each with its answer. -/
def log (act : (c : ι) → φ → σ → ans c × σ) :
    Calls ι ans ε α → (Nat → φ) → σ → List ((c : ι) × ans c)
  | .done _, _, _ => []
  | .call c k, faults, s =>
      ⟨c, (act c (faults 0) s).1⟩ ::
        log act (k (act c (faults 0) s).1) (fun n => faults (n + 1)) (act c (faults 0) s).2

/-- Run until the code ends or has made `n` calls. -/
def stopped (act : (c : ι) → φ → σ → ans c × σ) :
    Nat → Calls ι ans ε α → (Nat → φ) → σ → σ
  | 0, _, _, s => s
  | _ + 1, .done _, _, s => s
  | n + 1, .call c k, faults, s =>
      stopped act n (k (act c (faults 0) s).1) (fun i => faults (i + 1)) (act c (faults 0) s).2

/-! ## Runs of composed code -/

section Composed

variable {act : (c : ι) → φ → σ → ans c × σ}

/-- What follows a run that ended so, with the faults that are left. -/
def resume (act : (c : ι) → φ → σ → ans c × σ) (f : α → Calls ι ans ε β) (faults : Nat → φ) :
    Except ε α × σ → (Except ε β × σ) × List ((c : ι) × ans c)
  | (.ok a, s) => ((f a).exec act faults s, (f a).log act faults s)
  | (.error e, s) => ((.error e, s), [])

/-- A run of `x >>= f` is a run of `x` and what follows it: each call has used up one fault. -/
theorem run_bind (x : Calls ι ans ε α) (f : α → Calls ι ans ε β) (faults : Nat → φ) (s : σ) :
    (x >>= f).exec act faults s =
        (resume act f (fun n => faults (n + (x.log act faults s).length)) (x.exec act faults s)).1 ∧
      (x >>= f).log act faults s = x.log act faults s ++
        (resume act f (fun n => faults (n + (x.log act faults s).length))
          (x.exec act faults s)).2 := by
  induction x generalizing faults s with
  | done r =>
      cases r with
      | ok a => exact ⟨rfl, rfl⟩
      | error e => exact ⟨rfl, rfl⟩
  | call c k ih =>
      obtain ⟨hexec, hlog⟩ := ih (act c (faults 0) s).1 (fun n => faults (n + 1)) (act c (faults 0) s).2
      exact ⟨hexec, congrArg (_ :: ·) hlog⟩

/-- When the environment always picks the same fault, runs that end well follow one another. -/
theorem exec_bind_of_ok {x : Calls ι ans ε α} {f : α → Calls ι ans ε β} {fault : φ} {s s' : σ} {a : α}
    (h : x.exec act (fun _ => fault) s = (.ok a, s')) :
    (x >>= f).exec act (fun _ => fault) s = (f a).exec act (fun _ => fault) s' := by
  rw [(run_bind x f _ s).1, h]
  rfl

/-- A run that is stopped inside `x` is a run of `x`; one that gets further is a run of what
follows. -/
theorem stopped_bind (x : Calls ι ans ε α) (f : α → Calls ι ans ε β) (faults : Nat → φ) (s : σ)
    (n : Nat) :
    stopped act n (x >>= f) faults s =
      if n ≤ (x.log act faults s).length then
        stopped act n x faults s
      else
        match x.exec act faults s with
        | (.ok a, s') => stopped act (n - (x.log act faults s).length) (f a)
            (fun i => faults (i + (x.log act faults s).length)) s'
        | (.error _, s') => s' := by
  induction x generalizing faults s n with
  | done r =>
      cases n with
      | zero => rfl
      | succ n => cases r <;> rfl
  | call c k ih =>
      cases n with
      | zero => rfl
      | succ n =>
          have hrest := ih (act c (faults 0) s).1 (fun i => faults (i + 1)) (act c (faults 0) s).2 n
          simp only [log, List.length_cons, Nat.add_le_add_iff_right, Nat.add_sub_add_right]
          exact hrest

theorem pure_bind (a : α) (f : α → Calls ι ans ε β) : (pure a : Calls ι ans ε α) >>= f = f a := rfl

theorem bind_assoc (x : Calls ι ans ε α) (f : α → Calls ι ans ε β) {γ : Type}
    (g : β → Calls ι ans ε γ) : x >>= f >>= g = x >>= fun a => f a >>= g := by
  induction x with
  | done r => cases r <;> rfl
  | call c k ih => exact congrArg (call c) (funext ih)

end Composed

/-! ## Preconditions that survive a stop -/

section Wpc

-- `act c f s`: the device answers `c` in state `s` under the fault `f`;
-- `allowed s c f`: the faults that are considered
variable (act : (c : ι) → φ → σ → ans c × σ) (allowed : σ → ι → φ → Prop)

def wpc (I : σ → Prop) : Calls ι ans ε α → (Except ε α → σ → Prop) → σ → Prop
  | .done r, Q, s => I s ∧ Q r s
  | .call c k, Q, s => I s ∧ ∀ f, allowed s c f → wpc I (k (act c f s).1) Q (act c f s).2

variable {act allowed} {I : σ → Prop} {s : σ}

/-- What `x >>= f` still has to show after `x`. -/
@[reducible] def andThenPost (act : (c : ι) → φ → σ → ans c × σ) (allowed : σ → ι → φ → Prop) (I : σ → Prop)
    (f : α → Calls ι ans ε β) (Q : Except ε β → σ → Prop) : Except ε α → σ → Prop
  | .ok a, s => wpc act allowed I (f a) Q s
  | .error e, s => Q (.error e) s

/-- What `tryCatch x h` still has to show after `x`. -/
@[reducible] def orElsePost (act : (c : ι) → φ → σ → ans c × σ) (allowed : σ → ι → φ → Prop) (I : σ → Prop)
    (h : ε → Calls ι ans ε α) (Q : Except ε α → σ → Prop) : Except ε α → σ → Prop
  | .ok a, s => Q (.ok a) s
  | .error e, s => wpc act allowed I (h e) Q s

/-- The condition holds before the first call. -/
theorem wpc.here {x : Calls ι ans ε α} {Q : Except ε α → σ → Prop}
    (h : wpc act allowed I x Q s) : I s := by
  cases x with
  | done r => exact h.1
  | call c k => exact h.1

/-- What a run to the end yields under faults that are considered. -/
theorem wpc.exec {x : Calls ι ans ε α} {Q : Except ε α → σ → Prop} {faults : Nat → φ}
    (h : wpc act allowed I x Q s) (hfaults : ∀ n s c, allowed s c (faults n)) :
    I (x.exec act faults s).2 ∧ Q (x.exec act faults s).1 (x.exec act faults s).2 := by
  induction x generalizing s faults with
  | done r => exact h
  | call c k ih => exact ih _ (h.2 _ (hfaults 0 s c)) fun n => hfaults (n + 1)

/-- The condition holds wherever a run is stopped. -/
theorem wpc.stopped {x : Calls ι ans ε α} {Q : Except ε α → σ → Prop} {faults : Nat → φ}
    (h : wpc act allowed I x Q s) (hfaults : ∀ n s c, allowed s c (faults n)) (n : Nat) :
    I (Calls.stopped act n x faults s) := by
  induction x generalizing s faults n with
  | done r => cases n <;> exact h.1
  | call c k ih =>
      cases n with
      | zero => exact h.1
      | succ n => exact ih _ (h.2 _ (hfaults 0 s c)) (fun i => hfaults (i + 1)) n

theorem wpc_pure {a : α} {Q : Except ε α → σ → Prop} (hI : I s) (hQ : Q (.ok a) s) :
    wpc act allowed I (pure a : Calls ι ans ε α) Q s := ⟨hI, hQ⟩

theorem wpc_throw {e : ε} {Q : Except ε α → σ → Prop} (hI : I s) (hQ : Q (.error e) s) :
    wpc act allowed I (throw e : Calls ι ans ε α) Q s := ⟨hI, hQ⟩

theorem wpc_mono {x : Calls ι ans ε α} {Q Q' : Except ε α → σ → Prop}
    (h : wpc act allowed I x Q s) (hQ : ∀ r s, I s → Q r s → Q' r s) :
    wpc act allowed I x Q' s := by
  induction x generalizing s with
  | done r => exact ⟨h.1, hQ r s h.1 h.2⟩
  | call c k ih => exact ⟨h.1, fun f hf => ih _ (h.2 f hf)⟩

theorem wpc_weaken {I' : σ → Prop} {x : Calls ι ans ε α} {Q : Except ε α → σ → Prop}
    (h : wpc act allowed I x Q s) (hI : ∀ s, I s → I' s) : wpc act allowed I' x Q s := by
  induction x generalizing s with
  | done r => exact ⟨hI s h.1, h.2⟩
  | call c k ih => exact ⟨hI s h.1, fun f hf => ih _ (h.2 f hf)⟩

theorem wpc_bind {x : Calls ι ans ε α} {f : α → Calls ι ans ε β} {Q : Except ε β → σ → Prop}
    (h : wpc act allowed I x (andThenPost act allowed I f Q) s) :
    wpc act allowed I (x >>= f) Q s := by
  induction x generalizing s with
  | done r =>
      cases r with
      | ok a => exact h.2
      | error e => exact h
  | call c k ih => exact ⟨h.1, fun fault hf => ih _ (h.2 fault hf)⟩

theorem wpc_tryCatch {x : Calls ι ans ε α} {handler : ε → Calls ι ans ε α}
    {Q : Except ε α → σ → Prop}
    (h : wpc act allowed I x (orElsePost act allowed I handler Q) s) :
    wpc act allowed I (tryCatch x handler) Q s := by
  show wpc act allowed I (x.orElse handler) Q s
  induction x generalizing s with
  | done r =>
      cases r with
      | ok a => exact h
      | error e => exact h.2
  | call c k ih => exact ⟨h.1, fun fault hf => ih _ (h.2 fault hf)⟩

theorem wpc_ask {c : ι} {Q : Except ε (ans c) → σ → Prop} (hI : I s)
    (h : ∀ f, allowed s c f → I (act c f s).2 ∧ Q (.ok (act c f s).1) (act c f s).2) :
    wpc act allowed I (ask c : Calls ι ans ε (ans c)) Q s := ⟨hI, h⟩

/-- One call, then the rest. -/
theorem wpc_ask_bind {c : ι} {f : ans c → Calls ι ans ε β} {Q : Except ε β → σ → Prop} (hI : I s)
    (h : ∀ fault, allowed s c fault →
      wpc act allowed I (f (act c fault s).1) Q (act c fault s).2) :
    wpc act allowed I (ask c >>= f) Q s := ⟨hI, h⟩

theorem wpc_ite {p : Prop} [Decidable p] {x y : Calls ι ans ε α} {Q : Except ε α → σ → Prop}
    (ht : p → wpc act allowed I x Q s) (hf : ¬ p → wpc act allowed I y Q s) :
    wpc act allowed I (if p then x else y) Q s := by
  split
  · exact ht ‹_›
  · exact hf ‹_›

variable (act allowed) in
/-- As `wpc`, but the first call meets the fault `f₀`. -/
def wpcFirst (I : σ → Prop) (f₀ : φ) : Calls ι ans ε α → (Except ε α → σ → Prop) → σ → Prop
  | .done r, Q, s => I s ∧ Q r s
  | .call c k, Q, s => I s ∧ wpc act allowed I (k (act c f₀ s).1) Q (act c f₀ s).2

section First

variable {f₀ : φ}

theorem wpc.first {x : Calls ι ans ε α} {Q : Except ε α → σ → Prop}
    (h : wpc act allowed I x Q s) (hf₀ : ∀ s c, allowed s c f₀) :
    wpcFirst act allowed I f₀ x Q s := by
  cases x with
  | done r => exact h
  | call c k => exact ⟨h.1, h.2 f₀ (hf₀ s c)⟩

/-- What a run to the end yields, with its own first fault. -/
theorem wpcFirst.exec {x : Calls ι ans ε α} {Q : Except ε α → σ → Prop} {faults : Nat → φ}
    (h : wpcFirst act allowed I (faults 0) x Q s) (hfaults : ∀ n s c, allowed s c (faults n)) :
    I (x.exec act faults s).2 ∧ Q (x.exec act faults s).1 (x.exec act faults s).2 := by
  cases x with
  | done r => exact h
  | call c k => exact h.2.exec fun n => hfaults (n + 1)

theorem wpcFirst_mono {x : Calls ι ans ε α} {Q Q' : Except ε α → σ → Prop}
    (h : wpcFirst act allowed I f₀ x Q s) (hQ : ∀ r s, I s → Q r s → Q' r s) :
    wpcFirst act allowed I f₀ x Q' s := by
  cases x with
  | done r => exact ⟨h.1, hQ r s h.1 h.2⟩
  | call c k => exact ⟨h.1, wpc_mono h.2 hQ⟩

theorem wpcFirst_bind {x : Calls ι ans ε α} {f : α → Calls ι ans ε β} {Q : Except ε β → σ → Prop}
    (hf₀ : ∀ s c, allowed s c f₀)
    (h : wpcFirst act allowed I f₀ x (andThenPost act allowed I f Q) s) :
    wpcFirst act allowed I f₀ (x >>= f) Q s := by
  cases x with
  | done r =>
      cases r with
      | ok a => exact h.2.first hf₀
      | error e => exact h
  | call c k => exact ⟨h.1, wpc_bind h.2⟩

theorem wpcFirst_tryCatch {x : Calls ι ans ε α} {handler : ε → Calls ι ans ε α}
    {Q : Except ε α → σ → Prop} (hf₀ : ∀ s c, allowed s c f₀)
    (h : wpcFirst act allowed I f₀ x (orElsePost act allowed I handler Q) s) :
    wpcFirst act allowed I f₀ (tryCatch x handler) Q s := by
  show wpcFirst act allowed I f₀ (x.orElse handler) Q s
  cases x with
  | done r =>
      cases r with
      | ok a => exact h
      | error e => exact h.2.first hf₀
  | call c k => exact ⟨h.1, wpc_tryCatch h.2⟩

theorem wpcFirst_ask_bind {c : ι} {f : ans c → Calls ι ans ε β} {Q : Except ε β → σ → Prop}
    (hI : I s) (h : wpc act allowed I (f (act c f₀ s).1) Q (act c f₀ s).2) :
    wpcFirst act allowed I f₀ (ask c >>= f) Q s := ⟨hI, h⟩

theorem wpcFirst_ite {p : Prop} [Decidable p] {x y : Calls ι ans ε α} {Q : Except ε α → σ → Prop}
    (ht : p → wpcFirst act allowed I f₀ x Q s) (hf : ¬ p → wpcFirst act allowed I f₀ y Q s) :
    wpcFirst act allowed I f₀ (if p then x else y) Q s := by
  split
  · exact ht ‹_›
  · exact hf ‹_›

end First

/-- Every call the code can make satisfies `P`. -/
def All (P : ι → Prop) : Calls ι ans ε α → Prop
  | .done _ => True
  | .call c k => P c ∧ ∀ a, (k a).All P

theorem All.mono {P P' : ι → Prop} {x : Calls ι ans ε α} (hx : x.All P) (h : ∀ c, P c → P' c) :
    x.All P' := by
  induction x with
  | done r => trivial
  | call c k ih => exact ⟨h c hx.1, fun a => ih a (hx.2 a)⟩

theorem all_true (x : Calls ι ans ε α) : x.All fun _ => True := by
  induction x with
  | done r => trivial
  | call c k ih => exact ⟨trivial, ih⟩

theorem all_bind {P : ι → Prop} {x : Calls ι ans ε α} {f : α → Calls ι ans ε β} (hx : x.All P)
    (hf : ∀ a, (f a).All P) : (x >>= f).All P := by
  induction x with
  | done r =>
      cases r with
      | ok a => exact hf a
      | error e => trivial
  | call c k ih => exact ⟨hx.1, fun a => ih a (hx.2 a)⟩

theorem all_tryCatch {P : ι → Prop} {x : Calls ι ans ε α} {handler : ε → Calls ι ans ε α}
    (hx : x.All P) (hh : ∀ e, (handler e).All P) : (tryCatch x handler).All P := by
  show (x.orElse handler).All P
  induction x with
  | done r =>
      cases r with
      | ok a => trivial
      | error e => exact hh e
  | call c k ih => exact ⟨hx.1, fun a => ih a (hx.2 a)⟩

/-- What holds of every call the code can make holds of those it makes. -/
theorem All.of_mem_log {P : ι → Prop} {x : Calls ι ans ε α} (hx : x.All P) {faults : Nat → φ}
    {made : (c : ι) × ans c} (hmade : made ∈ x.log act faults s) : P made.1 := by
  induction x generalizing faults s with
  | done r => cases hmade
  | call c k ih =>
      rcases List.mem_cons.1 hmade with rfl | hmade
      · exact hx.1
      · exact ih _ (hx.2 _) hmade

/-- Code whose calls all keep the condition keeps it. -/
theorem wpc_of_all {P : ι → Prop} {x : Calls ι ans ε α}
    (hkeep : ∀ c f s, P c → allowed s c f → I s → I (act c f s).2) (hx : x.All P) (hI : I s) :
    wpc act allowed I x (fun _ => I) s := by
  induction x generalizing s with
  | done r => exact ⟨hI, hI⟩
  | call c k ih => exact ⟨hI, fun f hf => ih _ (hx.2 _) (hkeep c f s hx.1 hf hI)⟩

end Wpc
end Calls
end SecureFileTransfer
