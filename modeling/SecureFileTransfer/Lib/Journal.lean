import SecureFileTransfer.Lib.Program
import SecureFileTransfer.Lib.Runs

/-!
# Journal — a log that tells what a part of the state is

A system keeps a log beside its state, and an entry of the log says how a view of the state changed.
The log is faithful when the view is what replaying the log makes of it.  Code that changes the view
first and writes the entry afterwards is ahead of its log in between.
-/

namespace SecureFileTransfer

variable {σ τ ε ν : Type}

/-- The log, the view it tells of, and what an entry makes of the view. -/
structure Journal (σ ε ν : Type) where
  log : σ → List ε
  view : σ → ν
  enter : ν → ε → ν

namespace Journal

variable (J : Journal σ ε ν)

/-- The entries, one after the other. -/
def replay (v : ν) (entries : List ε) : ν := entries.foldl J.enter v

/-- The log grew by entries that tell how the view changed. -/
def Faithful (s s' : σ) : Prop :=
  ∃ new, J.log s' = J.log s ++ new ∧ J.view s' = J.replay (J.view s) new

/-- Neither the log nor the view changed. -/
structure Silent (s s' : σ) : Prop where
  log : J.log s' = J.log s
  view : J.view s' = J.view s

/-- The view changed as `e` tells, and `e` is not in the log yet. -/
structure Ahead (e : ε) (s s' : σ) : Prop where
  log : J.log s' = J.log s
  view : J.view s' = J.enter (J.view s) e

/-- The journal of a larger state. -/
def comap (part : τ → σ) : Journal τ ε ν where
  log t := J.log (part t)
  view t := J.view (part t)
  enter := J.enter

variable {J} {s s₁ s₂ : σ} {e : ε}

theorem replay_append (v : ν) (es es' : List ε) :
    J.replay v (es ++ es') = J.replay (J.replay v es) es' :=
  List.foldl_append

/-- Entries that tell the same replay to the same view. -/
theorem replay_congr {es es' : List ε}
    (h : List.Forall₂ (fun e e' => ∀ v, J.enter v e = J.enter v e') es es') (v : ν) :
    J.replay v es = J.replay v es' := by
  induction h generalizing v with
  | nil => rfl
  | @cons e e' es es' he _ ih =>
      show J.replay (J.enter v e) es = J.replay (J.enter v e') es'
      rw [he v]
      exact ih _

namespace Silent

theorem refl (s : σ) : J.Silent s s := ⟨rfl, rfl⟩

theorem trans (h₁ : J.Silent s s₁) (h₂ : J.Silent s₁ s₂) : J.Silent s s₂ :=
  ⟨h₂.log.trans h₁.log, h₂.view.trans h₁.view⟩

theorem faithful (h : J.Silent s s₁) : J.Faithful s s₁ := ⟨[], by simp [h.log], h.view⟩

end Silent

namespace Faithful

theorem refl (s : σ) : J.Faithful s s := (Silent.refl s).faithful

theorem trans (h₁ : J.Faithful s s₁) (h₂ : J.Faithful s₁ s₂) : J.Faithful s s₂ := by
  obtain ⟨new₁, hlog₁, hview₁⟩ := h₁
  obtain ⟨new₂, hlog₂, hview₂⟩ := h₂
  refine ⟨new₁ ++ new₂, by rw [hlog₂, hlog₁, List.append_assoc], ?_⟩
  rw [hview₂, hview₁, replay_append]

/-- An entry that tells of no change. -/
theorem of_idle (hlog : J.log s₁ = J.log s ++ [e]) (hview : J.view s₁ = J.view s)
    (hidle : J.enter (J.view s) e = J.view s) : J.Faithful s s₁ :=
  ⟨[e], hlog, hview.trans hidle.symm⟩

/-- From an empty log on, the view is the log, replayed. -/
theorem view_eq (h : J.Faithful s s₁) (hempty : J.log s = []) :
    J.view s₁ = J.replay (J.view s) (J.log s₁) := by
  obtain ⟨new, hlog, hview⟩ := h
  rw [hview, hlog, hempty, List.nil_append]

/-- Faithful steps make a faithful run. -/
theorem final {ι ο : Type} {step : σ → ι → ο × σ} (hstep : ∀ s i, J.Faithful s (step s i).2)
    (is : List ι) (s : σ) : J.Faithful s (Runs.final step s is) := by
  induction is generalizing s with
  | nil => exact refl s
  | cons i is ih => exact (hstep s i).trans (ih _)

end Faithful

namespace Ahead

/-- A silent step keeps the entry due. -/
theorem silent (h : J.Ahead e s s₁) (h' : J.Silent s₁ s₂) : J.Ahead e s s₂ :=
  ⟨h'.log.trans h.log, h'.view.trans h.view⟩

theorem of_silent (h : J.Silent s s₁) (h' : J.Ahead e s₁ s₂) : J.Ahead e s s₂ :=
  ⟨h'.log.trans h.log, by rw [h'.view, h.view]⟩

/-- The entry that was due is written. -/
theorem settled (h : J.Ahead e s s₁) (hlog : J.log s₂ = J.log s₁ ++ [e])
    (hview : J.view s₂ = J.view s₁) : J.Faithful s s₂ :=
  ⟨[e], by rw [hlog, h.log], hview.trans h.view⟩

end Ahead

/-! ## Programs -/

section Programs

variable {exn α β : Type}

theorem silent_pure (a : α) : Prog.Steps J.Silent (pure a : Prog exn σ α) :=
  Prog.Steps.pure Silent.refl a

theorem silent_bind {x : Prog exn σ α} {k : α → Prog exn σ β} (hx : Prog.Steps J.Silent x)
    (hk : ∀ a, Prog.Steps J.Silent (k a)) : Prog.Steps J.Silent (x >>= k) :=
  Prog.Steps.bind (fun h₁ h₂ => h₁.trans h₂) hx hk

theorem silent_tryCatch {x : Prog exn σ α} {h : exn → Prog exn σ α}
    (hx : Prog.Steps J.Silent x) (hh : ∀ e, Prog.Steps J.Silent (h e)) :
    Prog.Steps J.Silent (tryCatch x h) :=
  Prog.Steps.tryCatch (fun h₁ h₂ => h₁.trans h₂) hx hh

theorem faithful_of_silent {x : Prog exn σ α} (hx : Prog.Steps J.Silent x) :
    Prog.Steps J.Faithful x :=
  hx.mono fun _ _ h => h.faithful

theorem faithful_pure (a : α) : Prog.Steps J.Faithful (pure a : Prog exn σ α) :=
  Prog.Steps.pure Faithful.refl a

theorem faithful_bind {x : Prog exn σ α} {k : α → Prog exn σ β} (hx : Prog.Steps J.Faithful x)
    (hk : ∀ a, Prog.Steps J.Faithful (k a)) : Prog.Steps J.Faithful (x >>= k) :=
  Prog.Steps.bind (fun h₁ h₂ => h₁.trans h₂) hx hk

theorem faithful_tryCatch {x : Prog exn σ α} {h : exn → Prog exn σ α}
    (hx : Prog.Steps J.Faithful x) (hh : ∀ e, Prog.Steps J.Faithful (h e)) :
    Prog.Steps J.Faithful (tryCatch x h) :=
  Prog.Steps.tryCatch (fun h₁ h₂ => h₁.trans h₂) hx hh

/-- A program on a part of the state, seen from the whole. -/
theorem faithful_zoom {part : τ → σ} {put : τ → σ → τ} {x : Prog exn σ α}
    (hput : ∀ t s, part (put t s) = s) (hx : Prog.Steps J.Faithful x) :
    Prog.Steps (J.comap part).Faithful (Prog.zoom part put x) := by
  intro t
  obtain ⟨new, hlog, hview⟩ := hx (part t)
  refine ⟨new, ?_, ?_⟩
  · show J.log (part (put t _)) = _
    rw [hput]
    exact hlog
  · show J.view (part (put t _)) = _
    rw [hput]
    exact hview

end Programs

end Journal
end SecureFileTransfer
