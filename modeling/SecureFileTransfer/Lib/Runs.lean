import Mathlib.Data.List.Infix
import Mathlib.Data.List.Induction

/-!
# Runs — the transitions a machine goes through

A machine is a step function that takes an input and gives an output and the next state.  The
trace of a run is the list of its transitions, oldest first, and serves as the history in
statements that relate a step to what happened before it.
-/

namespace SecureFileTransfer
namespace Runs

variable {σ ι ο : Type}

structure Transition (σ ι ο : Type) where
  before : σ
  input : ι
  output : ο
  after : σ

/-- The transition the machine takes on an input. -/
def Transition.of (step : σ → ι → ο × σ) (s : σ) (i : ι) : Transition σ ι ο where
  before := s
  input := i
  output := (step s i).1
  after := (step s i).2

variable (step : σ → ι → ο × σ)

/-- The state after the inputs. -/
def final : σ → List ι → σ
  | s, [] => s
  | s, i :: is => final (step s i).2 is

/-- The transitions on the inputs. -/
def trace : σ → List ι → List (Transition σ ι ο)
  | _, [] => []
  | s, i :: is => .of step s i :: trace (step s i).2 is

variable {step} {s : σ}

@[simp] theorem final_concat (is : List ι) (i : ι) :
    final step s (is ++ [i]) = (step (final step s is) i).2 := by
  induction is generalizing s with
  | nil => rfl
  | cons j is ih => exact ih

@[simp] theorem trace_concat (is : List ι) (i : ι) :
    trace step s (is ++ [i]) = trace step s is ++ [.of step (final step s is) i] := by
  induction is generalizing s with
  | nil => rfl
  | cons j is ih =>
      simp only [List.cons_append, trace, ih]
      rfl

/-- The transitions of a run are those of the machine. -/
theorem exists_of_mem_trace {is : List ι} {t : Transition σ ι ο} (h : t ∈ trace step s is) :
    ∃ s' i, t = .of step s' i := by
  induction is generalizing s with
  | nil => cases h
  | cons i is ih =>
      rcases List.mem_cons.1 h with rfl | h
      · exact ⟨s, i, rfl⟩
      · exact ih h

/-- The transitions of a run are taken on its inputs. -/
theorem input_mem_of_mem_trace {is : List ι} {t : Transition σ ι ο} (h : t ∈ trace step s is) :
    t.input ∈ is := by
  induction is generalizing s with
  | nil => cases h
  | cons i is ih =>
      rcases List.mem_cons.1 h with rfl | h
      · exact List.mem_cons_self
      · exact List.mem_cons_of_mem _ (ih h)

/-- What holds at the start and survives every step holds after every run, together with the
history of that run. -/
theorem trace_induction {P : List (Transition σ ι ο) → σ → Prop} (hnil : P [] s)
    (hstep : ∀ is i, P (trace step s is) (final step s is) →
      P (trace step s is ++ [.of step (final step s is) i]) (step (final step s is) i).2)
    (is : List ι) : P (trace step s is) (final step s is) := by
  induction is using List.reverseRecOn with
  | nil => exact hnil
  | append_singleton is i ih =>
      rw [trace_concat, final_concat]
      exact hstep is i ih

/-- Every transition of the history satisfies `C` at the history before it. -/
def Throughout (C : List (Transition σ ι ο) → Transition σ ι ο → Prop)
    (h : List (Transition σ ι ο)) : Prop :=
  ∀ pre t post, h = pre ++ t :: post → C pre t

theorem throughout_nil {C : List (Transition σ ι ο) → Transition σ ι ο → Prop} :
    Throughout C [] := by
  intro pre t post heq
  simp at heq

theorem throughout_of_forall {C : List (Transition σ ι ο) → Transition σ ι ο → Prop}
    {h : List (Transition σ ι ο)} (hall : ∀ t ∈ h, ∀ pre, C pre t) : Throughout C h := by
  rintro pre t post rfl
  exact hall t (by simp) pre

theorem throughout_concat {C : List (Transition σ ι ο) → Transition σ ι ο → Prop}
    {h : List (Transition σ ι ο)} {t : Transition σ ι ο} :
    Throughout C (h ++ [t]) ↔ Throughout C h ∧ C h t := by
  constructor
  · intro hall
    exact ⟨fun pre u post heq => hall pre u (post ++ [t]) (by simp [heq]), hall h t [] rfl⟩
  · rintro ⟨hall, ht⟩ pre u post heq
    rcases List.eq_nil_or_concat post with rfl | ⟨post', last, rfl⟩
    · obtain ⟨rfl, hlast⟩ := List.append_inj' heq rfl
      cases hlast
      exact ht
    · have heq' : h ++ [t] = (pre ++ u :: post') ++ [last] := by simpa using heq
      exact hall pre u post' (List.append_inj' heq' rfl).1

/-! ## Two machines on the same inputs -/

section Simulation

variable {σ' : Type} {step' : σ' → ι → ο × σ'} {Rel : σ → σ' → Prop} {Same : ο → ο → Prop}
  {Regular : σ → ι → Prop}

/-- The outputs on the inputs. -/
def outputs (step : σ → ι → ο × σ) (s : σ) (is : List ι) : List ο :=
  (trace step s is).map Transition.output

/-- Two machines whose steps on regular inputs give the same output and stay related give the same
outputs on every run of regular inputs. -/
theorem outputs_of_simulation
    (hstep : ∀ s s' i, Rel s s' → Regular s i →
      Same (step s i).1 (step' s' i).1 ∧ Rel (step s i).2 (step' s' i).2)
    (is : List ι) {s : σ} {s' : σ'} (hrel : Rel s s')
    (hregular : ∀ t ∈ trace step s is, Regular t.before t.input) :
    List.Forall₂ Same (outputs step s is) (outputs step' s' is) := by
  induction is generalizing s s' with
  | nil => exact .nil
  | cons i is ih =>
      obtain ⟨hsame, hnext⟩ := hstep s s' i hrel (hregular (.of step s i) List.mem_cons_self)
      refine .cons hsame (ih hnext fun t ht => hregular t (List.mem_cons_of_mem _ ht))

end Simulation

end Runs
end SecureFileTransfer
