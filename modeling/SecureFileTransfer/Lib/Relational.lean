import SecureFileTransfer.Lib.Program
import SecureFileTransfer.Lib.Runs

/-!
# Relational — two programs side by side

`Coupled S x y Post Err` — started in states related by `S`, the programs `x` and `y` either both
return, and then values and states are related by `Post`, or both throw, and then exceptions and
states are related by `Err`.  The two may work on different types of states.

`Lockstep S E V x y` is the case of a relation of the states that both keep.  Two machines whose
steps on related inputs are so related stay related over whole runs, and so do two machines of
which one takes as a step what is a run of the other.
-/

namespace SecureFileTransfer
namespace Prog

variable {ε ε' σ σ' τ τ' α α' β β' : Type}

/-- Both programs return, or both throw. -/
def Both (Post : α → α' → σ → σ' → Prop) (Err : ε → ε' → σ → σ' → Prop) :
    Except ε α → Except ε' α' → σ → σ' → Prop
  | .ok a, .ok a', s, s' => Post a a' s s'
  | .error e, .error e', s, s' => Err e e' s s'
  | _, _, _, _ => False

/-- Two outcomes that match, whatever the states are. -/
def Alike (E : ε → ε' → Prop) (V : α → α' → Prop) : Except ε α → Except ε' α' → Prop
  | .ok a, .ok a' => V a a'
  | .error e, .error e' => E e e'
  | _, _ => False

theorem Alike.map {E : ε → ε' → Prop} {V : α → α' → Prop} {W : β → β' → Prop} {f : α → β}
    {g : α' → β'} {r : Except ε α} {r' : Except ε' α'} (h : Alike E V r r')
    (hf : ∀ a a', V a a' → W (f a) (g a')) : Alike E W (r.map f) (r'.map g) := by
  rcases r with e | a
  · rcases r' with e' | a'
    · exact h
    · exact h
  · rcases r' with e' | a'
    · exact h
    · exact hf a a' h

def Coupled (S : σ → σ' → Prop) (x : Prog ε σ α) (y : Prog ε' σ' α')
    (Post : α → α' → σ → σ' → Prop) (Err : ε → ε' → σ → σ' → Prop) : Prop :=
  ∀ s s', S s s' → Both Post Err (x s).1 (y s').1 (x s).2 (y s').2

def Lockstep (S : σ → σ' → Prop) (E : ε → ε' → Prop) (V : α → α' → Prop) (x : Prog ε σ α)
    (y : Prog ε' σ' α') : Prop :=
  Coupled S x y (fun a a' s s' => V a a' ∧ S s s') (fun e e' s s' => E e e' ∧ S s s')

theorem Both.mono {Post Post' : α → α' → σ → σ' → Prop} {Err Err' : ε → ε' → σ → σ' → Prop}
    (hpost : ∀ a a' s s', Post a a' s s' → Post' a a' s s')
    (herr : ∀ e e' s s', Err e e' s s' → Err' e e' s s') {r : Except ε α} {r' : Except ε' α'}
    {s : σ} {s' : σ'} (h : Both Post Err r r' s s') : Both Post' Err' r r' s s' := by
  rcases r with e | a
  · rcases r' with e' | a'
    · exact herr _ _ _ _ h
    · exact h
  · rcases r' with e' | a'
    · exact h
    · exact hpost _ _ _ _ h

theorem both_iff {E : ε → ε' → Prop} {V : α → α' → Prop} {S : σ → σ' → Prop} {r : Except ε α}
    {r' : Except ε' α'} {s : σ} {s' : σ'} :
    Both (fun a a' s s' => V a a' ∧ S s s') (fun e e' s s' => E e e' ∧ S s s') r r' s s' ↔
      Alike E V r r' ∧ S s s' := by
  rcases r with e | a
  · rcases r' with e' | a'
    · exact Iff.rfl
    · exact (and_iff_left_of_imp False.elim).symm
  · rcases r' with e' | a'
    · exact (and_iff_left_of_imp False.elim).symm
    · exact Iff.rfl

/-! ## Coupled programs -/

namespace Coupled

variable {S : σ → σ' → Prop} {x : Prog ε σ α} {y : Prog ε' σ' α'}
  {Post : α → α' → σ → σ' → Prop} {Err : ε → ε' → σ → σ' → Prop}

theorem mono {S' : σ → σ' → Prop} {Post' : α → α' → σ → σ' → Prop}
    {Err' : ε → ε' → σ → σ' → Prop} (h : Coupled S x y Post Err)
    (hpre : ∀ s s', S' s s' → S s s') (hpost : ∀ a a' s s', Post a a' s s' → Post' a a' s s')
    (herr : ∀ e e' s s', Err e e' s s' → Err' e e' s s') : Coupled S' x y Post' Err' :=
  fun s s' hs => (h s s' (hpre s s' hs)).mono hpost herr

theorem pure {a : α} {a' : α'} (h : ∀ s s', S s s' → Post a a' s s') :
    Coupled S (Pure.pure a : Prog ε σ α) (Pure.pure a' : Prog ε' σ' α') Post Err := h

theorem throw {e : ε} {e' : ε'} (h : ∀ s s', S s s' → Err e e' s s') :
    Coupled S (MonadExcept.throw e : Prog ε σ α) (MonadExcept.throw e' : Prog ε' σ' α') Post Err :=
  h

theorem outcome {r : Except ε α} {r' : Except ε' α'} (h : ∀ s s', S s s' → Both Post Err r r' s s') :
    Coupled S (Prog.outcome r : Prog ε σ α) (Prog.outcome r' : Prog ε' σ' α') Post Err := h

theorem ask {f : σ → Except ε α} {g : σ' → Except ε' α'}
    (h : ∀ s s', S s s' → Both Post Err (f s) (g s') s s') :
    Coupled S (Prog.ask f) (Prog.ask g) Post Err := h

theorem modifyGet {f : σ → α × σ} {g : σ' → α' × σ'}
    (h : ∀ s s', S s s' → Post (f s).1 (g s').1 (f s).2 (g s').2) :
    Coupled S (Prog.modifyGet f : Prog ε σ α) (Prog.modifyGet g : Prog ε' σ' α') Post Err := h

/-- One program after the other: what the first two leave is where the second two start. -/
theorem bind {Mid : α → α' → σ → σ' → Prop} {f : α → Prog ε σ β} {g : α' → Prog ε' σ' β'}
    {Post : β → β' → σ → σ' → Prop} (hx : Coupled S x y Mid Err)
    (hf : ∀ a a', Coupled (Mid a a') (f a) (g a') Post Err) :
    Coupled S (x >>= f) (y >>= g) Post Err := by
  intro s s' hs
  have hmid := hx s s' hs
  simp only [Bind.bind]
  rcases hrun : x s with ⟨e | a, t⟩
  · rcases hrun' : y s' with ⟨e' | a', t'⟩
    · rw [hrun, hrun'] at hmid
      exact hmid
    · rw [hrun, hrun'] at hmid
      exact hmid.elim
  · rcases hrun' : y s' with ⟨e' | a', t'⟩
    · rw [hrun, hrun'] at hmid
      exact hmid.elim
    · rw [hrun, hrun'] at hmid
      exact hf a a' t t' hmid

theorem tryCatch {Mid : ε → ε' → σ → σ' → Prop} {h : ε → Prog ε σ α} {h' : ε' → Prog ε' σ' α'}
    (hx : Coupled S x y Post Mid) (hh : ∀ e e', Coupled (Mid e e') (h e) (h' e') Post Err) :
    Coupled S (MonadExcept.tryCatch x h) (MonadExcept.tryCatch y h') Post Err := by
  intro s s' hs
  have hmid := hx s s' hs
  simp only [MonadExcept.tryCatch, tryCatchThe, MonadExceptOf.tryCatch]
  rcases hrun : x s with ⟨e | a, t⟩
  · rcases hrun' : y s' with ⟨e' | a', t'⟩
    · rw [hrun, hrun'] at hmid
      exact hh e e' t t' hmid
    · rw [hrun, hrun'] at hmid
      exact hmid.elim
  · rcases hrun' : y s' with ⟨e' | a', t'⟩
    · rw [hrun, hrun'] at hmid
      exact hmid.elim
    · rw [hrun, hrun'] at hmid
      exact hmid

theorem ite {c c' : Prop} [Decidable c] [Decidable c'] {x₁ : Prog ε σ α} {y₁ : Prog ε' σ' α'}
    (hc : c ↔ c') (ht : c → Coupled S x y Post Err) (hf : ¬ c → Coupled S x₁ y₁ Post Err) :
    Coupled S (if c then x else x₁) (if c' then y else y₁) Post Err := by
  by_cases h : c
  · rw [if_pos h, if_pos (hc.1 h)]
    exact ht h
  · rw [if_neg h, if_neg fun h' => h (hc.2 h')]
    exact hf h

/-- Programs on a part of the state, where the rest stays as it is. -/
theorem zoom {T : τ → τ' → Prop} {part : τ → σ} {put : τ → σ → τ} {part' : τ' → σ'}
    {put' : τ' → σ' → τ'} {Post : α → α' → τ → τ' → Prop} {Err : ε → ε' → τ → τ' → Prop}
    (h : ∀ t t', T t t' → Both (fun a a' s s' => Post a a' (put t s) (put' t' s'))
      (fun e e' s s' => Err e e' (put t s) (put' t' s'))
      (x (part t)).1 (y (part' t')).1 (x (part t)).2 (y (part' t')).2) :
    Coupled T (Prog.zoom part put x) (Prog.zoom part' put' y) Post Err := by
  intro t t' ht
  have hpart := h t t' ht
  unfold Prog.zoom
  revert hpart
  rcases x (part t) with ⟨e | a, s⟩
  · rcases y (part' t') with ⟨e' | a', s'⟩
    · exact id
    · exact id
  · rcases y (part' t') with ⟨e' | a', s'⟩
    · exact id
    · exact id

end Coupled

/-! ## Programs in lockstep -/

namespace Lockstep

variable {S : σ → σ' → Prop} {E : ε → ε' → Prop} {V : α → α' → Prop} {W : β → β' → Prop}
  {x : Prog ε σ α} {y : Prog ε' σ' α'}

theorem pure {a : α} {a' : α'} (h : V a a') :
    Lockstep S E V (Pure.pure a) (Pure.pure a') := Coupled.pure fun _ _ hs => ⟨h, hs⟩

theorem throw {e : ε} {e' : ε'} (h : E e e') :
    Lockstep S E V (MonadExcept.throw e) (MonadExcept.throw e') :=
  Coupled.throw fun _ _ hs => ⟨h, hs⟩

theorem outcome {r : Except ε α} {r' : Except ε' α'} (h : Alike E V r r') :
    Lockstep S E V (Prog.outcome r) (Prog.outcome r') :=
  Coupled.outcome fun _ _ hs => both_iff.2 ⟨h, hs⟩

theorem ask {f : σ → Except ε α} {g : σ' → Except ε' α'}
    (h : ∀ s s', S s s' → Alike E V (f s) (g s')) : Lockstep S E V (Prog.ask f) (Prog.ask g) :=
  Coupled.ask fun s s' hs => both_iff.2 ⟨h s s' hs, hs⟩

theorem modifyGet {f : σ → α × σ} {g : σ' → α' × σ'}
    (h : ∀ s s', S s s' → V (f s).1 (g s').1 ∧ S (f s).2 (g s').2) :
    Lockstep S E V (Prog.modifyGet f : Prog ε σ α) (Prog.modifyGet g : Prog ε' σ' α') := h

/-- Two updates that succeed together, with related states, or fail together. -/
theorem update {f : σ → Except ε σ} {g : σ' → Except ε' σ'}
    (h : ∀ s s', S s s' → Alike E S (f s) (g s')) :
    Lockstep S E (· = ·) (Prog.update f) (Prog.update g) := by
  intro s s' hs
  have hsame := h s s' hs
  unfold Prog.update
  rcases hf : f s with e | t
  · rcases hg : g s' with e' | t'
    · rw [hf, hg] at hsame
      exact ⟨hsame, hs⟩
    · rw [hf, hg] at hsame
      exact hsame.elim
  · rcases hg : g s' with e' | t'
    · rw [hf, hg] at hsame
      exact hsame.elim
    · rw [hf, hg] at hsame
      exact ⟨rfl, hsame⟩

theorem bind {f : α → Prog ε σ β} {g : α' → Prog ε' σ' β'} (hx : Lockstep S E V x y)
    (hf : ∀ a a', V a a' → Lockstep S E W (f a) (g a')) : Lockstep S E W (x >>= f) (y >>= g) :=
  Coupled.bind hx fun a a' s s' h => hf a a' h.1 s s' h.2

theorem tryCatch {h : ε → Prog ε σ α} {h' : ε' → Prog ε' σ' α'} (hx : Lockstep S E V x y)
    (hh : ∀ e e', E e e' → Lockstep S E V (h e) (h' e')) :
    Lockstep S E V (MonadExcept.tryCatch x h) (MonadExcept.tryCatch y h') :=
  Coupled.tryCatch hx fun e e' s s' hmid => hh e e' hmid.1 s s' hmid.2

theorem ite {c c' : Prop} [Decidable c] [Decidable c'] {x₁ : Prog ε σ α} {y₁ : Prog ε' σ' α'}
    (hc : c ↔ c') (ht : c → Lockstep S E V x y) (hf : ¬ c → Lockstep S E V x₁ y₁) :
    Lockstep S E V (if c then x else x₁) (if c' then y else y₁) :=
  Coupled.ite hc ht hf

theorem mono {V' : α → α' → Prop} (h : Lockstep S E V x y) (hV : ∀ a a', V a a' → V' a a') :
    Lockstep S E V' x y :=
  Coupled.mono h (fun _ _ => id) (fun a a' _ _ hp => ⟨hV a a' hp.1, hp.2⟩) fun _ _ _ _ => id

/-- A value that is only renamed. -/
theorem map {f : α → β} {g : α' → β'} (hx : Lockstep S E V x y)
    (hf : ∀ a a', V a a' → W (f a) (g a')) :
    Lockstep S E W (x >>= fun a => Pure.pure (f a)) (y >>= fun a' => Pure.pure (g a')) :=
  hx.bind fun a a' h => .pure (hf a a' h)

/-- A relation between the states that only the first part of the run needs. -/
theorem forget {S' : σ → σ' → Prop} (h : Lockstep S' E V x y) (hS : ∀ s s', S' s s' → S s s') :
    Coupled S' x y (fun a a' s s' => V a a' ∧ S s s') fun e e' s s' => E e e' ∧ S s s' :=
  Coupled.mono h (fun _ _ => id) (fun _ _ s s' hp => ⟨hp.1, hS s s' hp.2⟩)
    fun _ _ s s' hp => ⟨hp.1, hS s s' hp.2⟩

/-- What two runs in lockstep end with. -/
theorem run (h : Lockstep S E V x y) {s : σ} {s' : σ'} (hs : S s s') :
    Alike E V (x s).1 (y s').1 ∧ S (x s).2 (y s').2 :=
  both_iff.1 (h s s' hs)

end Lockstep

end Prog

namespace Runs

variable {σ σ' ι ι' ο ο' : Type} {step : σ → ι → ο × σ} {step' : σ' → ι' → ο' × σ'}
  {Rel : σ → σ' → Prop} {In : ι → ι' → Prop} {Out : ο → ο' → Prop}

/-- Related inputs, one after the other, give related outputs and related states. -/
theorem outputs_of_related
    (hstep : ∀ s s' i i', Rel s s' → In i i' →
      Out (step s i).1 (step' s' i').1 ∧ Rel (step s i).2 (step' s' i').2)
    {is : List ι} {is' : List ι'} (h : List.Forall₂ In is is') {s : σ} {s' : σ'} (hrel : Rel s s') :
    List.Forall₂ Out (outputs step s is) (outputs step' s' is') ∧
      Rel (final step s is) (final step' s' is') := by
  induction h generalizing s s' with
  | nil => exact ⟨.nil, hrel⟩
  | cons hin _ ih =>
      obtain ⟨hout, hnext⟩ := hstep s s' _ _ hrel hin
      obtain ⟨houts, hfinal⟩ := ih hnext
      exact ⟨.cons hout houts, hfinal⟩

/-! ## Steps that are runs -/

theorem run_cons {s s₁ : σ} {i : ι} {o : ο} (h : step s i = (o, s₁)) (is : List ι) :
    final step s (i :: is) = final step s₁ is ∧
      outputs step s (i :: is) = o :: outputs step s₁ is := by
  obtain ⟨rfl, rfl⟩ := Prod.mk.inj h
  exact ⟨rfl, rfl⟩

theorem final_append (is js : List ι) (s : σ) :
    final step s (is ++ js) = final step (final step s is) js := by
  induction is generalizing s with
  | nil => rfl
  | cons i is ih => exact ih _

theorem trace_append (is js : List ι) (s : σ) :
    trace step s (is ++ js) = trace step s is ++ trace step (final step s is) js := by
  induction is generalizing s with
  | nil => rfl
  | cons i is ih => exact congrArg (List.cons _) (ih _)

theorem outputs_append (is js : List ι) (s : σ) :
    outputs step s (is ++ js) = outputs step s is ++ outputs step (final step s is) js := by
  rw [outputs, trace_append, List.map_append]
  rfl

/-- A step of the one machine is a run of the other: it ends in the state that is meant, and what
can be viewed of the outputs is the same. -/
structure Expands {ω : Type} (step : σ → ι → ο × σ) (step' : σ' → ι' → ο' × σ') (meant : σ → σ')
    (expand : ι → List ι') (view : ο → List ω) (view' : ο' → List ω) (s : σ) (i : ι) : Prop where
  after : final step' (meant s) (expand i) = meant (step s i).2
  viewed : (outputs step' (meant s) (expand i)).flatMap view' = view (step s i).1

/-- A machine whose steps are runs of another one runs as that one does. -/
theorem run_of_expands {ω : Type} {meant : σ → σ'} {expand : ι → List ι'} {view : ο → List ω}
    {view' : ο' → List ω} {is : List ι}
    (h : ∀ s, ∀ i ∈ is, Expands step step' meant expand view view' s i) (s : σ) :
    final step' (meant s) (is.flatMap expand) = meant (final step s is) ∧
      (outputs step' (meant s) (is.flatMap expand)).flatMap view' =
        (outputs step s is).flatMap view := by
  induction is generalizing s with
  | nil => exact ⟨rfl, rfl⟩
  | cons i is ih =>
      have hnow := h s i List.mem_cons_self
      obtain ⟨hfinal, hviewed⟩ := ih (fun s j hj => h s j (List.mem_cons_of_mem _ hj)) (step s i).2
      refine ⟨?_, ?_⟩
      · rw [List.flatMap_cons, final_append, hnow.after]
        exact hfinal
      · rw [List.flatMap_cons, outputs_append, List.flatMap_append, hnow.after, hnow.viewed,
          hviewed]
        rfl

end Runs
end SecureFileTransfer
