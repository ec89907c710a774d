import SecureFileTransfer.Provenance
import SecureFileTransfer.ServerSpecs

/-!
# ServerRuns — what holds after every run of the server

The invariants of the stores along the events of a server process, from the first boot on.
-/

namespace SecureFileTransfer

open Prog Service Handler Runs

abbrev ServerTransition := Transition ServerState ServerEvent Output

variable {env : Env} {s s' : ServerState} {ev : ServerEvent} {out : Output}

/-- The state after the events. -/
def serverAfter (env : Env) (evs : List ServerEvent) : ServerState :=
  final (serverStep env) ServerState.initial evs

/-- The transitions on the events. -/
def serverTrace (env : Env) (evs : List ServerEvent) : List ServerTransition :=
  trace (serverStep env) ServerState.initial evs

/-- The transition on the next event. -/
def serverNext (env : Env) (evs : List ServerEvent) (ev : ServerEvent) : ServerTransition :=
  .of (serverStep env) (serverAfter env evs) ev

theorem serverAfter_concat (env : Env) (evs : List ServerEvent) (ev : ServerEvent) :
    serverAfter env (evs ++ [ev]) = (serverNext env evs ev).after :=
  final_concat evs ev

theorem serverTrace_concat (env : Env) (evs : List ServerEvent) (ev : ServerEvent) :
    serverTrace env (evs ++ [ev]) = serverTrace env evs ++ [serverNext env evs ev] :=
  trace_concat evs ev

theorem serverNext_output (env : Env) (evs : List ServerEvent) (ev : ServerEvent) :
    (serverNext env evs ev).output = (serverStep env (serverAfter env evs) ev).1 := rfl

theorem serverNext_served (env : Env) (evs : List ServerEvent) (ev : ServerEvent) :
    Served env (serverAfter env evs) ev (serverNext env evs ev).output (serverNext env evs ev).after :=
  serverStep_served env _ ev

theorem served_of_mem_serverTrace {evs : List ServerEvent} {t : ServerTransition}
    (h : t ∈ serverTrace env evs) : Served env t.before t.input t.output t.after := by
  obtain ⟨s, i, rfl⟩ := exists_of_mem_trace h
  exact serverStep_served env s i

/-- Induction on the events of a server process. -/
theorem server_induction (env : Env) {P : List ServerTransition → ServerState → Prop}
    (hnil : P [] ServerState.initial)
    (hstep : ∀ evs ev, P (serverTrace env evs) (serverAfter env evs) →
      P (serverTrace env evs ++ [serverNext env evs ev]) (serverNext env evs ev).after)
    (evs : List ServerEvent) : P (serverTrace env evs) (serverAfter env evs) :=
  trace_induction hnil hstep evs

/-- The connection that is served. -/
def Phase.conn : Phase → Option Conn
  | .serving c => some c
  | .down | .listening => none

theorem Phase.conn_eq_some {p : Phase} {c : Conn} (h : p.conn = some c) : p = .serving c := by
  cases p with
  | serving c' => exact congrArg Phase.serving (Option.some.inj h)
  | down => cases h
  | listening => cases h

/-! ## What an event does to the stores -/

theorem boot_spec {w : World .sqlite} (u e p : Bytes) :
    wp (boot env u e p) (fun _ w' => Kept w w') w := by
  unfold boot
  rw [wp_bind, wp_modifyGet, wpBind_ok]
  have hcleared : Kept w { w with sessions := MemorySessionStore.empty } :=
    .of_sessions rfl le_rfl fun k s hs => by cases hs
  refine wp_quiet_bind quiet_query (fun _ w₁ h₁ => hcleared.trans h₁.kept) fun users w₁ h₁ => ?_
  have h₀₁ := hcleared.trans h₁.kept
  refine wp_ite (fun _ => ?_) fun _ => h₀₁
  rw [wp_bind]
  refine wp_mono (registerUser_spec u e p (ascii "admin")) ?_
  rintro (ex | r) w₂ h₂
  · exact h₀₁.trans h₂.kept
  · exact h₀₁.trans h₂.kept

/-- A frame keeps the files or makes one upload. -/
theorem Handled.stores {f : Frame} {w : World .sqlite} {c : Conn} {r : Except Exn Unit}
    {hd : Handling} (h : Handled env f w c r hd) :
    (Kept w hd.world ∧ hd.uploads = []) ∨
      ∃ a w₁ res, hd.uploads = [a] ∧ Quiet w w₁ ∧ UploadOutcome env a w₁ res hd.world := by
  cases h with
  | refused quiet _ => exact .inl ⟨quiet.kept, rfl⟩
  | listed => exact .inl ⟨Kept.refl w, rfl⟩
  | registered _ _ run => exact .inl ⟨(of_wp (registerUser_spec _ _ _ _) run).kept, rfl⟩
  | authenticated _ _ run => exact .inl ⟨(of_wp (login_spec _ _) run).kept, rfl⟩
  | loggedOut _ run => exact .inl ⟨(of_wp (logout_spec _) run).kept, rfl⟩
  | logoutThrew _ run => exact .inl ⟨(of_wp (logout_spec _) run).kept, rfl⟩
  | administered _ _ run =>
      refine .inl ⟨?_, rfl⟩
      unfold adminAction at run
      split at run
      · exact (of_wp (activate_spec _ _) run).1.kept
      · exact (of_wp (deactivate_spec _ _) run).1.kept
  | announced _ _ _ _ quiet => exact .inl ⟨quiet.kept, rfl⟩
  | appended _ _ _ _ => exact .inl ⟨Kept.refl w, rfl⟩
  | committed _ _ _ _ _ quiet run => exact .inr ⟨_, _, _, rfl, quiet, of_wp (upload_spec _) run⟩
  | downloaded _ _ run => exact .inl ⟨(of_wp (download_spec _ _) run).quiet.kept, rfl⟩

theorem Served.stores (h : Served env s ev out s') :
    (Kept s.world s'.world ∧ out.uploads = []) ∨
      ∃ a w₁ res, out.uploads = [a] ∧ Quiet s.world w₁ ∧ UploadOutcome env a w₁ res s'.world := by
  cases h with
  | booted run => exact .inl ⟨of_wp (boot_spec _ _ _) run, rfl⟩
  | bootThrew run => exact .inl ⟨of_wp (boot_spec _ _ _) run, rfl⟩
  | accepted _ => exact .inl ⟨Kept.refl _, rfl⟩
  | handled _ handled => exact handled.stores
  | dropped _ handled => exact handled.stores
  | hungup _ => exact .inl ⟨Kept.refl _, rfl⟩
  | keyed _ =>
      exact .inl ⟨⟨rfl, rfl, le_rfl, fun _ hp => hp, fun _ hp => .inl hp,
        fun k s hs => .inr ⟨s, hs, rfl⟩⟩, rfl⟩
  | ignored => exact .inl ⟨Kept.refl _, rfl⟩

theorem Served.ids_le (h : Served env s ev out s') : s.world.ids ≤ s'.world.ids := by
  rcases h.stores with ⟨hk, -⟩ | ⟨a, w₁, res, -, hq, hup⟩
  · exact hk.ids
  · exact hq.ids.ge.trans hup.ids_le

/-! ## Invariants -/

theorem sound_of_serverRun (env : Env) (evs : List ServerEvent) :
    Sound env (serverAfter env evs).world := by
  refine server_induction env (P := fun _ s => Sound env s.world) (sound_empty env) ?_ evs
  intro evs ev hs
  rcases (serverNext_served env evs ev).stores with ⟨hk, -⟩ | ⟨a, w₁, res, -, hq, hup⟩
  · exact hs.kept hk
  · exact (hs.kept hq.kept).upload hup

/-- The uploads of a transition. -/
def uploadedIn (t : ServerTransition) (a : UploadArgs) : Prop := a ∈ t.output.uploads

theorem traceable_of_serverRun (env : Env) (evs : List ServerEvent)
    (hfresh : FreshIds env (serverAfter env evs).world.ids) :
    Traceable ServerState.world uploadedIn (serverTrace env evs) (serverAfter env evs).world := by
  revert hfresh
  refine server_induction env (P := fun h s => FreshIds env s.world.ids →
    Traceable ServerState.world uploadedIn h s.world) (fun _ => .nil) ?_ evs
  intro evs ev ih hfresh
  have hserved := serverNext_served env evs ev
  have htr := ih (hfresh.mono hserved.ids_le)
  rcases hserved.stores with ⟨hk, -⟩ | ⟨a, w₁, res, hout, hq, hup⟩
  · exact htr.kept (t := serverNext env evs ev) hk
  · have hs₁ : Sound env w₁ := (sound_of_serverRun env evs).kept hq.kept
    rcases hs₁.upload_cases hfresh hup with hk | ⟨r, hst⟩ | horph
    · exact htr.kept (t := serverNext env evs ev) (hq.kept.trans hk)
    · exact htr.stored (t := serverNext env evs ev) hq hs₁ hfresh hst
        (by rw [uploadedIn, hout]; exact List.mem_singleton.2 rfl)
    · exact htr.orphaned (t := serverNext env evs ev) hq hs₁ hfresh horph

end SecureFileTransfer
