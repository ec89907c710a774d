import SecureFileTransfer.Provenance

/-!
# StoreConsistency — the stores agree after every call

A run is any sequence of service calls on an empty server; sessions come from `login` only.  Any
collaborator call of it may throw, except the removal of a blob whose record was not saved.
-/

namespace SecureFileTransfer

open Prog Service Runs

variable {b : Backend} {env : Env} {w w' : World b}

/-! ## Service calls -/

/-- The calls of a run, with their arguments. -/
inductive ServiceCall
  | registerUser (u email pw role : Bytes)
  | login (u pw : Bytes)
  | logout (tok : SessionId)
  | activate (adminToken : SessionId) (tgt : UserId)
  | deactivate (adminToken : SessionId) (tgt : UserId)
  | activateById (admin tgt : UserId)
  | deactivateById (admin tgt : UserId)
  | savePubkey (uid : UserId) (pub : Bytes)
  | upload (a : UploadArgs)
  | download (requestSess : SessionId) (fid : FileId)

inductive ServiceReply
  | user (r : Result UserId)
  | session (r : Result SessionId)
  | flag (ok : Bool)
  | saved
  | transfer (r : Result Transfer)
  | blob (r : Result Bytes)
  deriving DecidableEq

/-- Saving a recipient key: the tests and the registration tool write the directory directly. -/
def Service.saveKey (uid : UserId) (pub : Bytes) : Service b Unit :=
  update fun w => (savePubkey b uid pub w.keys).map fun keys => { w with keys := keys }

def perform (env : Env) : ServiceCall → Service b ServiceReply
  | .registerUser u email pw role => do return .user (← registerUser env u email pw role)
  | .login u pw => do return .session (← login env u pw)
  | .logout tok => do return .flag (← logout env tok)
  | .activate adminToken tgt => do return .user (← activate env adminToken tgt)
  | .deactivate adminToken tgt => do return .user (← deactivate env adminToken tgt)
  | .activateById admin tgt => do return .user (← activateById env admin tgt)
  | .deactivateById admin tgt => do return .user (← deactivateById env admin tgt)
  | .savePubkey uid pub => do saveKey uid pub; return .saved
  | .upload a => do return .transfer (← upload env a)
  | .download requestSess fid => do return .blob (← download env requestSess fid)

/-- One call of a run. -/
def serviceStep (env : Env) (w : World b) (c : ServiceCall) : Except Exn ServiceReply × World b :=
  perform env c w

/-- Saving a key changes the directory of keys and nothing else. -/
theorem wp_saveKey {uid : UserId} {pub : Bytes} {Q : Except Exn Unit → World b → Prop}
    (herror : ∀ e, Q (.error e) w) (hok : ∀ keys, Q (.ok ()) { w with keys := keys }) :
    wp (saveKey uid pub) Q w := by
  rw [saveKey, wp_update]
  refine ⟨fun w' h => ?_, fun e _ => herror e⟩
  cases hsave : savePubkey b uid pub w.keys with
  | error e =>
      rw [hsave] at h
      cases h
  | ok keys =>
      rw [hsave] at h
      cases h
      exact hok keys

theorem saveKey_spec (uid : UserId) (pub : Bytes) :
    wp (saveKey uid pub)
      (fun r w' => Kept w w' ∧ (r = .ok () ∨ w'.toStores = w.toStores)) w := by
  refine wp_saveKey (fun _ => ⟨Kept.refl w, .inr rfl⟩) fun keys => ⟨?_, .inl rfl⟩
  exact ⟨rfl, rfl, le_rfl, fun _ hp => hp, fun _ hp => .inl hp, fun k s hs => .inr ⟨s, hs, rfl⟩⟩

/-- What a call does: it keeps the files, or it is an upload. -/
theorem perform_spec (env : Env) (w : World b) (c : ServiceCall) :
    wp (perform env c) (fun _ w' => Kept w w' ∨
      ∃ a res, c = .upload a ∧ UploadOutcome env a w res w') w := by
  cases c with
  | registerUser u email pw role =>
      exact wp_map (wp_mono (registerUser_spec u email pw role) fun _ _ h => .inl h.kept)
  | login u pw => exact wp_map (wp_mono (login_spec u pw) fun _ _ h => .inl h.kept)
  | logout tok => exact wp_map (wp_mono (logout_spec tok) fun _ _ h => .inl h.kept)
  | activate adminToken tgt =>
      exact wp_map (wp_mono (activate_spec adminToken tgt) fun _ _ h => .inl h.1.kept)
  | deactivate adminToken tgt =>
      exact wp_map (wp_mono (deactivate_spec adminToken tgt) fun _ _ h => .inl h.1.kept)
  | activateById admin tgt =>
      exact wp_map (wp_mono (activateById_spec admin tgt) fun _ _ h => .inl h.kept)
  | deactivateById admin tgt =>
      exact wp_map (wp_mono (deactivateById_spec admin tgt) fun _ _ h => .inl h.kept)
  | savePubkey uid pub => exact wp_map (wp_mono (saveKey_spec uid pub) fun _ _ h => .inl h.1)
  | upload a => exact wp_map (wp_mono (upload_spec a) fun res _ h => .inr ⟨a, res, rfl, h⟩)
  | download requestSess fid =>
      exact wp_map (wp_mono (download_spec requestSess fid) fun _ _ h => .inl h.quiet.kept)

/-! ## Every run -/

/-- The uploads of a run of service calls. -/
def isUpload (t : Transition (World b) ServiceCall (Except Exn ServiceReply)) (a : UploadArgs) :
    Prop :=
  t.input = .upload a

theorem consistent_of_run (env : Env) (hremove : ∀ n, env.fault .removeStaged n = none)
    (calls : List ServiceCall)
    (hfresh : FreshIds env (final (serviceStep env) (World.empty b) calls).ids) :
    Consistent env (final (serviceStep env) (World.empty b) calls) ∧
      Traceable id isUpload (trace (serviceStep env) (World.empty b) calls)
        (final (serviceStep env) (World.empty b) calls) := by
  revert hfresh
  refine trace_induction (P := fun h (w : World b) => FreshIds env w.ids →
    Consistent env w ∧ Traceable id isUpload h w) (fun _ => ⟨consistent_empty env, .nil⟩) ?_ calls
  intro is c ih hfresh
  generalize hw : final (serviceStep env) (World.empty b) is = w at ih hfresh ⊢
  rcases perform_spec env w c with hk | ⟨a, res, rfl, hup⟩
  · obtain ⟨hc, htr⟩ := ih (hfresh.mono hk.ids)
    exact ⟨hc.kept hk, htr.kept (t := .of (serviceStep env) w c) hk⟩
  · obtain ⟨hc, htr⟩ := ih (hfresh.mono hup.ids_le)
    rcases hc.upload hfresh hremove hup with hk | ⟨r, hst⟩
    · exact ⟨hc.kept hk, htr.kept (t := .of (serviceStep env) w (.upload a)) hk⟩
    · exact ⟨hc.stored hst, htr.stored (t := .of (serviceStep env) w (.upload a)) (Quiet.refl w)
        hc.toSound hfresh hst rfl⟩

/-- The stores agree, and every blob is what the upload of its record was given. -/
structure StoresAgree (h : List (Transition (World b) ServiceCall (Except Exn ServiceReply)))
    (w : World b) : Prop where
  blobs : ∀ k, k ∈ w.blobs ↔ ∃ r ∈ b.records w.files, r.storageId = k
  storageIds : ∀ r₁ ∈ b.records w.files, ∀ r₂ ∈ b.records w.files,
    r₁.storageId = r₂.storageId → r₁ = r₂
  uploadIds : ∀ r₁ ∈ b.records w.files, ∀ r₂ ∈ b.records w.files,
    r₁.uploadId = r₂.uploadId → r₁ = r₂
  created : ∀ r ∈ b.records w.files, ∃ t ∈ h, Creates id t r
  content : ∀ t ∈ h, ∀ r, Creates id t r →
    ∃ a, t.input = .upload a ∧ w.blobs.lookup r.storageId = some a.opaqueBytes
  parties : ∀ r ∈ b.records w.files,
    b.users.Present w.users r.owner ∧ b.users.Present w.users r.recipient

theorem stores_agree_of_run (env : Env) (hremove : ∀ n, env.fault .removeStaged n = none)
    (calls : List ServiceCall)
    (hfresh : FreshIds env (final (serviceStep env) (World.empty b) calls).ids) :
    StoresAgree (trace (serviceStep env) (World.empty b) calls)
      (final (serviceStep env) (World.empty b) calls) := by
  obtain ⟨hc, htr⟩ := consistent_of_run env hremove calls hfresh
  exact
    { blobs := hc.blobs
      storageIds := fun r₁ h₁ r₂ h₂ heq => b.fileView.unique_storageId h₁ h₂ heq
      uploadIds := fun r₁ h₁ r₂ h₂ heq => b.fileView.unique_uploadId h₁ h₂ heq
      created := htr.created
      content := fun t ht r hcr => (htr.content t ht r hcr).2
      parties := hc.parties }

/-- Two users, a session and a key. -/
def sampleCalls : List ServiceCall :=
  [ .registerUser (ascii "alice") (ascii "a@x") (ascii "password") (ascii "user"),
    .registerUser (ascii "bob") (ascii "b@x") (ascii "password") (ascii "user"),
    .login (ascii "alice") (ascii "password"),
    .savePubkey (generateUserId (Env.counting.randomId 1)) (List.replicate 32 7) ]

/-- The first session of such a run sends a file to bob. -/
def sampleUpload : UploadArgs where
  senderSess := sessionToken (Env.counting.randomToken 0)
  recipientUsername := ascii "bob"
  origName := ascii "a.pdf"
  opaqueBytes := [1, 2, 3]
  uploadId := ascii "u1"
  size := 3
  digest := zeroDigest
  wrapped := {}

set_option maxRecDepth 100000 in
theorem stores_agree_of_sampleCalls :
    (Backend.sqlite.records (final (serviceStep Env.counting) (World.empty .sqlite)
      (sampleCalls ++ [.upload sampleUpload])).files).length = 1 ∧
    StoresAgree
      (trace (serviceStep Env.counting) (World.empty .sqlite) (sampleCalls ++ [.upload sampleUpload]))
      (final (serviceStep Env.counting) (World.empty .sqlite) (sampleCalls ++ [.upload sampleUpload])) := by
  refine ⟨by decide +kernel, stores_agree_of_run _ (fun _ => rfl) _ ?_⟩
  have hids : (final (serviceStep Env.counting) (World.empty .sqlite)
      (sampleCalls ++ [.upload sampleUpload])).ids = 5 := by
    decide +kernel
  rw [hids]
  unfold FreshIds
  decide +kernel

end SecureFileTransfer
