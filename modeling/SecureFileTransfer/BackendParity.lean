import SecureFileTransfer.FileParity
import SecureFileTransfer.Interchange
import SecureFileTransfer.UserParity

/-!
# BackendParity — the services over the two sets of repositories

The tests run the services over the repositories in memory, the server over those in SQLite.  The
two are interchangeable for texts without zero bytes: whole runs of service calls give the same
replies and the same audit entries, and leave the same sessions, blobs, keys and transfers.
-/

namespace SecureFileTransfer

open Prog Runs Service StdString

/-! ## Users -/

/-- Both repositories hold the same accounts, the known ones among them. -/
def SameAccounts (known : List UserId) (m : MemoryUserRepository) (t : SqliteUserRepository) : Prop :=
  ∃ as, MemoryHolds m as ∧ SqliteHolds t as ∧ ∀ id ∈ known, ∃ a ∈ as, a.user.id = id

theorem Account.mem_rewriteAt {id : UserId} {g : Account → Account} {as : List Account} {a : Account}
    (hg : ∀ a, a.user.id = id → (g a).user.id = id) (ha : a ∈ as) :
    ∃ a' ∈ rewriteAt id g as, a'.user.id = a.user.id := by
  refine ⟨_, List.mem_map_of_mem ha, ?_⟩
  split
  · rename_i hid
    rw [hg a hid, hid]
  · rfl

/-- No operation removes an account. -/
theorem Account.mem_step {as : List Account} {a : Account} (op : UserOp) (ha : a ∈ as) :
    ∃ a' ∈ (step as op).2, a'.user.id = a.user.id := by
  have honKnown : ∀ {id : UserId} {g : Account → Account},
      (∀ a, a.user.id = id → (g a).user.id = id) →
      ∃ a' ∈ (onKnown id g as).2, a'.user.id = a.user.id := by
    intro id g hg
    unfold onKnown
    split
    · exact mem_rewriteAt hg ha
    · exact ⟨a, ha, rfl⟩
  cases op with
  | save u encodedHash =>
      simp only [step]
      split
      · exact ⟨a, ha, rfl⟩
      · exact ⟨a, List.mem_append_left _ ha, rfl⟩
  | update u =>
      simp only [step]
      split
      · exact ⟨a, ha, rfl⟩
      · split
        · exact ⟨a, ha, rfl⟩
        · exact mem_rewriteAt (fun _ _ => rfl) ha
  | updateHash id encodedHash => exact honKnown fun _ hid => hid
  | recordLoginFailure id now => exact honKnown fun _ hid => hid
  | recordLoginFailureUntil id f until' => exact honKnown fun _ hid => hid
  | resetLoginFailures id => exact honKnown fun _ hid => hid
  | findByUsername n => exact ⟨a, ha, rfl⟩
  | findByEmail e => exact ⟨a, ha, rfl⟩
  | findById id => exact ⟨a, ha, rfl⟩
  | getEncodedHash id =>
      simp only [step]
      split
      · exact ⟨a, ha, rfl⟩
      · exact ⟨a, ha, rfl⟩
  | listAll => exact ⟨a, ha, rfl⟩

namespace SameAccounts

variable {known : List UserId} {m : MemoryUserRepository} {t : SqliteUserRepository}

theorem step (h : SameAccounts known m t) {op : UserOp} (hzero : op.ZeroFree) (hknown : op.Known m) :
    (memoryUserRepository.step m op).1.Same (sqliteUserRepository.step t op).1 ∧
      SameAccounts known (memoryUserRepository.step m op).2 (sqliteUserRepository.step t op).2 := by
  obtain ⟨as, hm, ht, hall⟩ := h
  obtain ⟨hsame, hm'⟩ := memory_step hm op
  obtain ⟨hsame', ht'⟩ := sqlite_step hm ht hzero hknown
  refine ⟨hsame.trans hsame'.symm, _, hm', ht', fun id hid => ?_⟩
  obtain ⟨a, ha, rfl⟩ := hall id hid
  exact Account.mem_step op ha

theorem forget {id : UserId} (h : SameAccounts (id :: known) m t) : SameAccounts known m t := by
  obtain ⟨as, hm, ht, hall⟩ := h
  exact ⟨as, hm, ht, fun id hid => hall id (List.mem_cons_of_mem _ hid)⟩

/-- A write succeeds on both sides or fails on both, with exceptions of one class. -/
theorem write (h : SameAccounts known m t) {op : UserOp} (hzero : op.ZeroFree) (hknown : op.Known m)
    {r : Except Exn MemoryUserRepository} {r' : Except Exn SqliteUserRepository}
    (hr : memoryUserRepository.step m op = UserReply.ofWrite m r)
    (hr' : sqliteUserRepository.step t op = UserReply.ofWrite t r') :
    Alike (fun e e' : Exn => e.cls = e'.cls) (SameAccounts known) r r' := by
  have hstep := h.step hzero hknown
  rw [hr, hr'] at hstep
  obtain ⟨hsame, hnext⟩ := hstep
  cases r with
  | error e =>
      cases r' with
      | error e' =>
          have hcls : ∀ {c c'}, UserReply.Same (.threw c) (.threw c') → c = c' := by
            intro c c' hthrew
            cases hthrew with
            | refl => rfl
          exact hcls hsame
      | ok t' => cases hsame
  | ok m' =>
      cases r' with
      | error e' => cases hsame
      | ok t' => exact hnext

/-- A known user is found. -/
theorem findById_known (h : SameAccounts known m t) {id : UserId} (hid : id ∈ known) :
    ∃ u, m.findById id = .ok (some u) := by
  obtain ⟨as, hm, -, hall⟩ := h
  obtain ⟨a, ha, hida⟩ := hall id hid
  cases hfind : as.find? fun a => a.user.id = id with
  | none =>
      have hne := List.find?_eq_none.1 hfind a ha
      rw [hida] at hne
      simp at hne
  | some a' => exact ⟨a'.user, congrArg Except.ok (by rw [hm.lookup_id, hfind]; rfl)⟩

/-- A query on a column finds the same user on both sides. -/
theorem find (h : SameAccounts known m t) {o : Except Exn (Option User)}
    {o' : Except Exn (Option User)} {p : Account → Bool}
    (hm : ∀ as, MemoryHolds m as → o = .ok ((as.find? p).map Account.user))
    (ht : ∀ as, SqliteHolds t as → o' = .ok ((as.find? p).map Account.user)) :
    ∃ u, o = .ok u ∧ o' = .ok u ∧
      ∀ v, u = some v → v.ZeroFree ∧ SameAccounts (v.id :: known) m t := by
  obtain ⟨as, hmem, hsql, hall⟩ := h
  refine ⟨_, hm as hmem, ht as hsql, fun v hv => ?_⟩
  obtain ⟨a, hfind, rfl⟩ := Option.map_eq_some_iff.1 hv
  have ha := List.mem_of_find?_eq_some hfind
  refine ⟨(hsql.zeroFree a ha).1, as, hmem, hsql, fun id hid => ?_⟩
  rcases List.mem_cons.1 hid with rfl | hid
  · exact ⟨a, ha, rfl⟩
  · exact hall id hid

theorem findByUsername (h : SameAccounts known m t) {n : Bytes} (hn : (0 : UInt8) ∉ n) :
    ∃ u, m.findByUsername n = .ok u ∧ t.findByUsername n = .ok u ∧
      ∀ v, u = some v → v.ZeroFree ∧ SameAccounts (v.id :: known) m t :=
  h.find (fun _ hm => hm.findByIndex hm.names n) fun _ ht =>
    ht.findByColumn UserRow.username (fun a => a.user.username) (fun _ => rfl)
      (fun _ ha => ha.1.2.1) hn

theorem findByEmail (h : SameAccounts known m t) {e : Bytes} (he : (0 : UInt8) ∉ e) :
    ∃ u, m.findByEmail e = .ok u ∧ t.findByEmail e = .ok u ∧
      ∀ v, u = some v → v.ZeroFree ∧ SameAccounts (v.id :: known) m t :=
  h.find (fun _ hm => hm.findByIndex hm.mails e) fun _ ht =>
    ht.findByColumn UserRow.email (fun a => a.user.email) (fun _ => rfl)
      (fun _ ha => ha.1.2.2.1) he

theorem findById (h : SameAccounts known m t) {id : UserId} (hid : (0 : UInt8) ∉ id.value) :
    ∃ u, m.findById id = .ok u ∧ t.findById id = .ok u ∧
      ∀ v, u = some v → v.ZeroFree ∧ SameAccounts (v.id :: known) m t :=
  h.find (fun _ hm => congrArg Except.ok (hm.lookup_id id)) fun _ ht => ht.findById hid

/-- The hash of an account, or the same exception but for its text. -/
theorem getEncodedHash (h : SameAccounts known m t) {id : UserId} (hid : (0 : UInt8) ∉ id.value) :
    Alike (fun e e' : Exn => e.cls = e'.cls) (· = ·) (m.getEncodedHash id) (t.getEncodedHash id) := by
  obtain ⟨as, hm, ht, -⟩ := h
  simp only [MemoryUserRepository.getEncodedHash, SqliteUserRepository.getEncodedHash,
    hm.hashes.lookup_eq, ht.find?_id hid, UserId.value_eq_iff]
  cases hfind : as.find? fun a => a.user.id = id with
  | none => rfl
  | some a =>
      exact (cstr_of_not_mem (ht.zeroFree a (List.mem_of_find?_eq_some hfind)).2).symm

theorem listAll (h : SameAccounts known m t) :
    ∃ us us', m.listAll = .ok us ∧ t.listAll = .ok us' ∧ us.Perm us' := by
  obtain ⟨as, hm, ht, -⟩ := h
  refine ⟨_, as.map Account.user, rfl, ?_, hm.users.values_perm hm.unique_id_value⟩
  rw [SqliteUserRepository.listAll, ht.rows]
  exact Account.mapM_toUser_row ht.zeroFree

end SameAccounts

/-! ## Files -/

namespace FileRecord

/-- What the table keeps of a record: it does not say for whom the key was wrapped. -/
def stored (r : FileRecord) : FileRecord :=
  { r with wrapped := { r.wrapped with recipientId := r.recipient, alg := defaultAlg } }

theorem clashes_stored {r x : FileRecord} : r.stored.Clashes x.stored ↔ r.Clashes x := Iff.rfl

theorem Storable.kept {r : FileRecord} (h : r.Storable) : r.stored.Kept where
  id := h.id
  owner := h.owner
  recipient := h.recipient
  origName := h.origName
  storageId := h.storageId
  uploadId := h.uploadId
  createdAt := h.createdAt
  wrappedFor := rfl
  alg := rfl

end FileRecord

/-- Both repositories hold the same records, as far as a table keeps them. -/
def SameRecords (m : MemoryFileRepository) (t : SqliteFileRepository) : Prop :=
  ∃ rs, MemoryShelves m rs ∧ SqliteShelves t (rs.map FileRecord.stored)

namespace SameRecords

variable {m : MemoryFileRepository} {t : SqliteFileRepository}

theorem save (h : SameRecords m t) {r : FileRecord} (hissued : (FileOp.save r).Issued)
    (hr : r.Storable) :
    Alike (fun e e' : Exn => e.cls = e'.cls) SameRecords (MemoryFileRepository.save r m)
      (SqliteFileRepository.save r t) := by
  obtain ⟨rs, hm, ht⟩ := h
  obtain ⟨hreply, hnext⟩ := hm.save hissued
  obtain ⟨hreply', hnext'⟩ := ht.save hr.kept
  -- the row of a record is the row of what is stored of it
  have hrow : sqliteFileRepository.step t (.save r.stored) = sqliteFileRepository.step t (.save r) :=
    rfl
  have hfree : (∀ x ∈ rs.map FileRecord.stored, ¬ r.stored.Clashes x) ↔ ∀ x ∈ rs, ¬ r.Clashes x := by
    rw [List.forall_mem_map]
    exact forall₂_congr fun x _ => not_congr FileRecord.clashes_stored
  have hshelf : FileRecord.shelve (rs.map FileRecord.stored) (.save r.stored) =
      ((FileRecord.shelve rs (.save r)).1, (FileRecord.shelve rs (.save r)).2.map FileRecord.stored) := by
    by_cases hall : ∀ x ∈ rs, ¬ r.Clashes x
    · simp only [FileRecord.shelve, if_pos hall, if_pos (hfree.2 hall), List.map_append,
        List.map_cons, List.map_nil]
    · simp only [FileRecord.shelve, if_neg hall, if_neg (mt hfree.1 hall)]
  rw [hrow, hshelf] at hreply' hnext'
  cases hsave : MemoryFileRepository.save r m with
  | ok m' =>
      rw [FullFileRepository.step_of_saved (R := memoryFileRepository) hsave] at hreply hnext
      cases hsave' : SqliteFileRepository.save r t with
      | ok t' =>
          rw [FullFileRepository.step_of_saved (R := sqliteFileRepository) hsave'] at hnext'
          exact ⟨_, hnext, hnext'⟩
      | error e' =>
          rw [FullFileRepository.step_of_refused (R := sqliteFileRepository) hsave', ← hreply] at hreply'
          cases hreply'
  | error e =>
      rw [FullFileRepository.step_of_refused (R := memoryFileRepository) hsave] at hreply
      cases hsave' : SqliteFileRepository.save r t with
      | ok t' =>
          rw [FullFileRepository.step_of_saved (R := sqliteFileRepository) hsave', ← hreply] at hreply'
          cases hreply'
      | error e' =>
          rw [FullFileRepository.step_of_refused (R := sqliteFileRepository) hsave', ← hreply] at hreply'
          exact (FileReply.threw.inj hreply').symm

theorem findById (h : SameRecords m t) {id : FileId} (hid : (0 : UInt8) ∉ id.value) :
    Option.Rel Comparison.SameParties (m.findById id) (t.findById id) := by
  obtain ⟨rs, hm, ht⟩ := h
  have hmem : m.findById id = rs.find? fun r => r.id = id := by
    rw [MemoryFileRepository.findById, hm.ids.lookup_eq, Option.map_id, id_eq]
    simp only [FileId.value_eq_iff]
  have hsql : t.findById id = (rs.find? fun r => r.id = id).map FileRecord.stored := by
    rw [ht.findById hid, List.find?_map]
    rfl
  rw [hmem, hsql]
  cases rs.find? fun r => r.id = id with
  | none => exact .none
  | some r => exact .some ⟨rfl, rfl, rfl⟩

theorem existsUploadId (h : SameRecords m t) {uploadId : Bytes} (hupload : (0 : UInt8) ∉ uploadId) :
    m.existsUploadId uploadId = t.existsUploadId uploadId := by
  obtain ⟨rs, hm, ht⟩ := h
  rw [ht.existsUploadId hupload, List.any_map, Bool.eq_iff_iff, MemoryFileRepository.existsUploadId,
    hm.uploadIds.isSome_iff, List.any_eq_true]
  exact exists_congr fun r => and_congr_right fun _ => decide_eq_true_iff.symm

end SameRecords

/-! ## Worlds -/

/-- The world of the tests and that of the server after the same calls. -/
structure Mirrors (known : List UserId) (w : World .memory) (w' : World .sqlite) : Prop where
  users : SameAccounts known w.users w'.users
  files : SameRecords w.files w'.files
  keys : w.keys = w'.keys
  sessions : w.sessions = w'.sessions
  blobs : w.blobs = w'.blobs
  transfers : w.transfers = w'.transfers
  audit : w.audit = w'.audit
  clockReads : w.clockReads = w'.clockReads
  ids : w.ids = w'.ids
  tokens : w.tokens = w'.tokens
  calls : w.calls = w'.calls
  /-- Sessions are those of users whose ids have no zero byte. -/
  zeroFree : ∀ k s, w.sessions.byHash.lookup k = some s → (0 : UInt8) ∉ s.userId.value

/-- Texts without zero bytes and 64-bit times; of an exception the class is compared. -/
def backends : Comparison .memory .sqlite where
  worlds := Mirrors
  exns e e' := e.cls = e'.cls
  missing e e' := ∃ sid, e = Backend.memory.missingBlob sid ∧ e' = Backend.sqlite.missingBlob sid
  blobs := (· = ·)
  plain t := (0 : UInt8) ∉ t
  timely t := -2 ^ 63 ≤ t ∧ t < 2 ^ 63

theorem backends_ticks : backends.Ticks where
  exns_refl _ := rfl
  tick h := ⟨h.calls, { h with calls := congrArg (· + 1) h.calls }⟩

theorem plainUser_iff {u : User} : backends.PlainUser u ↔ u.ZeroFree :=
  ⟨fun h => ⟨h.id, h.username, h.email, h.role, h.status⟩,
    fun h => ⟨h.1, h.2.1, h.2.2.1, h.2.2.2.1, h.2.2.2.2⟩⟩

namespace Mirrors

variable {known : List UserId} {w : World .memory} {w' : World .sqlite}

theorem empty : Mirrors [] (World.empty .memory) (World.empty .sqlite) where
  users := ⟨[], MemoryHolds.empty, SqliteHolds.empty, fun id hid => by cases hid⟩
  files := ⟨[], MemoryShelves.empty, SqliteShelves.empty⟩
  keys := rfl
  sessions := rfl
  blobs := rfl
  transfers := rfl
  audit := rfl
  clockReads := rfl
  ids := rfl
  tokens := rfl
  calls := rfl
  zeroFree _ _ h := by cases h

theorem withSessions (h : Mirrors known w w') {st : MemorySessionStore}
    (hst : ∀ k s, st.byHash.lookup k = some s → (0 : UInt8) ∉ s.userId.value) :
    Mirrors known { w with sessions := st } { w' with sessions := st } :=
  { h with sessions := rfl, zeroFree := hst }

/-- A query for a user finds the same one. -/
theorem finds {env : Env} {c : Call}
    {q : MemoryUserRepository → Except Exn (Option User)}
    {q' : SqliteUserRepository → Except Exn (Option User)}
    (hq : ∀ m t, SameAccounts known m t → ∃ u, q m = .ok u ∧ q' t = .ok u ∧
      ∀ v, u = some v → v.ZeroFree ∧ SameAccounts (v.id :: known) m t) :
    backends.Finds known (Service.query env c fun w => q w.users)
      (Service.query env c fun w => q' w.users) := by
  refine backends_ticks.finds fun w w' hw => ?_
  obtain ⟨u, hm, ht, hfound⟩ := hq _ _ hw.users
  rw [hm, ht]
  refine ⟨rfl, fun v hv => ?_⟩
  obtain ⟨hzero, hknown⟩ := hfound v hv
  exact ⟨plainUser_iff.2 hzero, { hw with users := hknown }⟩

/-- A write of the user repository. -/
theorem writeUsers {env : Env} {c : Call} (op : UserOp) (hzero : op.ZeroFree)
    (hknown : ∀ m t, SameAccounts known m t → op.Known m)
    {f : MemoryUserRepository → Except Exn MemoryUserRepository}
    {f' : SqliteUserRepository → Except Exn SqliteUserRepository}
    (hf : ∀ m, memoryUserRepository.step m op = UserReply.ofWrite m (f m))
    (hf' : ∀ t, sqliteUserRepository.step t op = UserReply.ofWrite t (f' t)) :
    backends.Lock known (· = ·) (Service.writeUsers (b := .memory) env c f)
      (Service.writeUsers (b := .sqlite) env c f') := by
  refine backends_ticks.write fun w w' hw => ?_
  have hwrite := hw.users.write hzero (hknown _ _ hw.users) (hf w.users) (hf' w'.users)
  exact hwrite.map fun _ _ hsame => { hw with users := hsame }

/-- A query of what both worlds hold alike. -/
theorem query {α : Type} {V : α → α → Prop} {env : Env} {c : Call}
    {f : World .memory → Except Exn α} {g : World .sqlite → Except Exn α}
    (hf : ∀ w w', Mirrors known w w' → Alike (fun e e' : Exn => e.cls = e'.cls) V (f w) (g w')) :
    backends.Lock known V (Service.query env c f) (Service.query env c g) :=
  backends_ticks.query hf

theorem zeroFree_insert (h : Mirrors known w w') {k : Bytes} {s : Session}
    (hs : (0 : UInt8) ∉ s.userId.value) :
    ∀ k' s', (w.sessions.byHash.insert k s).lookup k' = some s' → (0 : UInt8) ∉ s'.userId.value := by
  intro k' s' hlookup
  rw [Table.lookup_insert_eq] at hlookup
  split at hlookup
  · cases hlookup
    exact hs
  · exact h.zeroFree k' s' hlookup

theorem zeroFree_create (h : Mirrors known w w') {random : RandomBytes 32} {uid : UserId} {now : Int}
    {st : MemorySessionStore} (huid : (0 : UInt8) ∉ uid.value)
    (hcreate : w.sessions.createForUser random uid now = .ok st) :
    ∀ k s, st.byHash.lookup k = some s → (0 : UInt8) ∉ s.userId.value := by
  intro k s hs
  rcases MemorySessionStore.lookup_createForUser hcreate hs with huser | hold
  · rw [huser]
    exact huid
  · exact h.zeroFree k s hold

theorem zeroFree_invalidate (h : Mirrors known w w') (token : SessionId) :
    ∀ k s, (w.sessions.invalidate token).byHash.lookup k = some s → (0 : UInt8) ∉ s.userId.value := by
  unfold MemorySessionStore.invalidate
  cases hfind : w.sessions.findByToken token with
  | none => exact h.zeroFree
  | some s => exact h.zeroFree_insert (h.zeroFree _ s hfind)

theorem zeroFree_invalidateAll (h : Mirrors known w w') (u : UserId) :
    ∀ k s, (w.sessions.invalidateAllForUser u).byHash.lookup k = some s →
      (0 : UInt8) ∉ s.userId.value := by
  intro k s hlookup
  rw [MemorySessionStore.invalidateAllForUser, Table.lookup_mapValues] at hlookup
  obtain ⟨s₀, hs₀, rfl⟩ := Option.map_eq_some_iff.1 hlookup
  have hzero := h.zeroFree k s₀ hs₀
  unfold MemorySessionStore.revokeFor
  split
  · exact hzero
  · exact hzero

end Mirrors

/-- What the process draws on stays within the columns: 64-bit times and hashes that are texts. -/
structure Env.Storable (env : Env) : Prop where
  clock : ∀ n, -2 ^ 63 ≤ env.clock n ∧ env.clock n < 2 ^ 63
  hash : ∀ n pw, (0 : UInt8) ∉ env.hash n pw

theorem FileRecord.storable_record {a : UploadArgs} {id storage senderId recipientId : UserId}
    {now : Int} (hname : (0 : UInt8) ∉ a.origName) (hupload : (0 : UInt8) ∉ a.uploadId)
    (hid : (0 : UInt8) ∉ id.value) (hstorage : (0 : UInt8) ∉ storage.value)
    (hsender : (0 : UInt8) ∉ senderId.value) (hrecipient : (0 : UInt8) ∉ recipientId.value)
    (hnow : -2 ^ 63 ≤ now ∧ now < 2 ^ 63) :
    (a.record id storage senderId recipientId now).Storable where
  id := hid
  owner := hsender
  recipient := hrecipient
  origName := hname
  storageId := by
    have hbin : (0 : UInt8) ∉ ascii ".bin" := by decide
    exact fun hmem => (List.mem_append.1 hmem).elim hstorage hbin
  uploadId := hupload
  createdAt := hnow

theorem Backend.text_of_zeroFree {t : Bytes} (h : (0 : UInt8) ∉ t) : (b : Backend) → b.text t = t
  | memory => rfl
  | sqlite => cstr_of_not_mem h

/-- The two directories of public keys refuse the same keys; the texts of the refusals differ. -/
theorem savePubkey_alike {uid : UserId} (huid : (0 : UInt8) ∉ uid.value) (pub : Bytes)
    (keys : Table Bytes) :
    Alike (fun e e' : Exn => e.cls = e'.cls) (· = ·) (savePubkey .memory uid pub keys)
      (savePubkey .sqlite uid pub keys) := by
  rw [savePubkey, savePubkey, Backend.text_of_zeroFree huid, Backend.text_of_zeroFree huid]
  by_cases hid : uid.value = []
  · rw [if_pos hid, if_pos hid]
    rfl
  rw [if_neg hid, if_neg hid, if_neg (by simp : ¬ (Backend.sqlite = .memory ∧ pub = []))]
  by_cases hpub : pub = []
  · -- an empty key has its own text in memory and the wrong length in SQLite
    rw [if_pos ⟨rfl, hpub⟩, if_pos (by rw [hpub]; decide)]
    rfl
  rw [if_neg fun h => hpub h.2]
  by_cases hlength : pub.length ≠ 32
  · rw [if_pos hlength]
    rfl
  rw [if_neg hlength]
  split
  · rfl
  · rfl

namespace Mirrors

variable {env : Env} {known : List UserId}

/-! ### The calls, one by one -/

theorem lock_nowMs (henv : env.Storable) :
    backends.Lock known (fun t t' => t = t' ∧ backends.timely t) (nowMs env) (nowMs env) :=
  .modifyGet fun w w' hw => by
    rw [hw.clockReads]
    exact ⟨⟨rfl, henv.clock _⟩, { hw with clockReads := rfl }⟩

theorem lock_newId :
    backends.Lock known (fun i i' => i = i' ∧ backends.plain i.value ∧ i.value ≠ []) (newId env)
      (newId env) :=
  .modifyGet fun w w' hw => by
    rw [hw.ids]
    have hne : (generateUserId (env.randomId w'.ids)).value ≠ [] := fun hnil => by
      have hlength := length_generateUserId (env.randomId w'.ids)
      rw [hnil] at hlength
      cases hlength
    exact ⟨⟨rfl, zero_not_mem_generateUserId _, hne⟩, { hw with ids := rfl }⟩

theorem lock_record (action : AuditAction) (actor fileId : Bytes) :
    backends.Lock known (· = ·) (record env action actor fileId) (record env action actor fileId) :=
  backends_ticks.write fun _ _ hw => { hw with audit := congrArg (· ++ _) hw.audit }

theorem lock_findByEmail {e : Bytes} (he : backends.plain e) :
    backends.Lock known (fun o o' => o.isSome = o'.isSome) (findByEmail env e)
      (findByEmail env e) := by
  refine query fun w w' hw => ?_
  obtain ⟨u, hm, ht, -⟩ := hw.users.findByEmail he
  show Alike _ _ (w.users.findByEmail e) (w'.users.findByEmail e)
  rw [hm, ht]
  rfl

theorem lock_listAll : backends.Lock known List.Perm (listAll env) (listAll env) := by
  refine query fun w w' hw => ?_
  obtain ⟨us, us', hm, ht, hperm⟩ := hw.users.listAll
  show Alike _ _ w.users.listAll w'.users.listAll
  rw [hm, ht]
  exact hperm

theorem lock_hash (henv : env.Storable) (pw : Bytes) :
    backends.Lock known (fun h h' => h = h' ∧ backends.plain h) (hash env pw) (hash env pw) :=
  query fun w w' hw => by
    rw [hw.calls]
    exact ⟨rfl, henv.hash _ _⟩

theorem lock_isValid (token : SessionId) (now : Int) :
    backends.Lock known (· = ·) (isValid env token now) (isValid env token now) :=
  query fun w w' hw => by
    rw [hw.sessions]
    rfl

theorem lock_findByToken (token : SessionId) :
    backends.Lock known (fun o o' => o = o' ∧ ∀ s, o = some s → backends.plain s.userId.value)
      (findByToken env token) (findByToken env token) :=
  query fun w w' hw => by
    rw [← hw.sessions]
    exact ⟨rfl, fun s hs => hw.zeroFree _ s hs⟩

theorem lock_userFor (token : SessionId) :
    backends.Lock known (fun u u' => u = u' ∧ backends.plain u.value) (userFor env token)
      (userFor env token) :=
  query fun w w' hw => by
    rw [← hw.sessions]
    unfold MemorySessionStore.userFor
    cases hfind : w.sessions.findByToken token with
    | none => rfl
    | some s => exact ⟨rfl, hw.zeroFree _ s hfind⟩

theorem lock_newToken : backends.Lock known (· = ·) (newToken env) (newToken env) :=
  .modifyGet fun w w' hw => by
    rw [hw.tokens]
    exact ⟨rfl, { hw with tokens := rfl }⟩

/-- The session stores are the same one, so they refuse the same times. -/
theorem lock_createForUser {uid : UserId} (now : Int) (huid : backends.plain uid.value) :
    backends.Lock known (· = ·) (createForUser env uid now) (createForUser env uid now) := by
  refine (backends_ticks.call _).bind fun _ _ _ => lock_newToken.bind ?_
  rintro random _ rfl
  refine Lockstep.bind (.update fun w w' hw => ?_) fun _ _ _ => .pure rfl
  rw [← hw.sessions]
  cases hcreate : w.sessions.createForUser random uid now with
  | error e => rfl
  | ok st => exact hw.withSessions (hw.zeroFree_create huid hcreate)

theorem lock_invalidate (token : SessionId) :
    backends.Lock known (· = ·) (invalidate env token) (invalidate env token) :=
  (backends_ticks.call _).bind fun _ _ _ => .modifyGet fun w w' hw => by
    rw [← hw.sessions]
    exact ⟨rfl, hw.withSessions (hw.zeroFree_invalidate token)⟩

theorem lock_invalidateAllForUser (u : UserId) :
    backends.Lock known (· = ·) (invalidateAllForUser env u) (invalidateAllForUser env u) :=
  backends_ticks.write fun w w' hw => by
    rw [← hw.sessions]
    exact hw.withSessions (hw.zeroFree_invalidateAll u)

theorem lock_keyExists {uid : UserId} (huid : backends.plain uid.value) :
    backends.Lock known (· = ·) (keyExists env uid) (keyExists env uid) :=
  query fun w w' hw => by
    show pubkeyExists .memory w.keys uid = pubkeyExists .sqlite w'.keys uid
    rw [hw.keys, pubkeyExists, pubkeyExists, Backend.text_of_zeroFree huid,
      Backend.text_of_zeroFree huid]

theorem lock_saveKey {uid : UserId} (pub : Bytes) (huid : backends.plain uid.value) :
    backends.Lock known (· = ·) (saveKey uid pub) (saveKey uid pub) :=
  .update fun w w' hw => by
    rw [← hw.keys]
    exact (savePubkey_alike huid pub w.keys).map fun _ _ hkeys => { hw with keys := hkeys }

theorem lock_saveFile {a : UploadArgs} {id storage senderId recipientId : UserId} {now : Int}
    (hname : backends.plain a.origName) (hupload : backends.plain a.uploadId)
    (hne : a.uploadId ≠ []) (hid : backends.plain id.value) (hstorage : backends.plain storage.value)
    (hsender : backends.plain senderId.value) (hrecipient : backends.plain recipientId.value)
    (hnow : backends.timely now) (hid' : id.value ≠ []) :
    backends.Lock known (· = ·) (saveFile env (a.record id storage senderId recipientId now))
      (saveFile env (a.record id storage senderId recipientId now)) := by
  refine backends_ticks.write fun w w' hw => ?_
  have hsave := hw.files.save (r := a.record id storage senderId recipientId now)
    ⟨hid', hne, fun h => by cases (List.append_eq_nil_iff.1 h).2⟩
    (FileRecord.storable_record hname hupload hid hstorage hsender hrecipient hnow)
  exact hsave.map fun _ _ hfiles => { hw with files := hfiles }

theorem lock_read (sid : Bytes) :
    Lockstep (backends.worlds known) backends.ReadErrors backends.blobs (read env sid)
      (read env sid) :=
  backends_ticks.read fun w w' hw => by
    rw [hw.blobs]
    unfold Backend.readBlob
    cases w'.blobs.lookup sid with
    -- the two storages word the exception differently
    | none => exact .inr ⟨sid, rfl, rfl⟩
    | some data => rfl

theorem lock_saveTransfer (t : Transfer) :
    backends.Lock known (· = ·) (saveTransfer env t) (saveTransfer env t) :=
  backends_ticks.write fun w w' hw => by
    rw [hw.transfers]
    cases w'.transfers.save t with
    | error e => rfl
    | ok ts => exact { hw with transfers := rfl }

end Mirrors

/-- The two sets of repositories are interchangeable. -/
theorem backends_interchangeable {env : Env} (henv : env.Storable) :
    Interchangeable env backends where
  exns_refl _ := rfl
  plain_active := (by decide : (0 : UInt8) ∉ ascii "active")
  plain_inactive := (by decide : (0 : UInt8) ∉ ascii "inactive")
  forget h := { h with users := h.users.forget }
  nowMs _ := Mirrors.lock_nowMs henv
  newId _ := Mirrors.lock_newId
  record _ := Mirrors.lock_record
  findByUsername _ _ hn := Mirrors.finds fun _ _ h => h.findByUsername hn
  findByEmail _ _ := Mirrors.lock_findByEmail
  findById _ _ hid := Mirrors.finds fun _ _ h => h.findById hid
  getEncodedHash _ _ hid := Mirrors.query fun _ _ hw => hw.users.getEncodedHash hid
  listAll _ := Mirrors.lock_listAll
  saveUser _ u encodedHash hu hhash :=
    Mirrors.writeUsers (.save u encodedHash) ⟨plainUser_iff.1 hu, hhash⟩
      (fun _ _ _ => trivial) (fun _ => rfl) fun _ => rfl
  updateUser _ u hu :=
    Mirrors.writeUsers (.update u) (plainUser_iff.1 hu) (fun _ _ _ => trivial)
      (fun _ => rfl) fun _ => rfl
  recordLoginFailure _ id now _ hid :=
    Mirrors.writeUsers (.recordLoginFailure id now) hid (fun _ _ _ => trivial)
      (fun _ => rfl) fun _ => rfl
  resetLoginFailures _ id hknown hid :=
    Mirrors.writeUsers (.resetLoginFailures id) hid
      (fun _ _ h => h.findById_known hknown) (fun _ => rfl) fun _ => rfl
  hash _ := Mirrors.lock_hash henv
  verify _ _ _ := Mirrors.query fun _ _ _ => rfl
  isValid _ := Mirrors.lock_isValid
  findByToken _ := Mirrors.lock_findByToken
  userFor _ := Mirrors.lock_userFor
  createForUser _ _ := Mirrors.lock_createForUser
  invalidate _ := Mirrors.lock_invalidate
  invalidateAllForUser _ := Mirrors.lock_invalidateAllForUser
  keyExists _ _ := Mirrors.lock_keyExists
  saveKey _ _ := Mirrors.lock_saveKey
  existsUploadId _ _ hupload := Mirrors.query fun _ _ hw => hw.files.existsUploadId hupload
  saveFile _ _ _ _ _ _ _ := Mirrors.lock_saveFile
  findFile _ _ hid := Mirrors.query fun _ _ hw => hw.files.findById hid
  stagedWrite _ sid _ _ hdata := backends_ticks.write fun _ _ hw =>
    { hw with blobs := congrArg₂ (MemoryStorage.stagedWrite sid) hdata hw.blobs }
  removeStaged _ sid := backends_ticks.write fun _ _ hw =>
    { hw with blobs := congrArg (MemoryStorage.removeStaged sid) hw.blobs }
  read _ := Mirrors.lock_read
  saveTransfer _ := Mirrors.lock_saveTransfer

/-! ## Runs -/

namespace ServiceCall

/-- No text of the call that a table keeps or compares has a zero byte. -/
def ZeroFree : ServiceCall → Prop
  | .registerUser u email _ role => (0 : UInt8) ∉ u ∧ (0 : UInt8) ∉ email ∧ (0 : UInt8) ∉ role
  | .login u _ => (0 : UInt8) ∉ u
  | .logout _ => True
  | .activate _ tgt => (0 : UInt8) ∉ tgt.value
  | .deactivate _ tgt => (0 : UInt8) ∉ tgt.value
  | .activateById admin tgt => (0 : UInt8) ∉ admin.value ∧ (0 : UInt8) ∉ tgt.value
  | .deactivateById admin tgt => (0 : UInt8) ∉ admin.value ∧ (0 : UInt8) ∉ tgt.value
  | .savePubkey uid _ => (0 : UInt8) ∉ uid.value
  | .upload a => (0 : UInt8) ∉ a.recipientUsername ∧ (0 : UInt8) ∉ a.origName ∧
      (0 : UInt8) ∉ a.uploadId
  | .download _ fid => (0 : UInt8) ∉ fid.value

theorem ZeroFree.matches {c : ServiceCall} (h : c.ZeroFree) : c.Matches backends c := by
  cases c with
  | registerUser u email pw role => exact .registerUser h.1 h.2.1 h.2.2
  | login u pw => exact .login h
  | logout tok => exact .logout tok
  | activate adminToken tgt => exact .activate adminToken h
  | deactivate adminToken tgt => exact .deactivate adminToken h
  | activateById admin tgt => exact .activateById h.1 h.2
  | deactivateById admin tgt => exact .deactivateById h.1 h.2
  | savePubkey uid pub => exact .savePubkey h
  | upload a => exact .upload rfl h.1 h.2.1 h.2.2
  | download requestSess fid => exact .download requestSess h

end ServiceCall

/-- A run of such calls goes the same way over both sets of repositories: the same replies, an
exception where the other throws one of its class, and the same stores and audit entries. -/
theorem services_agree_on_backends {env : Env} (henv : env.Storable) (calls : List ServiceCall)
    (hcalls : ∀ c ∈ calls, c.ZeroFree) :
    List.Forall₂ (Alike (fun e e' : Exn => e.cls = e'.cls) (ServiceReply.Matches backends))
        (outputs (serviceStep env) (World.empty .memory) calls)
        (outputs (serviceStep env) (World.empty .sqlite) calls) ∧
      Mirrors [] (final (serviceStep env) (World.empty .memory) calls)
        (final (serviceStep env) (World.empty .sqlite) calls) := by
  have hstep : ∀ w w' c c', Mirrors [] w w' → c.Matches backends c' →
      Alike (fun e e' : Exn => e.cls = e'.cls) (ServiceReply.Matches backends)
          (serviceStep env w c).1 (serviceStep env w' c').1 ∧
        Mirrors [] (serviceStep env w c).2 (serviceStep env w' c').2 :=
    fun w w' c c' hw hc => ((backends_interchangeable henv).perform hc).run hw
  refine outputs_of_related hstep ?_ Mirrors.empty
  exact List.forall₂_same.2 fun c hc => (hcalls c hc).matches

/-- Counting, with a hasher whose encoding is a text. -/
def Env.encoding : Env :=
  { Env.counting with
    hash := fun _ pw => hexBytes pw
    verify := fun encodedHash pw => encodedHash == hexBytes pw }

theorem Env.encoding_storable : Env.encoding.Storable where
  clock _ := (by decide : (-2 ^ 63 : Int) ≤ 0 ∧ (0 : Int) < 2 ^ 63)
  hash _ _ := fun h => absurd (isHexDigit_of_mem_hexBytes h) (by decide)

set_option maxRecDepth 100000 in
theorem services_agree_on_sampleCalls :
    let calls := sampleCalls ++ [.upload sampleUpload]
    (final (serviceStep Env.encoding) (World.empty .memory) calls).transfers.rows.length = 1 ∧
      List.Forall₂ (Alike (fun e e' : Exn => e.cls = e'.cls) (ServiceReply.Matches backends))
        (outputs (serviceStep Env.encoding) (World.empty .memory) calls)
        (outputs (serviceStep Env.encoding) (World.empty .sqlite) calls) ∧
      Mirrors [] (final (serviceStep Env.encoding) (World.empty .memory) calls)
        (final (serviceStep Env.encoding) (World.empty .sqlite) calls) := by
  refine ⟨by decide +kernel, services_agree_on_backends Env.encoding_storable _ fun c hc => ?_⟩
  simp only [sampleCalls, List.cons_append, List.nil_append, List.mem_cons, List.not_mem_nil,
    or_false] at hc
  rcases hc with rfl | rfl | rfl | rfl | rfl
  · exact ⟨by decide, by decide, by decide⟩
  · exact ⟨by decide, by decide, by decide⟩
  · exact (by decide : (0 : UInt8) ∉ ascii "alice")
  · exact zero_not_mem_generateUserId _
  · exact ⟨by decide, by decide, by decide⟩

end SecureFileTransfer
