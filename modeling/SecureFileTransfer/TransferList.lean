import SecureFileTransfer.Download
import SecureFileTransfer.ServerRuns

/-!
# TransferList — what the list of transfers shows

`TransferService::listFor` reads another table than `download` does.  In every run of the server the
`transfers` table follows the `files` table, with a gap where a transfer was not saved, so a user is
shown files that were sent by or to that user, in the order of the uploads.
-/

namespace SecureFileTransfer

open Prog Service

/-- `TransferService::listFor`, `SqliteTransferRepository::listFor` -/
def SqliteTransferRepository.listFor (repo : SqliteTransferRepository) (user : UserId) :
    List Transfer :=
  -- the SELECT has no ORDER BY: its rows are assumed to come in the order of their insertion
  (repo.rows.filter fun row =>
    row.sender = Text.bind user.value ∨ row.recipient = Text.bind user.value).map
      TransferRow.toTransfer

namespace SqliteTransferRepository

variable {t : Transfer} {repo repo' : SqliteTransferRepository}

theorem rows_save (h : save t repo = .ok repo') :
    repo'.rows = repo.rows ++ [TransferRow.ofTransfer t] := by
  unfold save at h
  split at h
  · cases h
    rfl
  · cases h

/-- Only an id that is taken is refused. -/
theorem exists_of_save_error {e : Exn} (h : save t repo = .error e) :
    ∃ row ∈ repo.rows, row.id = (TransferRow.ofTransfer t).id := by
  unfold save at h
  split at h
  · cases h
  · rename_i hold
    simpa using hold

end SqliteTransferRepository

/-! ## The two tables -/

/-- File, sender and recipient. -/
def TransferRow.parties (row : TransferRow) : Text × Text × Text :=
  (row.fileId, row.sender, row.recipient)

def FileRow.parties (row : FileRow) : Text × Text × Text := (row.id, row.ownerId, row.recipientId)

/-- Neither table changed. -/
structure SameFiles (w w' : World .sqlite) : Prop where
  files : w'.files = w.files
  transfers : w'.transfers = w.transfers
  ids : w.ids ≤ w'.ids

/-- The rows of `transfers` are uploads of rows of `files`, in their order, and named by ids that were
drawn.  None is missing if the repository does not throw and the ids are fresh. -/
structure FollowsFiles (env : Env) (w : World .sqlite) : Prop where
  parties : (w.transfers.rows.map TransferRow.parties).Sublist
    ((SqliteFileRepository.rows w.files).map FileRow.parties)
  uploaded : ∀ row ∈ w.transfers.rows, row.status = Text.bind (ascii "UPLOADED")
  drawn : ∀ row ∈ w.transfers.rows,
    ∃ i < w.ids, row.id = Text.bind (generateUserId (env.randomId i)).value
  complete : FreshIds env w.ids → (∀ n, env.fault .saveTransfer n = none) →
    w.transfers.rows.map TransferRow.parties =
      (SqliteFileRepository.rows w.files).map FileRow.parties

variable {env : Env} {w w₁ w' : World .sqlite}

namespace SameFiles

theorem of_eq {stores : Stores .sqlite} (h : w'.toStores = stores) (hfiles : stores.files = w.files)
    (htransfers : stores.transfers = w.transfers) (hids : w.ids ≤ w'.ids) : SameFiles w w' :=
  ⟨(congrArg Stores.files h).trans hfiles, (congrArg Stores.transfers h).trans htransfers, hids⟩

theorem refl (w : World .sqlite) : SameFiles w w := ⟨rfl, rfl, le_rfl⟩

theorem of_quiet (h : Quiet w w') : SameFiles w w' := of_eq h.stores rfl rfl h.ids.ge

theorem trans (h₁ : SameFiles w w₁) (h₂ : SameFiles w₁ w') : SameFiles w w' :=
  ⟨h₂.files.trans h₁.files, h₂.transfers.trans h₁.transfers, h₁.ids.trans h₂.ids⟩

theorem of_register {u : Bytes} {r : Except Exn (Result UserId)}
    (h : RegisterOutcome env u w r w') : SameFiles w w' := by
  cases h with
  | refused _ stores later => exact of_eq stores rfl rfl later.ids
  | saved _ _ _ stores later _ => exact of_eq stores rfl rfl later.ids

theorem of_login {u pw : Bytes} {r : Except Exn (Result SessionId)}
    (h : LoginOutcome env u pw w r w') : SameFiles w w' := by
  cases h with
  | refused _ stores later => exact of_eq stores rfl rfl later.ids
  | counted _ _ _ stores later => exact of_eq stores rfl rfl later.ids
  | opened _ _ _ stores ids _ _ _ => exact of_eq stores rfl rfl ids.ge

theorem of_logout {tok : SessionId} {r : Except Exn Bool} (h : LogoutOutcome env tok w r w') :
    SameFiles w w' := by
  cases h with
  | unknown _ stores later => exact of_eq stores rfl rfl later.ids
  | revoked stores later _ => exact of_eq stores rfl rfl later.ids

theorem of_activate {tgt : UserId} {r : Except Exn (Result UserId)}
    (h : ActivateOutcome env tgt w r w') : SameFiles w w' := by
  cases h with
  | refused _ stores later => exact of_eq stores rfl rfl later.ids
  | updated _ _ stores later _ => exact of_eq stores rfl rfl later.ids

theorem of_deactivate {tgt : UserId} {r : Except Exn (Result UserId)}
    (h : DeactivateOutcome env tgt w r w') : SameFiles w w' := by
  cases h with
  | refused _ stores later => exact of_eq stores rfl rfl later.ids
  | halfway _ _ stores later _ => exact of_eq stores rfl rfl later.ids
  | updated _ _ stores later _ => exact of_eq stores rfl rfl later.ids

theorem of_boot {u e p : Bytes} {r : Except Exn Unit} (h : boot env u e p w = (r, w')) :
    SameFiles w w' := by
  refine of_wp (P := fun _ w' => SameFiles w w') ?_ h
  unfold boot
  rw [wp_bind, wp_modifyGet, wpBind_ok]
  have hcleared : SameFiles w { w with sessions := MemorySessionStore.empty } := ⟨rfl, rfl, le_rfl⟩
  refine wp_quiet_bind quiet_query (fun _ _ hq => hcleared.trans (of_quiet hq)) fun users w₁ h₁ => ?_
  refine wp_ite (fun _ => ?_) fun _ => hcleared.trans (of_quiet h₁)
  rw [wp_bind]
  refine wp_mono (registerUser_spec u e p (ascii "admin")) ?_
  rintro (ex | r) w₂ h₂
  · exact (hcleared.trans (of_quiet h₁)).trans (of_register h₂)
  · exact (hcleared.trans (of_quiet h₁)).trans (of_register h₂)

end SameFiles

namespace FollowsFiles

theorem empty (env : Env) : FollowsFiles env (World.empty .sqlite) where
  parties := List.nil_sublist _
  uploaded := by simp [World.empty, Stores.empty, SqliteTransferRepository.empty]
  drawn := by simp [World.empty, Stores.empty, SqliteTransferRepository.empty]
  complete _ _ := rfl

theorem same (hf : FollowsFiles env w) (h : SameFiles w w') : FollowsFiles env w' := by
  obtain ⟨hfiles, htransfers, hids⟩ := h
  refine ⟨by rw [htransfers, hfiles]; exact hf.parties, by rw [htransfers]; exact hf.uploaded, ?_, ?_⟩
  · rw [htransfers]
    intro row hrow
    obtain ⟨i, hi, hname⟩ := hf.drawn row hrow
    exact ⟨i, hi.trans_le hids, hname⟩
  · rw [htransfers, hfiles]
    exact fun hfresh hsave => hf.complete (hfresh.mono hids) hsave

theorem upload {a : UploadArgs} {r : Except Exn (Result Transfer)} (hf : FollowsFiles env w)
    (h : UploadOutcome env a w r w') : FollowsFiles env w' := by
  cases h with
  | refused _ _ stores later => exact hf.same (.of_eq stores rfl rfl later.ids)
  | withdrawn stores later _ => exact hf.same (.of_eq stores rfl rfl later.ids)
  | orphaned stores later _ _ => exact hf.same (.of_eq stores rfl rfl later.ids)
  | @stored r w' senderId recipientId now files ts _ write transfer stores ids _ _ =>
      have hfiles : w'.files = files := congrArg Stores.files stores
      have htransfers : w'.transfers = ts := congrArg Stores.transfers stores
      have hrows : (SqliteFileRepository.rows w'.files).map FileRow.parties =
          (SqliteFileRepository.rows w.files).map FileRow.parties ++
            [(TransferRow.ofTransfer (uploadTransfer env w senderId recipientId)).parties] := by
        rw [hfiles, (SqliteFileRepository.save_ok write).1, List.map_append]
        rfl
      have hnames : ∀ row ∈ w.transfers.rows,
          ∃ i < w'.ids, row.id = Text.bind (generateUserId (env.randomId i)).value := by
        intro row hrow
        obtain ⟨i, hi, hname⟩ := hf.drawn row hrow
        exact ⟨i, by omega, hname⟩
      cases transfer with
      | saved write =>
          have hts := SqliteTransferRepository.rows_save write
          refine ⟨?_, ?_, ?_, fun hfresh hsave => ?_⟩
          · rw [hrows, htransfers, hts, List.map_append]
            exact hf.parties.append (List.Sublist.refl _)
          · rw [htransfers, hts]
            intro row hrow
            rcases List.mem_append.1 hrow with hrow | hrow
            · exact hf.uploaded row hrow
            · rw [List.mem_singleton.1 hrow]
              rfl
          · rw [htransfers, hts]
            intro row hrow
            rcases List.mem_append.1 hrow with hrow | hrow
            · exact hnames row hrow
            · rw [List.mem_singleton.1 hrow]
              exact ⟨w.ids + 2, by omega, rfl⟩
          · rw [hrows, htransfers, hts, List.map_append,
              hf.complete (hfresh.mono (by omega)) hsave]
            rfl
      | threw cause =>
          refine ⟨?_, by rw [htransfers]; exact hf.uploaded, by rw [htransfers]; exact hnames,
            fun hfresh hsave => ?_⟩
          · rw [hrows, htransfers]
            exact hf.parties.trans (List.sublist_append_left _ _)
          · -- the repository does not throw, and no transfer has the fresh id
            rcases cause with ⟨e, n, -, -, hfault⟩ | ⟨e, herr⟩
            · rw [hsave] at hfault
              cases hfault
            · obtain ⟨row, hrow, hid⟩ := SqliteTransferRepository.exists_of_save_error herr
              obtain ⟨i, hi, hname⟩ := hf.drawn row hrow
              rw [hname] at hid
              have hvalue := (Text.bind_eq_iff (zero_not_mem_generateUserId _)
                (zero_not_mem_generateUserId _)).1 hid
              refine absurd ?_ (hfresh (w.ids + 2) (by omega) i (by omega))
              exact congrArg UserId.mk hvalue

end FollowsFiles

/-! ## Runs of the server -/

/-- A frame leaves both tables as they are, or makes one upload. -/
theorem Handled.sameFiles {f : Frame} {c : Conn} {r : Except Exn Unit} {hd : Handling}
    (h : Handled env f w c r hd) : SameFiles w hd.world ∨
      ∃ a w₁ res, SameFiles w w₁ ∧ UploadOutcome env a w₁ res hd.world := by
  cases h with
  | refused quiet _ => exact .inl (.of_quiet quiet)
  | listed => exact .inl (.refl w)
  | registered _ _ run => exact .inl (.of_register (of_wp (registerUser_spec _ _ _ _) run))
  | authenticated _ _ run => exact .inl (.of_login (of_wp (login_spec _ _) run))
  | loggedOut _ run => exact .inl (.of_logout (of_wp (logout_spec _) run))
  | logoutThrew _ run => exact .inl (.of_logout (of_wp (logout_spec _) run))
  | administered _ _ run =>
      unfold Handler.adminAction at run
      split at run
      · exact .inl (.of_activate (of_wp (activate_spec _ _) run).1)
      · exact .inl (.of_deactivate (of_wp (deactivate_spec _ _) run).1)
  | announced _ _ _ _ quiet => exact .inl (.of_quiet quiet)
  | appended _ _ _ _ => exact .inl (.refl w)
  | committed _ _ _ _ _ quiet run =>
      exact .inr ⟨_, _, _, .of_quiet quiet, of_wp (upload_spec _) run⟩
  | downloaded _ _ run => exact .inl (.of_quiet (of_wp (download_spec _ _) run).quiet)

theorem FollowsFiles.handled {f : Frame} {c : Conn} {r : Except Exn Unit} {hd : Handling}
    (hf : FollowsFiles env w) (h : Handled env f w c r hd) : FollowsFiles env hd.world := by
  rcases h.sameFiles with hsame | ⟨a, w₁, res, hsame, hupload⟩
  · exact hf.same hsame
  · exact (hf.same hsame).upload hupload

theorem FollowsFiles.served {s s' : ServerState} {ev : ServerEvent} {out : Output}
    (hf : FollowsFiles env s.world) (h : Served env s ev out s') : FollowsFiles env s'.world := by
  cases h with
  | booted run => exact hf.same (.of_boot run)
  | bootThrew run => exact hf.same (.of_boot run)
  | accepted _ => exact hf
  | handled _ handled => exact hf.handled handled
  | dropped _ handled => exact hf.handled handled
  | hungup _ => exact hf
  | keyed _ => exact hf.same ⟨rfl, rfl, le_rfl⟩
  | ignored => exact hf

theorem followsFiles_of_serverRun (env : Env) (evs : List ServerEvent) :
    FollowsFiles env (serverAfter env evs).world := by
  refine server_induction env (P := fun _ s => FollowsFiles env s.world) (.empty env) ?_ evs
  exact fun evs ev hf => hf.served (serverNext_served env evs ev)

/-! ## The list -/

def Transfer.parties (t : Transfer) : FileId × UserId × UserId := (t.file, t.sender, t.recipient)

def FileRecord.parties (r : FileRecord) : FileId × UserId × UserId := (r.id, r.owner, r.recipient)

/-- What the list of a user shows: uploads of files the user may download, in their order, and all of
them if no transfer was lost. -/
structure ListsFiles (env : Env) (w : World .sqlite) (user : UserId) : Prop where
  uploaded : ∀ t ∈ w.transfers.listFor user, t.status = .UPLOADED
  shown : ((w.transfers.listFor user).map Transfer.parties).Sublist
    (((Backend.sqlite.records w.files).filter fun r => r.owner = user ∨ r.recipient = user).map
      FileRecord.parties)
  complete : FreshIds env w.ids → (∀ n, env.fault .saveTransfer n = none) →
    (w.transfers.listFor user).map Transfer.parties =
      ((Backend.sqlite.records w.files).filter fun r => r.owner = user ∨ r.recipient = user).map
        FileRecord.parties

/-- The columns of one of the tables, read back. -/
def readParties (p : Text × Text × Text) : FileId × UserId × UserId :=
  (⟨p.1.1⟩, ⟨p.2.1.1⟩, ⟨p.2.2.1⟩)

/-- The user is one of the two. -/
def isParty (user : UserId) (p : Text × Text × Text) : Bool :=
  decide (p.2.1 = Text.bind user.value ∨ p.2.2 = Text.bind user.value)

theorem parties_listFor (repo : SqliteTransferRepository) (user : UserId) :
    (repo.listFor user).map Transfer.parties =
      ((repo.rows.map TransferRow.parties).filter (isParty user)).map readParties := by
  rw [SqliteTransferRepository.listFor, List.filter_map, List.map_map, List.map_map]
  rfl

theorem bind_eq_iff_mk_eq {user : UserId} (huser : (0 : UInt8) ∉ user.value) (t : Text) :
    t = Text.bind user.value ↔ (⟨t.1⟩ : UserId) = user := by
  have hvalue : (Text.bind user.value).1 = user.value := cstr_of_not_mem huser
  constructor
  · rintro rfl
    exact congrArg UserId.mk hvalue
  · rintro rfl
    exact (Text.bind_val t).symm

theorem parties_records {user : UserId} (huser : (0 : UInt8) ∉ user.value) (w : World .sqlite) :
    ((Backend.sqlite.records w.files).filter fun r => r.owner = user ∨ r.recipient = user).map
      FileRecord.parties =
        (((SqliteFileRepository.rows w.files).map FileRow.parties).filter (isParty user)).map
          readParties := by
  have hparty : (fun r : FileRecord => decide (r.owner = user ∨ r.recipient = user)) ∘
      FileRow.toRecord = isParty user ∘ FileRow.parties := funext fun row =>
    decide_eq_decide.2 (or_congr (bind_eq_iff_mk_eq huser _).symm (bind_eq_iff_mk_eq huser _).symm)
  show (((SqliteFileRepository.rows w.files).map FileRow.toRecord).filter _).map _ = _
  rw [List.filter_map, List.filter_map, List.map_map, List.map_map, hparty]
  rfl

/-- After every run of the server the list of a user shows nothing that `download` would deny the
user, and it shows everything if no transfer was lost. -/
theorem transfers_list_files (env : Env) (evs : List ServerEvent) (user : UserId)
    (huser : (0 : UInt8) ∉ user.value) :
    ListsFiles env (serverAfter env evs).world user := by
  have hfollows := followsFiles_of_serverRun env evs
  refine ⟨fun t ht => ?_, ?_, fun hfresh hsave => ?_⟩
  · obtain ⟨row, hrow, rfl⟩ := List.mem_map.1 ht
    show stringToStatus row.status.1 = .UPLOADED
    rw [hfollows.uploaded row (List.mem_of_mem_filter hrow)]
    decide
  · rw [parties_listFor, parties_records huser]
    exact (hfollows.parties.filter _).map _
  · rw [parties_listFor, parties_records huser, hfollows.complete hfresh hsave]

set_option maxRecDepth 100000 in
/-- The upload of `sampleEvents` is on the list of its recipient. -/
theorem transfers_list_files_sampleEvents :
    ((serverAfter Env.counting sampleEvents).world.transfers.listFor
        (generateUserId (Env.counting.randomId 1))).map Transfer.file =
      [⟨(generateUserId (Env.counting.randomId 2)).value⟩] ∧
    ListsFiles Env.counting (serverAfter Env.counting sampleEvents).world
      (generateUserId (Env.counting.randomId 1)) :=
  ⟨by decide +kernel, transfers_list_files _ _ _ (zero_not_mem_generateUserId _)⟩

end SecureFileTransfer
