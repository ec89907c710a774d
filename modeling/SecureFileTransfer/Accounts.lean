import SecureFileTransfer.Stores

/-!
# Accounts — what a write of the user directory does to its queries

`UserRepository.Accounts R text` says for every write of a user repository how the answers of its
queries change; `text` is what a column keeps of a string.  The two lockout writes and the status
update rewrite one user and nothing else (`Rewrites`); `save` adds one (`Adds`).
-/

namespace SecureFileTransfer

/-- `g` on the user with this id, nothing on the others. -/
def User.rewrite (id : UserId) (g : User → User) (u : User) : User :=
  if u.id = id then g u else u

/-- The user that is read back from the stored columns. -/
def User.stored (text : Bytes → Bytes) (u : User) : Except Exn User :=
  User.new ⟨text u.id.value⟩ (text u.username) (text u.email) (text u.role) (text u.status)
    u.failedAttempts u.lockoutUntil

/-- The counters after one more failed login. -/
def User.countFailure (now : Int) (u : User) : User :=
  u.setLockout (lockoutAfter (nextFailure u.failedAttempts) now u.lockoutUntil)
    (nextFailure u.failedAttempts)

namespace UserRepository

/-- One user is rewritten: every query sees the new one in the place of the old one. -/
structure Rewrites (R : UserRepository) (id : UserId) (g : User → User) (s s' : R.State) :
    Prop where
  findById : ∀ i, R.findById s' i = (R.findById s i).map (Option.map (User.rewrite id g))
  findByUsername : ∀ n,
    R.findByUsername s' n = (R.findByUsername s n).map (Option.map (User.rewrite id g))
  getEncodedHash : ∀ i, R.getEncodedHash s' i = R.getEncodedHash s i

/-- One user is added: it is found by its id, and what was found by an id is still found. -/
structure Adds (R : UserRepository) (text : Bytes → Bytes) (u : User) (encodedHash : Bytes)
    (s s' : R.State) : Prop where
  findById : ∀ i, R.findById s' i =
    if text i.value = text u.id.value then some <$> u.stored text else R.findById s i
  getEncodedHash : ∀ i, R.getEncodedHash s' i =
    if text i.value = text u.id.value then .ok (text encodedHash) else R.getEncodedHash s i
  absent : ∀ i, text i.value = text u.id.value → R.findById s i = .ok none

/-- How the writes of a repository change the answers of its queries. -/
structure Accounts (R : UserRepository) (text : Bytes → Bytes) : Prop where
  id_of_findById : ∀ {s i u}, R.findById s i = .ok (some u) → u.id.value = text i.value
  findById_text : ∀ {s i u}, R.findById s i = .ok (some u) → R.findById s u.id = .ok (some u)
  listAll : ∀ {s us}, R.listAll s = .ok us →
    (∀ u ∈ us, R.findById s u.id = .ok (some u)) ∧ (us.map User.id).Nodup
  mem_listAll : ∀ {s us i u}, R.listAll s = .ok us → R.findById s i = .ok (some u) → u ∈ us
  save : ∀ {u h s s'}, R.save u h s = .ok s' → R.Adds text u h s s'
  update : ∀ {s i u status}, R.findById s i = .ok (some u) → (0 : UInt8) ∉ status →
    ∃ s', R.update (u.setStatus status) s = .ok s' ∧
      R.Rewrites u.id (·.setStatus status) s s'
  recordLoginFailure : ∀ {s u} now, R.findById s u.id = .ok (some u) →
    ∃ s', R.recordLoginFailure u.id now s = .ok s' ∧ R.Rewrites u.id (User.countFailure now) s s'
  resetLoginFailures : ∀ {s u}, R.findById s u.id = .ok (some u) →
    ∃ s', R.resetLoginFailures u.id s = .ok s' ∧ R.Rewrites u.id (·.setLockout 0 0) s s'

/-- How names find their users, in the states whose index of names is sound. -/
structure Named (R : UserRepository) (text : Bytes → Bytes) (Indexed : R.State → Prop) : Prop where
  empty : Indexed R.empty ∧ ∀ n, R.findByUsername R.empty n = .ok none
  username : ∀ {s n u}, Indexed s → R.findByUsername s n = .ok (some u) → u.username = text n
  save : ∀ {u h s s'}, Indexed s → R.save u h s = .ok s' → Indexed s' ∧
    ∀ n, R.findByUsername s' n =
      if text n = text u.username then some <$> u.stored text else R.findByUsername s n
  update : ∀ {u s s'}, Indexed s → R.update u s = .ok s' → Indexed s'
  recordLoginFailure : ∀ {id now s s'}, Indexed s → R.recordLoginFailure id now s = .ok s' →
    Indexed s'
  resetLoginFailures : ∀ {id s s'}, Indexed s → R.resetLoginFailures id s = .ok s' → Indexed s'

section Found

variable {R : UserRepository} {s s' : R.State} {i : UserId} {u : User}

theorem Rewrites.findById_some {id : UserId} {g : User → User} (h : R.Rewrites id g s s')
    (hu : R.findById s i = .ok (some u)) : R.findById s' i = .ok (some (User.rewrite id g u)) := by
  rw [h.findById, hu]
  rfl

/-- A user that is not the rewritten one is found as it was. -/
theorem Rewrites.findById_of_ne {id : UserId} {g : User → User} (h : R.Rewrites id g s s')
    (hu : R.findById s i = .ok (some u)) (hne : u.id ≠ id) : R.findById s' i = .ok (some u) := by
  rw [h.findById_some hu, User.rewrite, if_neg hne]

/-- What is found after a rewrite was found before it. -/
theorem Rewrites.exists_of_findById {id : UserId} {g : User → User} (h : R.Rewrites id g s s')
    (hu : R.findById s' i = .ok (some u)) :
    ∃ v, R.findById s i = .ok (some v) ∧ u = User.rewrite id g v := by
  rw [h.findById] at hu
  cases hfound : R.findById s i with
  | error e =>
      rw [hfound] at hu
      cases hu
  | ok found =>
      rw [hfound] at hu
      cases found with
      | none => cases hu
      | some v => exact ⟨v, rfl, (Option.some.inj (Except.ok.inj hu)).symm⟩

/-- What was found is still found after a new user. -/
theorem Adds.findById_some {text : Bytes → Bytes} {v : User} {encodedHash : Bytes}
    (h : R.Adds text v encodedHash s s') (hu : R.findById s i = .ok (some u)) :
    R.findById s' i = .ok (some u) := by
  rw [h.findById, if_neg]
  · exact hu
  · intro htext
    rw [h.absent i htext] at hu
    cases hu

end Found

end UserRepository

/-! ## In memory -/

namespace MemoryUserRepository

variable {m : MemoryUserRepository}

theorem stored_id (u : User) : u.stored id = .ok u := by
  simp [User.stored, User.new, u.nonempty]

theorem id_of_lookup {k : Bytes} {u : User} (h : m.usersById.lookup k = some u) : u.id = ⟨k⟩ := by
  have hkey := m.keyed k u h
  cases hid : u.id with
  | mk value => simp_all

/-- A user put in the place of itself is rewritten. -/
theorem rewrites_put {u : User} {g : User → User} (hu : m.usersById.lookup u.id.value = some u)
    (hg : (g u).id = u.id) : memoryUsers.Rewrites u.id g m (m.put (g u)) := by
  have hlookup : ∀ k, (m.put (g u)).usersById.lookup k =
      (m.usersById.lookup k).map (User.rewrite u.id g) := by
    intro k
    show (m.usersById.insert (g u).id.value (g u)).lookup k = _
    rw [Table.lookup_insert_eq, hg]
    split
    · rename_i hk
      rw [hk, hu]
      simp [User.rewrite]
    · rename_i hk
      cases hv : m.usersById.lookup k with
      | none => rfl
      | some v =>
          have hne : v.id ≠ u.id := by
            rw [id_of_lookup hv]
            exact fun heq => hk (congrArg UserId.value heq)
          simp [User.rewrite, hne]
  refine ⟨fun i => ?_, fun n => ?_, fun i => rfl⟩
  · show Except.ok _ = Except.ok _
    rw [hlookup]
  · show Except.ok _ = Except.ok _
    have hindex : (m.put (g u)).usernameToId = m.usernameToId := rfl
    rw [hindex]
    cases m.usernameToId.lookup n with
    | none => rfl
    | some k => exact congrArg Except.ok (hlookup k)

theorem adds_save {u : User} {encodedHash : Bytes} {m' : MemoryUserRepository}
    (h : save u encodedHash m = .ok m') : memoryUsers.Adds id u encodedHash m m' := by
  have hput := save_ok h
  unfold save at h
  split at h
  · cases h
  split at h
  · cases h
  split at h
  · cases h
  rename_i habsent
  have hnone : m.usersById.lookup u.id.value = none := by simpa using habsent
  refine ⟨fun i => ?_, fun i => ?_, fun i hi => ?_⟩
  · show Except.ok (m'.usersById.lookup i.value) = _
    rw [hput]
    show Except.ok ((m.usersById.insert u.id.value u).lookup i.value) = _
    rw [Table.lookup_insert_eq, stored_id]
    by_cases hi : i.value = u.id.value
    · rw [if_pos hi, if_pos (show id i.value = id u.id.value from hi)]
      rfl
    · rw [if_neg hi, if_neg (show ¬ id i.value = id u.id.value from hi)]
      rfl
  · cases h
    show getEncodedHash _ i = _
    by_cases hi : i.value = u.id.value
    · rw [if_pos (show id i.value = id u.id.value from hi)]
      simp [getEncodedHash, Table.lookup_insert_eq, hi]
    · rw [if_neg (show ¬ id i.value = id u.id.value from hi)]
      simp [memoryUsers, getEncodedHash, hi]
  · show Except.ok (m.usersById.lookup i.value) = _
    rw [show i.value = u.id.value from hi, hnone]

theorem withLockout_rewrites {u : User} {lockout : User → Int × Int}
    (h : m.findById u.id = .ok (some u)) :
    ∃ m', withLockout u.id lockout m = .ok m' ∧
      memoryUsers.Rewrites u.id (fun v => v.setLockout (lockout v).1 (lockout v).2) m m' := by
  have hu := findById_eq_some_iff.1 h
  refine ⟨m.put (u.setLockout (lockout u).1 (lockout u).2), by simp [withLockout, hu], ?_⟩
  exact rewrites_put (g := fun v => v.setLockout (lockout v).1 (lockout v).2) hu rfl

theorem update_setStatus {u : User} {status : Bytes}
    (hu : m.usersById.lookup u.id.value = some u) :
    update (u.setStatus status) m = .ok (m.put (u.setStatus status)) := by
  have hold : m.usersById.lookup (u.setStatus status).id.value = some u := hu
  unfold update
  split
  · simp_all
  · rename_i old hfound
    obtain rfl : u = old := Option.some.inj (hold.symm.trans hfound)
    exact if_neg (by simp [User.setStatus])

theorem accounts : memoryUsers.Accounts id where
  id_of_findById h := by
    rw [id_of_lookup (findById_eq_some_iff.1 h)]
    rfl
  findById_text h := by
    have hu := findById_eq_some_iff.1 h
    rw [id_of_lookup hu]
    exact findById_eq_some_iff.2 hu
  listAll := by
    intro m us h
    obtain rfl : m.usersById.values = us := by simpa [memoryUsers, listAll] using h
    have hids : m.usersById.values.map User.id = m.usersById.keys.map UserId.mk := by
      simp only [Table.values, AList.keys, List.keys, List.map_map]
      refine List.map_congr_left fun kv hkv => ?_
      exact id_of_lookup (AList.mem_lookup_iff.2 hkv)
    refine ⟨fun u hu => ?_, ?_⟩
    · obtain ⟨k, hk⟩ := Table.mem_values_iff.1 hu
      rw [id_of_lookup hk]
      exact findById_eq_some_iff.2 hk
    · rw [hids]
      exact (AList.keys_nodup m.usersById).map fun a b hab => congrArg UserId.value hab
  mem_listAll := by
    intro m us i u h hfound
    obtain rfl : m.usersById.values = us := by simpa [memoryUsers, listAll] using h
    exact Table.mem_values_iff.2 ⟨_, findById_eq_some_iff.1 hfound⟩
  save h := adds_save h
  update := by
    intro m i u status h _
    have hu := findById_eq_some_iff.1 h
    have hid := id_of_lookup hu
    have hu' : m.usersById.lookup u.id.value = some u := by
      rw [hid]
      exact hu
    exact ⟨m.put (u.setStatus status), update_setStatus hu',
      rewrites_put (g := fun v => v.setStatus status) hu' rfl⟩
  recordLoginFailure _ h := withLockout_rewrites h
  resetLoginFailures h := withLockout_rewrites h

/-- The index of names leads to users of those names. -/
def Indexed (m : MemoryUserRepository) : Prop :=
  ∀ n id, m.usernameToId.lookup n = some id →
    ∃ u, m.usersById.lookup id = some u ∧ u.username = n

theorem findByUsername_eq_some {n : Bytes} {u : User} (h : m.findByUsername n = .ok (some u)) :
    ∃ id, m.usernameToId.lookup n = some id ∧ m.usersById.lookup id = some u := by
  simpa [findByUsername, findByIndex, Option.bind_eq_some_iff] using h

/-- A user put in the place of one of the same name. -/
theorem indexed_put {u v : User} (h : m.Indexed) (hu : m.usersById.lookup v.id.value = some u)
    (hname : v.username = u.username) : (m.put v).Indexed := by
  intro n id hid
  obtain ⟨w, hw, hwn⟩ := h n id hid
  show ∃ x, (m.usersById.insert v.id.value v).lookup id = some x ∧ x.username = n
  rw [Table.lookup_insert_eq]
  split
  · rename_i heq
    subst heq
    obtain rfl : u = w := Option.some.inj (hu.symm.trans hw)
    exact ⟨v, rfl, hname.trans hwn⟩
  · exact ⟨w, hw, hwn⟩

theorem indexed_withLockout {id : UserId} {f : User → Int × Int} {m' : MemoryUserRepository}
    (h : m.Indexed) (hw : withLockout id f m = .ok m') : m'.Indexed := by
  obtain ⟨u, hu, hid, rfl⟩ := withLockout_ok hw
  refine indexed_put (u := u) h ?_ rfl
  show m.usersById.lookup u.id.value = some u
  rw [hid]
  exact hu

theorem indexed_update {u : User} {m' : MemoryUserRepository} (h : m.Indexed)
    (hupdate : m.update u = .ok m') : m'.Indexed := by
  simp only [MemoryUserRepository.update] at hupdate
  split at hupdate
  · cases hupdate
  · rename_i old hold
    split at hupdate
    · cases hupdate
    · cases hupdate
      exact indexed_put h hold (by simp_all)

theorem usernameToId_save {u : User} {encoded : Bytes} {m' : MemoryUserRepository}
    (hsave : save u encoded m = .ok m') :
    m'.usernameToId = m.usernameToId.insert u.username u.id.value := by
  simp only [save] at hsave
  split at hsave
  · cases hsave
  split at hsave
  · cases hsave
  split at hsave
  · cases hsave
  · cases hsave
    rfl

/-- An entry of the index from before `save` never leads to the new user. -/
theorem ne_id_of_save {u : User} {encoded n id : Bytes} {m' : MemoryUserRepository} (h : m.Indexed)
    (hsave : save u encoded m = .ok m') (hid : m.usernameToId.lookup n = some id) :
    id ≠ u.id.value := by
  rintro rfl
  have habsent : m.findById u.id = .ok none := (adds_save hsave).absent u.id rfl
  have hnone : m.usersById.lookup u.id.value = none := by
    simpa [findById] using habsent
  obtain ⟨v, hv, -⟩ := h n u.id.value hid
  rw [hnone] at hv
  cases hv

theorem indexed_save {u : User} {encoded : Bytes} {m' : MemoryUserRepository} (h : m.Indexed)
    (hsave : save u encoded m = .ok m') : m'.Indexed := by
  intro n id hid
  rw [usernameToId_save hsave, Table.lookup_insert_eq] at hid
  rw [save_ok hsave]
  show ∃ v, (m.usersById.insert u.id.value u).lookup id = some v ∧ v.username = n
  rw [Table.lookup_insert_eq]
  split at hid
  · rename_i hn
    cases hid
    exact ⟨u, if_pos rfl, hn.symm⟩
  · rw [if_neg (ne_id_of_save h hsave hid)]
    exact h n id hid

theorem findByUsername_save {u : User} {encoded : Bytes} {m' : MemoryUserRepository}
    (h : m.Indexed) (hsave : save u encoded m = .ok m') (n : Bytes) :
    m'.findByUsername n = if n = u.username then .ok (some u) else m.findByUsername n := by
  show Except.ok ((m'.usernameToId.lookup n).bind fun id => m'.usersById.lookup id) = _
  rw [usernameToId_save hsave, save_ok hsave]
  by_cases hn : n = u.username
  · rw [if_pos hn, hn]
    simp [put]
  · rw [if_neg hn, Table.lookup_insert_eq, if_neg hn]
    show _ = Except.ok ((m.usernameToId.lookup n).bind fun id => m.usersById.lookup id)
    cases hid : m.usernameToId.lookup n with
    | none => rfl
    | some id =>
        show Except.ok ((m.usersById.insert u.id.value u).lookup id) = _
        rw [Table.lookup_insert_eq, if_neg (ne_id_of_save h hsave hid)]
        rfl

theorem named : memoryUsers.Named id Indexed where
  empty := ⟨fun n id h => (by cases h), fun n => rfl⟩
  username := by
    intro m n u h hfound
    obtain ⟨id, hid, hu⟩ := findByUsername_eq_some hfound
    obtain ⟨v, hv, hvn⟩ := h n id hid
    obtain rfl : u = v := Option.some.inj (hu.symm.trans hv)
    exact hvn
  save := by
    intro u encoded m m' h hsave
    refine ⟨indexed_save h hsave, fun n => ?_⟩
    rw [stored_id]
    exact findByUsername_save h hsave n
  update h hupdate := indexed_update h hupdate
  recordLoginFailure h hw := indexed_withLockout h hw
  resetLoginFailures h hw := indexed_withLockout h hw

end MemoryUserRepository

/-! ## In SQLite -/

namespace SqliteUserRepository

variable {t : SqliteUserRepository}

/-- An update of one row whose new columns read back as the rewritten user. -/
theorem findByColumn_updateWhere {col : UserRow → Text} {id : UserId} {g : User → User}
    {f : UserRow → UserRow} {hid : ∀ r, (f r).id = r.id}
    {hname : ∀ r, (f r).username = r.username} {hmail : ∀ r, (f r).email = r.email}
    (hzero : (0 : UInt8) ∉ id.value) (hcol : ∀ r, col (f r) = col r)
    (hf : ∀ r ∈ t.rows, r.id = Text.bind id.value → (f r).toUser = r.toUser.map g) (val : Bytes) :
    (t.updateWhere id.value f hid hname hmail).findByColumn col val =
      (t.findByColumn col val).map (Option.map (User.rewrite id g)) := by
  have hcol' : ∀ r, col (if r.id = Text.bind id.value then f r else r) = col r := by
    intro r
    split
    · exact hcol r
    · rfl
  simp only [findByColumn, updateWhere, List.find?_map, Function.comp_def, hcol']
  cases hfind : t.rows.find? (fun r => col r = Text.bind val) with
  | none => rfl
  | some r =>
      have hr := List.mem_of_find?_eq_some hfind
      -- the row is the updated one exactly when its user has the id
      have hbind : (Text.bind id.value).1 = id.value := cstr_of_not_mem hzero
      simp only [Option.map_some]
      split
      · rename_i heq
        rw [hf r hr heq]
        cases hu : r.toUser with
        | error e => rfl
        | ok u =>
            have huid : u.id = id := by
              rw [id_of_toUser hu, heq, hbind]
            simp [Except.map, User.rewrite, huid]
      · rename_i hne
        cases hu : r.toUser with
        | error e => rfl
        | ok u =>
            have huid : u.id ≠ id := by
              rw [id_of_toUser hu]
              rintro rfl
              exact hne (Text.bind_val r.id).symm
            simp [Except.map, User.rewrite, huid]

theorem getEncodedHash_updateWhere {id : Bytes} {f : UserRow → UserRow}
    {hid : ∀ r, (f r).id = r.id} {hname : ∀ r, (f r).username = r.username}
    {hmail : ∀ r, (f r).email = r.email} (hhash : ∀ r, (f r).passHash = r.passHash) (i : UserId) :
    (t.updateWhere id f hid hname hmail).getEncodedHash i = t.getEncodedHash i := by
  have hid' : ∀ r, (if r.id = Text.bind id then f r else r).id = r.id := by
    intro r
    split
    · exact hid r
    · rfl
  simp only [getEncodedHash, updateWhere, List.find?_map, Function.comp_def, hid']
  cases t.rows.find? (fun r => r.id = Text.bind i.value) with
  | none => rfl
  | some r =>
      simp only [Option.map_some]
      split
      · rw [hhash]
      · rfl

/-- An update of the row of a user rewrites that user. -/
theorem rewrites_updateWhere {u : User} {g : User → User} {f : UserRow → UserRow}
    {hid : ∀ r, (f r).id = r.id} {hname : ∀ r, (f r).username = r.username}
    {hmail : ∀ r, (f r).email = r.email} (hhash : ∀ r, (f r).passHash = r.passHash)
    (hu : t.findById u.id = .ok (some u))
    (hf : ∀ r, r.toUser = .ok u → (f r).toUser = .ok (g u)) :
    sqliteUsers.Rewrites u.id g t (t.updateWhere u.id.value f hid hname hmail) := by
  obtain ⟨r₀, hr₀, hrow, hr₀u⟩ := findByColumn_eq_some hu
  have hzero : (0 : UInt8) ∉ u.id.value := by
    rw [id_of_toUser hr₀u]
    exact r₀.id.2
  have hf' : ∀ r ∈ t.rows, r.id = Text.bind u.id.value → (f r).toUser = r.toUser.map g := by
    intro r hr heq
    obtain rfl : r = r₀ := t.id.inj hr hr₀ (heq.trans hrow.symm)
    rw [hf r hr₀u, hr₀u]
    rfl
  exact
    { findById := fun i => findByColumn_updateWhere hzero hid hf' i.value
      findByUsername := fun n => findByColumn_updateWhere hzero hname hf' n
      getEncodedHash := fun i => getEncodedHash_updateWhere hhash i }

/-- The columns of a row are the fields of its user. -/
theorem toUser_eq_ok {r : UserRow} {u : User} (h : r.toUser = .ok u) :
    u.username = r.username.1 ∧ u.email = r.email.1 ∧ u.role = r.role.1 ∧ u.status = r.status.1 ∧
      u.failedAttempts = r.failedAttempts ∧ u.lockoutUntil = r.lockoutUntil := by
  simp only [UserRow.toUser, User.new] at h
  split at h
  · cases h
    exact ⟨rfl, rfl, rfl, rfl, rfl, rfl⟩
  · cases h

/-- New unconstrained columns read back as the fields they hold. -/
theorem toUser_with {r : UserRow} {u : User} (h : r.toUser = .ok u) (role status : Text)
    (fails lockout : Int) :
    ({ r with role := role, status := status, failedAttempts := fails, lockoutUntil := lockout } :
      UserRow).toUser =
      .ok { u with role := role.1, status := status.1, failedAttempts := fails, lockoutUntil := lockout } := by
  simp only [UserRow.toUser, User.new] at h ⊢
  split at h
  · rename_i hne
    cases h
    rw [dif_pos hne]
  · cases h

theorem adds_save {u : User} {encodedHash : Bytes} {t' : SqliteUserRepository}
    (h : save u encodedHash t = .ok t') : sqliteUsers.Adds cstr u encodedHash t t' := by
  have hrows := save_ok h
  have hnew : ∀ r ∈ t.rows, r.id ≠ Text.bind u.id.value := by
    simp only [save] at h
    split at h
    · rename_i hfree
      exact fun r hr => (hfree r hr).1
    · cases h
  have hbind : ∀ i : UserId, Text.bind i.value = Text.bind u.id.value ↔
      cstr i.value = cstr u.id.value :=
    fun i => Subtype.ext_iff
  have hnone : ∀ i : UserId, cstr i.value = cstr u.id.value →
      t.rows.find? (fun r => r.id = Text.bind i.value) = none := by
    intro i hi
    rw [List.find?_eq_none]
    intro r hr
    rw [(hbind i).2 hi]
    simpa using hnew r hr
  -- the query by id on the longer table
  have hfind : ∀ i : UserId, t'.rows.find? (fun r => r.id = Text.bind i.value) =
      if cstr i.value = cstr u.id.value then some (UserRow.ofUser u encodedHash)
      else t.rows.find? (fun r => r.id = Text.bind i.value) := by
    intro i
    rw [hrows, List.find?_append]
    by_cases hi : cstr i.value = cstr u.id.value
    · rw [if_pos hi, hnone i hi]
      simp [UserRow.ofUser, (hbind i).2 hi]
    · have hne : (UserRow.ofUser u encodedHash).id ≠ Text.bind i.value := fun heq =>
        hi ((hbind i).1 heq.symm)
      rw [if_neg hi, List.find?_cons_of_neg (by simpa using hne)]
      simp
  refine ⟨fun i => ?_, fun i => ?_, fun i hi => ?_⟩
  · show t'.findByColumn UserRow.id i.value = _
    by_cases hi : cstr i.value = cstr u.id.value
    · rw [findByColumn, hfind, if_pos hi, if_pos hi]
      rfl
    · rw [findByColumn, hfind, if_neg hi, if_neg hi]
      rfl
  · show t'.getEncodedHash i = _
    by_cases hi : cstr i.value = cstr u.id.value
    · rw [getEncodedHash, hfind, if_pos hi, if_pos hi]
      rfl
    · rw [getEncodedHash, hfind, if_neg hi, if_neg hi]
      rfl
  · show t.findByColumn UserRow.id i.value = _
    rw [findByColumn, hnone i hi]

theorem mapM_toUser {rows : List UserRow} {us : List User}
    (h : rows.mapM UserRow.toUser = .ok us) :
    (∀ u, u ∈ us ↔ ∃ r ∈ rows, r.toUser = .ok u) ∧
      us.map User.id = rows.map fun r => ⟨r.id.1⟩ := by
  induction rows generalizing us with
  | nil =>
      cases h
      simp
  | cons r rows ih =>
      rw [List.mapM_cons] at h
      cases hr : r.toUser with
      | error e => simp [hr, bind, Except.bind] at h
      | ok u =>
          cases hrows : rows.mapM UserRow.toUser with
          | error e => simp [hr, hrows, bind, Except.bind] at h
          | ok vs =>
              obtain rfl : u :: vs = us := by
                simpa [hr, hrows, bind, Except.bind, pure, Except.pure] using h
              obtain ⟨hmem, hids⟩ := ih hrows
              refine ⟨fun v => ?_, by rw [List.map_cons, List.map_cons, hids, id_of_toUser hr]⟩
              simp [hmem, hr, eq_comm]

theorem setLockout_rewrites {u : User} {g : User → User} {fails lockout : Int}
    (hu : t.findById u.id = .ok (some u)) (hg : g u = u.setLockout lockout fails) :
    sqliteUsers.Rewrites u.id g t (t.setLockout u.id fails lockout) := by
  refine rewrites_updateWhere (fun _ => rfl) hu fun r hr => ?_
  rw [toUser_with hr r.role r.status fails lockout, hg]
  obtain ⟨-, -, hrole, hstatus, -⟩ := toUser_eq_ok hr
  rw [← hrole, ← hstatus]
  rfl

/-- The table after `update` on a user whose status was set. -/
def updateStatus (t : SqliteUserRepository) (u : User) (status : Bytes) : SqliteUserRepository :=
  t.updateWhere u.id.value
    (fun r =>
      { r with
        role := Text.bind u.role
        status := Text.bind status
        failedAttempts := u.failedAttempts
        lockoutUntil := u.lockoutUntil })
    (fun _ => rfl) (fun _ => rfl) (fun _ => rfl)

theorem update_setStatus {u : User} {status : Bytes} (hu : t.findById u.id = .ok (some u)) :
    update (u.setStatus status) t = .ok (t.updateStatus u status) := by
  have hfound : t.findById (u.setStatus status).id = .ok (some u) := hu
  rw [update, hfound]
  exact if_neg (by simp [User.setStatus])

theorem updateStatus_rewrites {u : User} {status : Bytes} (hu : t.findById u.id = .ok (some u))
    (hstatus : (0 : UInt8) ∉ status) :
    sqliteUsers.Rewrites u.id (·.setStatus status) t (t.updateStatus u status) := by
  refine rewrites_updateWhere (fun _ => rfl) hu fun r hr => ?_
  obtain ⟨-, -, hrole, -⟩ := toUser_eq_ok hr
  have hrole' : (Text.bind u.role).1 = u.role := by rw [hrole, Text.bind_val]
  have hstatus' : (Text.bind status).1 = status := cstr_of_not_mem hstatus
  rw [toUser_with hr, hrole', hstatus']
  rfl

theorem accounts : sqliteUsers.Accounts cstr where
  id_of_findById h := by
    obtain ⟨r, -, hrow, hu⟩ := findByColumn_eq_some h
    rw [id_of_toUser hu, hrow]
    rfl
  findById_text h := by
    obtain ⟨r, hr, -, hu⟩ := findByColumn_eq_some h
    rw [id_of_toUser hu]
    exact findById_of_mem hr hu
  listAll := by
    intro t us h
    obtain ⟨hmem, hids⟩ := mapM_toUser h
    refine ⟨fun u hu => ?_, ?_⟩
    · obtain ⟨r, hr, hru⟩ := (hmem u).1 hu
      rw [id_of_toUser hru]
      exact findById_of_mem hr hru
    · rw [hids]
      have hcomp : t.rows.map (fun r => (⟨r.id.1⟩ : UserId)) =
          (t.rows.map UserRow.id).map fun i => ⟨i.1⟩ := by
        simp
      rw [hcomp]
      exact List.Nodup.map (fun a b hab => Subtype.ext (congrArg UserId.value hab)) t.id
  mem_listAll := by
    intro t us i u h hfound
    obtain ⟨r, hr, -, hu⟩ := findByColumn_eq_some hfound
    exact ((mapM_toUser h).1 u).2 ⟨r, hr, hu⟩
  save h := adds_save h
  update := by
    intro t i u status h hstatus
    obtain ⟨r, hr, -, hu⟩ := findByColumn_eq_some h
    have hfound : t.findById u.id = .ok (some u) := by
      rw [id_of_toUser hu]
      exact findById_of_mem hr hu
    exact ⟨_, update_setStatus hfound, updateStatus_rewrites hfound hstatus⟩
  recordLoginFailure := by
    intro t u now h
    obtain ⟨r, hr, hrow, hu⟩ := findByColumn_eq_some h
    obtain ⟨-, -, -, -, hfails, hlockout⟩ := toUser_eq_ok hu
    have hfind : t.rows.find? (fun r => r.id = Text.bind u.id.value) = some r :=
      t.id.find?_iff.2 ⟨hr, hrow⟩
    refine ⟨_, ?_, setLockout_rewrites (g := User.countFailure now) h rfl⟩
    simp only [sqliteUsers, SqliteUserRepository.recordLoginFailure, hfind, hfails, hlockout]
  resetLoginFailures h := ⟨_, rfl, setLockout_rewrites h rfl⟩

theorem findByUsername_save {u : User} {encodedHash : Bytes} {t' : SqliteUserRepository}
    (h : save u encodedHash t = .ok t') (n : Bytes) : t'.findByUsername n =
      if cstr n = cstr u.username then some <$> u.stored cstr else t.findByUsername n := by
  have hrows := save_ok h
  have hnew : ∀ r ∈ t.rows, r.username ≠ Text.bind u.username := by
    simp only [save] at h
    split at h
    · rename_i hfree
      exact fun r hr => (hfree r hr).2.1
    · cases h
  have hbind : Text.bind n = Text.bind u.username ↔ cstr n = cstr u.username := Subtype.ext_iff
  show t'.findByColumn UserRow.username n = _
  by_cases hn : cstr n = cstr u.username
  · have hnone : t.rows.find? (fun r => r.username = Text.bind n) = none := by
      rw [List.find?_eq_none]
      intro r hr
      rw [hbind.2 hn]
      simpa using hnew r hr
    have hmatch : (UserRow.ofUser u encodedHash).username = Text.bind n := (hbind.2 hn).symm
    rw [if_pos hn, findByColumn, hrows, List.find?_append, hnone,
      List.find?_cons_of_pos (by simpa using hmatch)]
    rfl
  · have hne : (UserRow.ofUser u encodedHash).username ≠ Text.bind n := fun heq =>
      hn (hbind.1 heq.symm)
    rw [if_neg hn, findByColumn, hrows, List.find?_append,
      List.find?_cons_of_neg (by simpa using hne), List.find?_nil, Option.or_none]
    rfl

theorem named : sqliteUsers.Named cstr fun _ => True where
  empty := ⟨trivial, fun n => rfl⟩
  username := by
    intro t n u _ hfound
    obtain ⟨r, -, hrow, hu⟩ := findByColumn_eq_some hfound
    rw [(toUser_eq_ok hu).1, hrow]
    rfl
  save _ hsave := ⟨trivial, findByUsername_save hsave⟩
  update _ _ := trivial
  recordLoginFailure _ _ := trivial
  resetLoginFailures _ _ := trivial

end SqliteUserRepository

theorem Backend.text_of_zero_free {b : Backend} {s : Bytes} (h : (0 : UInt8) ∉ s) : b.text s = s := by
  cases b with
  | memory => rfl
  | sqlite => exact cstr_of_not_mem h

/-- The states whose index of names is sound; a table needs no index. -/
def Backend.Indexed : (b : Backend) → b.users.State → Prop
  | memory => MemoryUserRepository.Indexed
  | sqlite => fun _ => True

theorem Backend.users_named : (b : Backend) → b.users.Named b.text b.Indexed
  | memory => MemoryUserRepository.named
  | sqlite => SqliteUserRepository.named

theorem Backend.users_accounts : (b : Backend) → b.users.Accounts b.text
  | memory => MemoryUserRepository.accounts
  | sqlite => SqliteUserRepository.accounts

end SecureFileTransfer
