import SecureFileTransfer.Domain
import SecureFileTransfer.Lib.Tables

/-!
# UserRepository — the user directory and its two implementations

`IUserRepository`, `MemoryUserRepository` and `SqliteUserRepository`.  A query returns `none` where
the source returns `Result::failure("not found")`.  A row read from the database goes through the
`User` constructor, which can throw.
-/

namespace SecureFileTransfer

/-- `IUserRepository`, the operations the services call. -/
structure UserRepository where
  State : Type
  empty : State
  findByUsername : State → Bytes → Except Exn (Option User)
  findByEmail : State → Bytes → Except Exn (Option User)
  findById : State → UserId → Except Exn (Option User)
  save : User → Bytes → State → Except Exn State
  update : User → State → Except Exn State
  recordLoginFailure : UserId → Int → State → Except Exn State
  resetLoginFailures : UserId → State → Except Exn State
  getEncodedHash : State → UserId → Except Exn Bytes
  listAll : State → Except Exn (List User)

/-- `15*60*1000` -/
def lockoutMs : Int := 15 * 60 * 1000

/-- `fails >= 5 ? now + 15*60*1000 : lockoutUntil` -/
def lockoutAfter (fails now lockout : Int) : Int :=
  if fails ≥ 5 then int64 (now + lockoutMs) else lockout

/-- `failedAttempts + 1` -/
def nextFailure (fails : Int) : Int := int32 (fails + 1)

/-! ## In memory -/

/-- Every user stands under its own id. -/
structure MemoryUserRepository where
  usersById : Table User
  usernameToId : Table Bytes
  emailToId : Table Bytes
  hashById : Table Bytes
  keyed : ∀ k u, usersById.lookup k = some u → u.id.value = k

namespace MemoryUserRepository

def empty : MemoryUserRepository where
  usersById := ∅
  usernameToId := ∅
  emailToId := ∅
  hashById := ∅
  keyed := by simp

/-- The user stored under its own id, as `it->second = u` and `setLockout` leave it. -/
def put (m : MemoryUserRepository) (u : User) : MemoryUserRepository :=
  { m with
    usersById := m.usersById.insert u.id.value u
    keyed := by
      -- the key of the entry is the id of its user, for the new entry and for the old ones
      intro k v hv
      rw [Table.lookup_insert_eq] at hv
      split at hv
      · cases hv
        exact Eq.symm ‹_›
      · exact m.keyed k v hv }

/-- A lookup through one of the two indexes. -/
def findByIndex (m : MemoryUserRepository) (index : Table Bytes) (key : Bytes) :
    Except Exn (Option User) :=
  .ok ((index.lookup key).bind fun id => m.usersById.lookup id)

def findByUsername (m : MemoryUserRepository) (n : Bytes) : Except Exn (Option User) :=
  m.findByIndex m.usernameToId n

def findByEmail (m : MemoryUserRepository) (e : Bytes) : Except Exn (Option User) :=
  m.findByIndex m.emailToId e

def findById (m : MemoryUserRepository) (id : UserId) : Except Exn (Option User) :=
  .ok (m.usersById.lookup id.value)

def save (u : User) (encodedHash : Bytes) (m : MemoryUserRepository) :
    Except Exn MemoryUserRepository :=
  -- the source answers in this order: name, mail, id
  if (m.usernameToId.lookup u.username).isSome then
    .error (.validation "username exists")
  else if (m.emailToId.lookup u.email).isSome then
    .error (.validation "email exists")
  else if (m.usersById.lookup u.id.value).isSome then
    .error (.validation "id exists")
  else
    .ok
      { m.put u with
        usernameToId := m.usernameToId.insert u.username u.id.value
        emailToId := m.emailToId.insert u.email u.id.value
        hashById := m.hashById.insert u.id.value encodedHash }

def update (u : User) (m : MemoryUserRepository) : Except Exn MemoryUserRepository :=
  match m.usersById.lookup u.id.value with
  | none => .error (.notFound "not found")
  | some old =>
      if old.username ≠ u.username ∨ old.email ≠ u.email then
        .error (.validation "username/email immutable")
      else
        .ok (m.put u)

/-- `setLockout` on the stored user. -/
def withLockout (id : UserId) (lockout : User → Int × Int) (m : MemoryUserRepository) :
    Except Exn MemoryUserRepository :=
  match m.usersById.lookup id.value with
  | none => .error (.notFound "not found")
  | some u => .ok (m.put (u.setLockout (lockout u).1 (lockout u).2))

def recordLoginFailure (id : UserId) (now : Int) :
    MemoryUserRepository → Except Exn MemoryUserRepository :=
  withLockout id fun u =>
    let fails := nextFailure u.failedAttempts
    (lockoutAfter fails now u.lockoutUntil, fails)

/-- `recordLoginFailure(const UserId&, int, int64_t)` -/
def recordLoginFailureUntil (id : UserId) (f until' : Int) :
    MemoryUserRepository → Except Exn MemoryUserRepository :=
  withLockout id fun _ => (until', f)

def resetLoginFailures (id : UserId) : MemoryUserRepository → Except Exn MemoryUserRepository :=
  withLockout id fun _ => (0, 0)

def updateHash (id : UserId) (h : Bytes) (m : MemoryUserRepository) :
    Except Exn MemoryUserRepository :=
  if (m.usersById.lookup id.value).isSome then
    .ok { m with hashById := m.hashById.insert id.value h }
  else
    .error (.notFound "not found")

def getEncodedHash (m : MemoryUserRepository) (id : UserId) : Except Exn Bytes :=
  match m.hashById.lookup id.value with
  | none => .error (.notFound "hash not found")
  | some h => .ok h

def listAll (m : MemoryUserRepository) : Except Exn (List User) :=
  .ok m.usersById.values

end MemoryUserRepository

/-! ## In SQLite -/

structure UserRow where
  id : Text
  username : Text
  email : Text
  passHash : Text
  role : Text
  status : Text
  failedAttempts : Int
  lockoutUntil : Int
  deriving DecidableEq

/-- The `users` table with its `PRIMARY KEY` and `UNIQUE` constraints. -/
structure SqliteUserRepository where
  rows : List UserRow
  id : Unique UserRow.id rows
  username : Unique UserRow.username rows
  email : Unique UserRow.email rows

namespace UserRow

/-- The constructor call on the columns of a row. -/
def toUser (r : UserRow) : Except Exn User :=
  User.new ⟨r.id.1⟩ r.username.1 r.email.1 r.role.1 r.status.1 r.failedAttempts r.lockoutUntil

def ofUser (u : User) (encodedHash : Bytes) : UserRow where
  id := Text.bind u.id.value
  username := Text.bind u.username
  email := Text.bind u.email
  passHash := Text.bind encodedHash
  role := Text.bind u.role
  status := Text.bind u.status
  failedAttempts := u.failedAttempts
  lockoutUntil := u.lockoutUntil

end UserRow

namespace SqliteUserRepository

def empty : SqliteUserRepository := ⟨[], Unique.nil, Unique.nil, Unique.nil⟩

/-- `UPDATE users SET ... WHERE id=?` for columns that carry no constraint. -/
def updateWhere (t : SqliteUserRepository) (id : Bytes) (f : UserRow → UserRow)
    (hid : ∀ r, (f r).id = r.id) (hname : ∀ r, (f r).username = r.username)
    (hmail : ∀ r, (f r).email = r.email) : SqliteUserRepository where
  rows := t.rows.map fun r => if r.id = Text.bind id then f r else r
  -- columns with a constraint are not written, so the table stays a table
  id := t.id.map fun r => by split <;> simp [hid]
  username := t.username.map fun r => by split <;> simp [hname]
  email := t.email.map fun r => by split <;> simp [hmail]

def findByColumn (t : SqliteUserRepository) (col : UserRow → Text) (val : Bytes) :
    Except Exn (Option User) :=
  match t.rows.find? fun r => col r = Text.bind val with
  | none => .ok none
  -- a row with an empty name or mail makes the constructor throw
  | some r => some <$> r.toUser

def findByUsername (t : SqliteUserRepository) (n : Bytes) : Except Exn (Option User) :=
  t.findByColumn UserRow.username n

def findByEmail (t : SqliteUserRepository) (e : Bytes) : Except Exn (Option User) :=
  t.findByColumn UserRow.email e

def findById (t : SqliteUserRepository) (id : UserId) : Except Exn (Option User) :=
  t.findByColumn UserRow.id id.value

def save (u : User) (encodedHash : Bytes) (t : SqliteUserRepository) :
    Except Exn SqliteUserRepository :=
  let row := UserRow.ofUser u encodedHash
  if h : ∀ r ∈ t.rows, r.id ≠ row.id ∧ r.username ≠ row.username ∧ r.email ≠ row.email then
    .ok
      { rows := t.rows ++ [row]
        id := t.id.concat fun r hr => (h r hr).1
        username := t.username.concat fun r hr => (h r hr).2.1
        email := t.email.concat fun r hr => (h r hr).2.2 }
  else
    -- one message for all three constraints, the primary key included
    .error (.validation "username or email exists")

def update (u : User) (t : SqliteUserRepository) : Except Exn SqliteUserRepository := do
  match ← t.findById u.id with
  | none => throw (.notFound "not found")
  | some old =>
      if old.username ≠ u.username ∨ old.email ≠ u.email then
        throw (.validation "username/email immutable")
      else
        return t.updateWhere u.id.value
          (fun r =>
            { r with
              role := Text.bind u.role
              status := Text.bind u.status
              failedAttempts := u.failedAttempts
              lockoutUntil := u.lockoutUntil })
          (fun _ => rfl) (fun _ => rfl) (fun _ => rfl)

/-- `UPDATE users SET failed_attempts=?, lockout_until=? WHERE id=?` -/
def setLockout (t : SqliteUserRepository) (id : UserId) (fails lockout : Int) :
    SqliteUserRepository :=
  t.updateWhere id.value
    (fun r => { r with failedAttempts := fails, lockoutUntil := lockout })
    (fun _ => rfl) (fun _ => rfl) (fun _ => rfl)

def recordLoginFailure (id : UserId) (now : Int) (t : SqliteUserRepository) :
    Except Exn SqliteUserRepository :=
  match t.rows.find? fun r => r.id = Text.bind id.value with
  | none => .error (.notFound "not found")
  | some r =>
      -- read and written back in two statements
      let fails := nextFailure r.failedAttempts
      .ok (t.setLockout id fails (lockoutAfter fails now r.lockoutUntil))

/-- `recordLoginFailure(const UserId&, int, int64_t)`; ids are unique, so one row is updated or
none. -/
def recordLoginFailureUntil (id : UserId) (f until' : Int) (t : SqliteUserRepository) :
    Except Exn SqliteUserRepository :=
  if t.rows.any fun r => r.id = Text.bind id.value then
    .ok (t.setLockout id f until')
  else
    -- not the exception of the other overload
    .error (.runtime "no row updated")

-- an unknown id is no error here: the statement updates no row
def updateHash (id : UserId) (h : Bytes) (t : SqliteUserRepository) :
    Except Exn SqliteUserRepository :=
  .ok (t.updateWhere id.value (fun r => { r with passHash := Text.bind h })
    (fun _ => rfl) (fun _ => rfl) (fun _ => rfl))

-- nor here
def resetLoginFailures (id : UserId) (t : SqliteUserRepository) :
    Except Exn SqliteUserRepository :=
  .ok (t.setLockout id 0 0)

def getEncodedHash (t : SqliteUserRepository) (id : UserId) : Except Exn Bytes :=
  match t.rows.find? fun r => r.id = Text.bind id.value with
  | none => .error (.notFound "hash not found")
  | some r => .ok r.passHash.1

def listAll (t : SqliteUserRepository) : Except Exn (List User) :=
  t.rows.mapM UserRow.toUser

end SqliteUserRepository

/-! ## The two as implementations of the port -/

def memoryUsers : UserRepository where
  State := MemoryUserRepository
  empty := MemoryUserRepository.empty
  findByUsername := MemoryUserRepository.findByUsername
  findByEmail := MemoryUserRepository.findByEmail
  findById := MemoryUserRepository.findById
  save := MemoryUserRepository.save
  update := MemoryUserRepository.update
  recordLoginFailure := MemoryUserRepository.recordLoginFailure
  resetLoginFailures := MemoryUserRepository.resetLoginFailures
  getEncodedHash := MemoryUserRepository.getEncodedHash
  listAll := MemoryUserRepository.listAll

def sqliteUsers : UserRepository where
  State := SqliteUserRepository
  empty := SqliteUserRepository.empty
  findByUsername := SqliteUserRepository.findByUsername
  findByEmail := SqliteUserRepository.findByEmail
  findById := SqliteUserRepository.findById
  save := SqliteUserRepository.save
  update := SqliteUserRepository.update
  recordLoginFailure := SqliteUserRepository.recordLoginFailure
  resetLoginFailures := SqliteUserRepository.resetLoginFailures
  getEncodedHash := SqliteUserRepository.getEncodedHash
  listAll := SqliteUserRepository.listAll

/-! ## What the services rely on -/

namespace UserRepository

/-- A user with this id is found. -/
def Present (R : UserRepository) (s : R.State) (id : UserId) : Prop :=
  ∃ u, R.findById s id = .ok (some u) ∧ u.id = id

/-- The two states agree on everything but the failed attempts and the lockout of `id`: they are
the same once these are reset. -/
def EqualButLockout (R : UserRepository) (id : UserId) (s s' : R.State) : Prop :=
  ∃ t, R.resetLoginFailures id s = .ok t ∧ R.resetLoginFailures id s' = .ok t

/-- A write that neither adds nor removes a user. -/
structure KeepsUsers (R : UserRepository) (write : R.State → Except Exn R.State) : Prop where
  present_iff : ∀ {s s' id}, write s = .ok s' → (R.Present s' id ↔ R.Present s id)

structure Lawful (R : UserRepository) : Prop where
  findById_of_findByUsername : ∀ {s n u}, R.findByUsername s n = .ok (some u) →
    R.findById s u.id = .ok (some u)
  present_save : ∀ {u h s s' id}, R.save u h s = .ok s' → R.Present s id → R.Present s' id
  new_of_save : ∀ {u h s s' id}, R.save u h s = .ok s' → (0 : UInt8) ∉ u.id.value →
    R.Present s' id → R.Present s id ∨ id = u.id
  update : ∀ u, R.KeepsUsers (R.update u)
  recordLoginFailure : ∀ id now, R.KeepsUsers (R.recordLoginFailure id now)
  resetLoginFailures : ∀ id, R.KeepsUsers (R.resetLoginFailures id)
  recordLoginFailure_lockout : ∀ {id now s s'}, R.recordLoginFailure id now s = .ok s' →
    R.EqualButLockout id s s'
  resetLoginFailures_lockout : ∀ {id s s'}, R.resetLoginFailures id s = .ok s' →
    R.EqualButLockout id s s'

end UserRepository

namespace MemoryUserRepository

variable {m : MemoryUserRepository}

theorem findById_eq_some_iff {id : UserId} {u : User} :
    m.findById id = .ok (some u) ↔ m.usersById.lookup id.value = some u := by
  simp [findById]

theorem present_iff {id : UserId} :
    memoryUsers.Present m id ↔ ∃ u, m.usersById.lookup id.value = some u := by
  constructor
  · rintro ⟨u, hu, -⟩
    exact ⟨u, findById_eq_some_iff.1 hu⟩
  · rintro ⟨u, hu⟩
    refine ⟨u, findById_eq_some_iff.2 hu, ?_⟩
    have := m.keyed id.value u hu
    cases hid : u.id with
    | mk value => simp_all

/-- Putting a user adds it, if it was not there. -/
theorem present_put_iff {m' : MemoryUserRepository} {u : User} {id : UserId}
    (h : m'.usersById = (m.put u).usersById) :
    memoryUsers.Present m' id ↔ memoryUsers.Present m id ∨ id = u.id := by
  rw [present_iff, present_iff, h]
  show (∃ v, (m.usersById.insert u.id.value u).lookup id.value = some v) ↔ _
  rw [Table.lookup_insert_eq]
  by_cases hid : id = u.id
  · simp [hid]
  · have hne : id.value ≠ u.id.value := fun heq => hid (congrArg UserId.mk heq)
    simp [hid, hne]

theorem put_put (m : MemoryUserRepository) {u v : User} (h : u.id = v.id) :
    (m.put u).put v = m.put v := by
  simp [put, h]

theorem withLockout_ok {id : UserId} {f : User → Int × Int} {m' : MemoryUserRepository}
    (h : withLockout id f m = .ok m') :
    ∃ u, m.usersById.lookup id.value = some u ∧ u.id = id ∧
      m' = m.put (u.setLockout (f u).1 (f u).2) := by
  unfold withLockout at h
  cases hu : m.usersById.lookup id.value with
  | none => simp [hu] at h
  | some u =>
      rw [hu] at h
      have hid : u.id = id := by
        have := m.keyed id.value u hu
        cases hid : u.id with
        | mk value => simp_all
      exact ⟨u, rfl, hid, by simpa using h.symm⟩

/-- Any change of the lockout is undone by a reset. -/
theorem withLockout_lockout {id : UserId} {f : User → Int × Int} {m' : MemoryUserRepository}
    (h : withLockout id f m = .ok m') : memoryUsers.EqualButLockout id m m' := by
  obtain ⟨u, hu, hid, rfl⟩ := withLockout_ok h
  have hu' : m.usersById.lookup u.id.value = some u := by rw [hid]; exact hu
  subst hid
  refine ⟨m.put (u.setLockout 0 0), ?_, ?_⟩
  · simp [memoryUsers, resetLoginFailures, withLockout, hu']
  · have hlookup : (m.put (u.setLockout (f u).1 (f u).2)).usersById.lookup u.id.value =
        some (u.setLockout (f u).1 (f u).2) := by
      simp [put, User.setLockout]
    simp only [memoryUsers, resetLoginFailures, withLockout, hlookup]
    rw [put_put m (by rfl)]
    rfl

theorem save_ok {u : User} {encodedHash : Bytes} {m' : MemoryUserRepository}
    (h : save u encodedHash m = .ok m') : m'.usersById = (m.put u).usersById := by
  unfold save at h
  split at h
  · cases h
  · split at h
    · cases h
    · split at h
      · cases h
      · cases h
        rfl

theorem update_ok {u : User} {m' : MemoryUserRepository} (h : update u m = .ok m') :
    memoryUsers.Present m u.id ∧ m' = m.put u := by
  unfold update at h
  split at h
  · cases h
  · rename_i old hold
    split at h
    · cases h
    · cases h
      exact ⟨present_iff.2 ⟨old, hold⟩, rfl⟩

/-- Putting a user that is there adds none. -/
theorem present_put_of_present {u : User} {id : UserId} (hu : memoryUsers.Present m u.id) :
    memoryUsers.Present (m.put u) id ↔ memoryUsers.Present m id := by
  rw [present_put_iff rfl]
  exact ⟨fun h => h.elim (fun hp => hp) fun heq => heq ▸ hu, .inl⟩

theorem withLockout_keepsUsers (id : UserId) (f : User → Int × Int) :
    memoryUsers.KeepsUsers (withLockout id f) := by
  refine ⟨fun {m m' id'} h => ?_⟩
  obtain ⟨u, hu, hid, rfl⟩ := withLockout_ok h
  exact present_put_of_present (present_iff.2 ⟨u, by rw [← hid] at hu; exact hu⟩)

theorem lawful : memoryUsers.Lawful where
  findById_of_findByUsername := by
    intro m n u h
    obtain ⟨id, hid, hu⟩ : ∃ id, m.usernameToId.lookup n = some id ∧
        m.usersById.lookup id = some u := by
      simpa [memoryUsers, findByUsername, findByIndex, Option.bind_eq_some_iff] using h
    have hkey := m.keyed id u hu
    exact findById_eq_some_iff.2 (by rw [hkey]; exact hu)
  present_save h hp := (present_put_iff (save_ok h)).2 (.inl hp)
  new_of_save h _ hp := (present_put_iff (save_ok h)).1 hp
  update u := by
    refine ⟨fun {m m' id} h => ?_⟩
    obtain ⟨hu, rfl⟩ := update_ok h
    exact present_put_of_present hu
  recordLoginFailure id now := withLockout_keepsUsers id _
  resetLoginFailures id := withLockout_keepsUsers id _
  recordLoginFailure_lockout h := withLockout_lockout h
  resetLoginFailures_lockout h := withLockout_lockout h

end MemoryUserRepository

namespace SqliteUserRepository

variable {t : SqliteUserRepository}

theorem findByColumn_eq_some {col : UserRow → Text} {val : Bytes} {u : User}
    (h : t.findByColumn col val = .ok (some u)) :
    ∃ r ∈ t.rows, col r = Text.bind val ∧ r.toUser = .ok u := by
  unfold findByColumn at h
  cases hfind : t.rows.find? (fun r => col r = Text.bind val) with
  | none => simp [hfind] at h
  | some r =>
      rw [hfind] at h
      refine ⟨r, List.mem_of_find?_eq_some hfind, by simpa using List.find?_some hfind, ?_⟩
      cases hr : r.toUser with
      | error e => simp [hr] at h
      | ok v => simpa [hr] using h

/-- The id of a row names that row and no other. -/
theorem findById_of_mem {r : UserRow} {u : User} (hr : r ∈ t.rows) (hu : r.toUser = .ok u) :
    t.findById ⟨r.id.1⟩ = .ok (some u) := by
  have hfind : t.rows.find? (fun r' => r'.id = Text.bind r.id.1) = some r :=
    t.id.find?_iff.2 ⟨hr, by simp⟩
  rw [findById, findByColumn, hfind]
  simp [hu]

theorem toUser_eq_ok_iff {r : UserRow} :
    (∃ u, r.toUser = .ok u) ↔ r.id.1 ≠ [] ∧ r.username.1 ≠ [] ∧ r.email.1 ≠ [] := by
  simp only [UserRow.toUser, User.new]
  split <;> simp_all

theorem id_of_toUser {r : UserRow} {u : User} (h : r.toUser = .ok u) : u.id = ⟨r.id.1⟩ := by
  simp only [UserRow.toUser, User.new] at h
  split at h
  · cases h
    rfl
  · cases h

theorem present_iff {id : UserId} :
    sqliteUsers.Present t id ↔
      ∃ r ∈ t.rows, r.id.1 = id.value ∧ r.id.1 ≠ [] ∧ r.username.1 ≠ [] ∧ r.email.1 ≠ [] := by
  constructor
  · rintro ⟨u, hfind, hid⟩
    obtain ⟨r, hr, -, hu⟩ := findByColumn_eq_some hfind
    refine ⟨r, hr, ?_, toUser_eq_ok_iff.1 ⟨u, hu⟩⟩
    rw [← hid, id_of_toUser hu]
  · rintro ⟨r, hr, hid, hne⟩
    obtain ⟨u, hu⟩ := toUser_eq_ok_iff.2 hne
    have hval : id = ⟨r.id.1⟩ := by
      cases id
      simp_all
    exact ⟨u, hval ▸ findById_of_mem hr hu, by rw [id_of_toUser hu, hval]⟩

/-- An update of the unconstrained columns neither adds nor removes a user. -/
theorem present_updateWhere {id : UserId} {val : Bytes} {f : UserRow → UserRow}
    {hid : ∀ r, (f r).id = r.id} {hname : ∀ r, (f r).username = r.username}
    {hmail : ∀ r, (f r).email = r.email} :
    sqliteUsers.Present (t.updateWhere val f hid hname hmail) id ↔ sqliteUsers.Present t id := by
  have hrow : ∀ r, (if r.id = Text.bind val then f r else r).id = r.id ∧
      (if r.id = Text.bind val then f r else r).username = r.username ∧
        (if r.id = Text.bind val then f r else r).email = r.email := by
    intro r
    split
    · exact ⟨hid r, hname r, hmail r⟩
    · exact ⟨rfl, rfl, rfl⟩
  rw [present_iff, present_iff]
  simp only [updateWhere, List.mem_map]
  constructor
  · rintro ⟨_, ⟨r, hr, rfl⟩, h⟩
    rw [(hrow r).1, (hrow r).2.1, (hrow r).2.2] at h
    exact ⟨r, hr, h⟩
  · rintro ⟨r, hr, h⟩
    refine ⟨_, ⟨r, hr, rfl⟩, ?_⟩
    rw [(hrow r).1, (hrow r).2.1, (hrow r).2.2]
    exact h

/-- A reset forgets what the counters of the account were. -/
theorem setLockout_setLockout (t : SqliteUserRepository) (id : UserId) (a b c d : Int) :
    (t.setLockout id a b).setLockout id c d = t.setLockout id c d := by
  simp only [setLockout, updateWhere, List.map_map, mk.injEq]
  refine List.map_congr_left fun r _ => ?_
  by_cases h : r.id = Text.bind id.value <;> simp [h]

theorem setLockout_lockout (t : SqliteUserRepository) (id : UserId) (fails lockout : Int) :
    sqliteUsers.EqualButLockout id t (t.setLockout id fails lockout) :=
  ⟨t.setLockout id 0 0, rfl, congrArg Except.ok (setLockout_setLockout t id _ _ 0 0)⟩

theorem recordLoginFailure_ok {id : UserId} {now : Int} {t' : SqliteUserRepository}
    (h : recordLoginFailure id now t = .ok t') : ∃ a b, t' = t.setLockout id a b := by
  unfold recordLoginFailure at h
  split at h
  · cases h
  · cases h
    exact ⟨_, _, rfl⟩

theorem save_ok {u : User} {encodedHash : Bytes} {t' : SqliteUserRepository}
    (h : save u encodedHash t = .ok t') : t'.rows = t.rows ++ [UserRow.ofUser u encodedHash] := by
  simp only [save] at h
  split at h
  · cases h
    rfl
  · cases h

theorem lawful : sqliteUsers.Lawful where
  findById_of_findByUsername := by
    intro t n u h
    obtain ⟨r, hr, -, hu⟩ := findByColumn_eq_some h
    rw [id_of_toUser hu]
    exact findById_of_mem hr hu
  present_save := by
    intro u h t t' id hsave hp
    obtain ⟨r, hr, hrest⟩ := present_iff.1 hp
    exact present_iff.2 ⟨r, by rw [save_ok hsave]; exact List.mem_append_left _ hr, hrest⟩
  new_of_save := by
    intro u h t t' id hsave hzero hp
    obtain ⟨r, hr, hid, hne⟩ := present_iff.1 hp
    rw [save_ok hsave] at hr
    rcases List.mem_append.1 hr with hold | hnew
    · exact .inl (present_iff.2 ⟨r, hold, hid, hne⟩)
    · obtain rfl := List.mem_singleton.1 hnew
      have hval : cstr u.id.value = id.value := hid
      rw [cstr_of_not_mem hzero] at hval
      exact .inr (congrArg UserId.mk hval.symm)
  update u := by
    refine ⟨fun {t t' id} hupdate => ?_⟩
    simp only [sqliteUsers, update] at hupdate
    cases hfind : t.findById u.id with
    | error e => simp [hfind, bind, Except.bind] at hupdate
    | ok found =>
        cases found with
        | none => simp [hfind, bind, Except.bind] at hupdate
        | some old =>
            simp only [hfind, bind, Except.bind] at hupdate
            split at hupdate
            · cases hupdate
            · cases hupdate
              exact present_updateWhere
  recordLoginFailure id now := by
    refine ⟨fun {t t' id} hrec => ?_⟩
    obtain ⟨a, b, rfl⟩ := recordLoginFailure_ok hrec
    exact present_updateWhere
  resetLoginFailures id := by
    refine ⟨fun {t t' id} hreset => ?_⟩
    cases hreset
    exact present_updateWhere
  recordLoginFailure_lockout := by
    intro id now t t' h
    obtain ⟨a, b, rfl⟩ := recordLoginFailure_ok h
    exact setLockout_lockout t id a b
  resetLoginFailures_lockout := by
    intro id t t' h
    cases h
    exact setLockout_lockout t id 0 0

end SqliteUserRepository

end SecureFileTransfer
