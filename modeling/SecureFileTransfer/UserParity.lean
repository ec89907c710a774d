import Mathlib.Data.List.Find
import SecureFileTransfer.Accounts
import SecureFileTransfer.Lib.Runs

/-!
# UserParity — the two user repositories side by side

A directory is a list of accounts.  `MemoryUserRepository` behaves as that list for every operation;
`SqliteUserRepository` does as long as no text has a zero byte and the three writes it makes without
looking name a user that is there.
-/

namespace SecureFileTransfer

open Runs StdString

/-! ## The operations of the port -/

/-- `IUserRepository`, all of its operations. -/
structure FullUserRepository extends UserRepository where
  recordLoginFailureUntil : UserId → Int → Int → State → Except Exn State
  updateHash : UserId → Bytes → State → Except Exn State

def memoryUserRepository : FullUserRepository where
  toUserRepository := memoryUsers
  recordLoginFailureUntil := MemoryUserRepository.recordLoginFailureUntil
  updateHash := MemoryUserRepository.updateHash

def sqliteUserRepository : FullUserRepository where
  toUserRepository := sqliteUsers
  recordLoginFailureUntil := SqliteUserRepository.recordLoginFailureUntil
  updateHash := SqliteUserRepository.updateHash

inductive UserOp
  | save (u : User) (encodedHash : Bytes)
  | update (u : User)
  | updateHash (id : UserId) (encodedHash : Bytes)
  | recordLoginFailure (id : UserId) (now : Int)
  | recordLoginFailureUntil (id : UserId) (f until' : Int)
  | resetLoginFailures (id : UserId)
  | findByUsername (n : Bytes)
  | findByEmail (e : Bytes)
  | findById (id : UserId)
  | getEncodedHash (id : UserId)
  | listAll

/-- What a caller sees of an operation; of an exception it is the class. -/
inductive UserReply
  | done
  | user (found : Option User)
  | hash (encodedHash : Bytes)
  | users (all : List User)
  | threw (cls : ExnClass)
  deriving DecidableEq

/-- The same outcome; the order of a list does not matter. -/
inductive UserReply.Same : UserReply → UserReply → Prop
  | refl (r : UserReply) : Same r r
  | users {us vs : List User} (h : us.Perm vs) : Same (.users us) (.users vs)

theorem UserReply.same_of_eq {r r' : UserReply} (h : r = r') : r.Same r' := h ▸ .refl r

theorem UserReply.Same.symm {r r' : UserReply} (h : r.Same r') : r'.Same r := by
  cases h with
  | refl => exact .refl r
  | users h => exact .users h.symm

theorem UserReply.Same.trans {r r' r'' : UserReply} (h : r.Same r') (h' : r'.Same r'') :
    r.Same r'' := by
  cases h with
  | refl => exact h'
  | users h =>
      cases h' with
      | refl => exact .users h
      | users h' => exact .users (h.trans h')

/-- The reply to a query. -/
def UserReply.ofQuery {α : Type} (reply : α → UserReply) : Except Exn α → UserReply
  | .ok a => reply a
  | .error e => .threw e.cls

/-- The reply to a write, which changes nothing when it throws. -/
def UserReply.ofWrite {σ : Type} (s : σ) : Except Exn σ → UserReply × σ
  | .ok s' => (.done, s')
  | .error e => (.threw e.cls, s)

/-- One operation on a repository. -/
def FullUserRepository.step (R : FullUserRepository) (s : R.State) : UserOp → UserReply × R.State
  | .save u encodedHash => UserReply.ofWrite s (R.save u encodedHash s)
  | .update u => UserReply.ofWrite s (R.update u s)
  | .updateHash id encodedHash => UserReply.ofWrite s (R.updateHash id encodedHash s)
  | .recordLoginFailure id now => UserReply.ofWrite s (R.recordLoginFailure id now s)
  | .recordLoginFailureUntil id f until' => UserReply.ofWrite s (R.recordLoginFailureUntil id f until' s)
  | .resetLoginFailures id => UserReply.ofWrite s (R.resetLoginFailures id s)
  | .findByUsername n => (.ofQuery .user (R.findByUsername s n), s)
  | .findByEmail e => (.ofQuery .user (R.findByEmail s e), s)
  | .findById id => (.ofQuery .user (R.findById s id), s)
  | .getEncodedHash id => (.ofQuery .hash (R.getEncodedHash s id), s)
  | .listAll => (.ofQuery .users (R.listAll s), s)

/-- The replies to a sequence of operations on an empty repository. -/
def FullUserRepository.replies (R : FullUserRepository) (ops : List UserOp) : List UserReply :=
  outputs R.step R.empty ops

/-! ## A directory of accounts -/

/-- A user with its password hash. -/
structure Account where
  user : User
  hash : Bytes

namespace Account

/-- The write `g` on the account of an id. -/
def rewriteAt (id : UserId) (g : Account → Account) (as : List Account) : List Account :=
  as.map fun a => if a.user.id = id then g a else a

/-- A write on the account of an id that must be there. -/
def onKnown (id : UserId) (g : Account → Account) (as : List Account) : UserReply × List Account :=
  if as.any fun a => a.user.id = id then (.done, rewriteAt id g as) else (.threw .notFound, as)

theorem onKnown_of_none {id : UserId} {g : Account → Account} {as : List Account}
    (h : as.find? (fun a => a.user.id = id) = none) : onKnown id g as = (.threw .notFound, as) := by
  have hnone : ¬ (as.any fun a => a.user.id = id) = true := by simpa using h
  rw [onKnown, if_neg hnone]

theorem onKnown_of_some {id : UserId} {as : List Account} {a : Account}
    (h : as.find? (fun a => a.user.id = id) = some a) :
    a ∈ as ∧ a.user.id = id ∧ ∀ g, onKnown id g as = (.done, rewriteAt id g as) := by
  have ha := List.mem_of_find?_eq_some h
  have hid : a.user.id = id := by simpa using List.find?_some h
  refine ⟨ha, hid, fun g => ?_⟩
  rw [onKnown, if_pos (List.any_eq_true.2 ⟨a, ha, decide_eq_true hid⟩)]

/-- What a user directory is for. -/
def step (as : List Account) : UserOp → UserReply × List Account
  | .save u encodedHash =>
      if as.any fun a => a.user.username = u.username ∨ a.user.email = u.email ∨ a.user.id = u.id then
        (.threw .validation, as)
      else
        (.done, as ++ [⟨u, encodedHash⟩])
  | .update u =>
      match as.find? fun a => a.user.id = u.id with
      | none => (.threw .notFound, as)
      | some a =>
          if a.user.username ≠ u.username ∨ a.user.email ≠ u.email then
            (.threw .validation, as)
          else
            (.done, rewriteAt u.id (fun a => { a with user := u }) as)
  | .updateHash id encodedHash => onKnown id (fun a => { a with hash := encodedHash }) as
  | .recordLoginFailure id now => onKnown id (fun a => { a with user := a.user.countFailure now }) as
  | .recordLoginFailureUntil id f until' =>
      onKnown id (fun a => { a with user := a.user.setLockout until' f }) as
  | .resetLoginFailures id => onKnown id (fun a => { a with user := a.user.setLockout 0 0 }) as
  | .findByUsername n => (.user ((as.find? fun a => a.user.username = n).map user), as)
  | .findByEmail e => (.user ((as.find? fun a => a.user.email = e).map user), as)
  | .findById id => (.user ((as.find? fun a => a.user.id = id).map user), as)
  | .getEncodedHash id =>
      match as.find? fun a => a.user.id = id with
      | none => (.threw .notFound, as)
      | some a => (.hash a.hash, as)
  | .listAll => (.users (as.map user), as)

/-- Ids, names and mails are unique. -/
structure Distinct (as : List Account) : Prop where
  id : Unique (fun a : Account => a.user.id) as
  username : Unique (fun a : Account => a.user.username) as
  email : Unique (fun a : Account => a.user.email) as

end Account

/-! ## In memory -/

/-- The four maps hold the accounts. -/
structure MemoryHolds (m : MemoryUserRepository) (as : List Account) : Prop where
  distinct : Account.Distinct as
  users : Indexes m.usersById as (fun a => a.user.id.value) Account.user
  names : Indexes m.usernameToId as (fun a => a.user.username) fun a => a.user.id.value
  mails : Indexes m.emailToId as (fun a => a.user.email) fun a => a.user.id.value
  hashes : Indexes m.hashById as (fun a => a.user.id.value) Account.hash

namespace MemoryHolds

variable {m m' : MemoryUserRepository} {as : List Account}

theorem empty : MemoryHolds MemoryUserRepository.empty [] :=
  ⟨⟨Unique.nil, Unique.nil, Unique.nil⟩, .nil, .nil, .nil, .nil⟩

theorem lookup_id (h : MemoryHolds m as) (id : UserId) :
    m.usersById.lookup id.value = (as.find? fun a => a.user.id = id).map Account.user := by
  rw [h.users.lookup_eq]
  simp only [UserId.value_eq_iff]

/-- A query through an index is a query on its column. -/
theorem findByIndex (h : MemoryHolds m as) {index : Table Bytes} {key : Account → Bytes}
    (hindex : Indexes index as key fun a => a.user.id.value) (k : Bytes) :
    m.findByIndex index k = .ok ((as.find? fun a => key a = k).map Account.user) := by
  rw [MemoryUserRepository.findByIndex, hindex.lookup_eq]
  cases hfind : as.find? (fun a => key a = k) with
  | none => rfl
  | some a =>
      have hlookup : m.usersById.lookup a.user.id.value = some a.user :=
        (h.users _ _).2 ⟨a, List.mem_of_find?_eq_some hfind, rfl, rfl⟩
      simp [hlookup]

/-- A user put in the place of one with its name and mail. -/
theorem put (h : MemoryHolds m as) {v : User} {g : Account → Account}
    (hknown : ∃ a ∈ as, a.user.id = v.id)
    (hg : ∀ a ∈ as, a.user.id = v.id → g a = { a with user := v })
    (hsame : ∀ a ∈ as, a.user.id = v.id → v.username = a.user.username ∧ v.email = a.user.email) :
    MemoryHolds (m.put v) (Account.rewriteAt v.id g as) := by
  have hcols : ∀ a ∈ as, (if a.user.id = v.id then g a else a).user.id = a.user.id ∧
      (if a.user.id = v.id then g a else a).user.username = a.user.username ∧
      (if a.user.id = v.id then g a else a).user.email = a.user.email ∧
      (if a.user.id = v.id then g a else a).hash = a.hash := by
    intro a ha
    split
    · rename_i hid
      rw [hg a ha hid]
      exact ⟨hid.symm, (hsame a ha hid).1, (hsame a ha hid).2, rfl⟩
    · exact ⟨rfl, rfl, rfl, rfl⟩
  have hids : ∀ a ∈ as, (if a.user.id = v.id then g a else a).user.id.value = a.user.id.value :=
    fun a ha => congrArg UserId.value (hcols a ha).1
  constructor
  · exact ⟨h.distinct.id.map_of_mem fun a ha => (hcols a ha).1,
      h.distinct.username.map_of_mem fun a ha => (hcols a ha).2.1,
      h.distinct.email.map_of_mem fun a ha => (hcols a ha).2.2.1⟩
  · refine h.users.rewrite ?_ hids ?_ ?_
    · obtain ⟨a, ha, hid⟩ := hknown
      exact ⟨a, ha, congrArg UserId.value hid⟩
    · intro a ha hid
      have hid' := UserId.value_eq_iff.1 hid
      rw [if_pos hid', hg a ha hid']
    · intro a ha hid
      rw [if_neg fun h => hid (congrArg UserId.value h)]
  · exact h.names.map (fun a ha => (hcols a ha).2.1) hids
  · exact h.mails.map (fun a ha => (hcols a ha).2.2.1) hids
  · exact h.hashes.map hids fun a ha => (hcols a ha).2.2.2

/-- A write on a user that must be there. -/
theorem withLockout (h : MemoryHolds m as) (id : UserId) (lockout : User → Int × Int) :
    let write := UserReply.ofWrite m (MemoryUserRepository.withLockout id lockout m)
    let spec := Account.onKnown id
      (fun a => { a with user := a.user.setLockout (lockout a.user).1 (lockout a.user).2 }) as
    write.1 = spec.1 ∧ MemoryHolds write.2 spec.2 := by
  intro write spec
  simp only [write, spec, MemoryUserRepository.withLockout, h.lookup_id id]
  cases hfind : as.find? (fun a => a.user.id = id) with
  | none =>
      rw [Account.onKnown_of_none hfind]
      exact ⟨rfl, h⟩
  | some a =>
      obtain ⟨ha, rfl, hspec⟩ := Account.onKnown_of_some hfind
      rw [hspec]
      refine ⟨rfl, h.put (v := a.user.setLockout (lockout a.user).1 (lockout a.user).2)
        ⟨a, ha, rfl⟩ ?_ ?_⟩
      -- ids are unique, so the account that is rewritten is the one that was found
      · intro b hb hid
        rw [h.distinct.id.inj hb ha hid]
      · intro b hb hid
        rw [h.distinct.id.inj hb ha hid]
        exact ⟨rfl, rfl⟩

theorem updateHash (h : MemoryHolds m as) (id : UserId) (encodedHash : Bytes) :
    let write := UserReply.ofWrite m (m.updateHash id encodedHash)
    let spec := Account.onKnown id (fun a => { a with hash := encodedHash }) as
    write.1 = spec.1 ∧ MemoryHolds write.2 spec.2 := by
  intro write spec
  have hany : (m.usersById.lookup id.value).isSome = true ↔
      (as.any fun a => a.user.id = id) = true := by
    rw [h.users.isSome_iff]
    simp [UserId.value_eq_iff]
  simp only [write, spec, MemoryUserRepository.updateHash, Account.onKnown]
  by_cases hknown : (as.any fun a => a.user.id = id) = true
  · rw [if_pos hknown, if_pos (hany.2 hknown)]
    obtain ⟨a, ha, hid⟩ : ∃ a ∈ as, a.user.id = id := by simpa using hknown
    have huser : ∀ a ∈ as, (if a.user.id = id then { a with hash := encodedHash } else a).user =
        a.user := by
      intro a _
      split
      · rfl
      · rfl
    have hids := fun a ha => congrArg (fun u => u.id.value) (huser a ha)
    refine ⟨rfl, ⟨?_, ?_, ?_⟩, ?_, ?_, ?_, ?_⟩
    · exact h.distinct.id.map_of_mem fun a ha => congrArg User.id (huser a ha)
    · exact h.distinct.username.map_of_mem fun a ha => congrArg User.username (huser a ha)
    · exact h.distinct.email.map_of_mem fun a ha => congrArg User.email (huser a ha)
    · exact h.users.map hids huser
    · exact h.names.map (fun a ha => congrArg User.username (huser a ha)) hids
    · exact h.mails.map (fun a ha => congrArg User.email (huser a ha)) hids
    · refine h.hashes.rewrite ⟨a, ha, congrArg UserId.value hid⟩ hids ?_ ?_
      · intro b _ hb
        rw [if_pos (UserId.value_eq_iff.1 hb)]
      · intro b _ hb
        rw [if_neg fun heq => hb (congrArg UserId.value heq)]
  · rw [if_neg hknown, if_neg fun hsome => hknown (hany.1 hsome)]
    exact ⟨rfl, h⟩

theorem update (h : MemoryHolds m as) (u : User) :
    let write := UserReply.ofWrite m (m.update u)
    let spec := Account.step as (.update u)
    write.1 = spec.1 ∧ MemoryHolds write.2 spec.2 := by
  intro write spec
  simp only [write, spec, MemoryUserRepository.update, h.lookup_id u.id, Account.step]
  cases hfind : as.find? (fun a => a.user.id = u.id) with
  | none => exact ⟨rfl, h⟩
  | some a =>
      have ha := List.mem_of_find?_eq_some hfind
      have hid : a.user.id = u.id := by simpa using List.find?_some hfind
      simp only [Option.map_some]
      by_cases hfixed : a.user.username ≠ u.username ∨ a.user.email ≠ u.email
      · rw [if_pos hfixed, if_pos hfixed]
        exact ⟨rfl, h⟩
      · rw [if_neg hfixed, if_neg hfixed]
        obtain ⟨hname, hmail⟩ := not_or.1 hfixed
        refine ⟨rfl, h.put ⟨a, ha, hid⟩ (fun _ _ _ => rfl) ?_⟩
        intro b hb hidb
        rw [h.distinct.id.inj hb ha (hidb.trans hid.symm)]
        exact ⟨(not_not.1 hname).symm, (not_not.1 hmail).symm⟩

theorem save (h : MemoryHolds m as) (u : User) (encodedHash : Bytes) :
    let write := UserReply.ofWrite m (m.save u encodedHash)
    let spec := Account.step as (.save u encodedHash)
    write.1 = spec.1 ∧ MemoryHolds write.2 spec.2 := by
  intro write spec
  -- the three checks of the source, in its order, against the one of the directory
  have taken : ∀ {a}, a ∈ as → (a.user.username = u.username ∨ a.user.email = u.email ∨
      a.user.id = u.id) → (as.any fun a => a.user.username = u.username ∨ a.user.email = u.email ∨
        a.user.id = u.id) = true :=
    fun ha hsame => List.any_eq_true.2 ⟨_, ha, decide_eq_true hsame⟩
  have refused : ∀ {msg}, (as.any fun a => a.user.username = u.username ∨
      a.user.email = u.email ∨ a.user.id = u.id) = true →
      (UserReply.ofWrite m (.error (.validation msg))).1 = spec.1 ∧
        MemoryHolds (UserReply.ofWrite m (.error (.validation msg))).2 spec.2 := by
    intro msg hany
    simp only [spec, Account.step, if_pos hany]
    exact ⟨rfl, h⟩
  simp only [write, MemoryUserRepository.save]
  split
  · rename_i hname
    obtain ⟨a, ha, heq⟩ := h.names.isSome_iff.1 hname
    exact refused (taken ha (.inl heq))
  rename_i hname
  split
  · rename_i hmail
    obtain ⟨a, ha, heq⟩ := h.mails.isSome_iff.1 hmail
    exact refused (taken ha (.inr (.inl heq)))
  rename_i hmail
  split
  · rename_i hid
    obtain ⟨a, ha, heq⟩ := h.users.isSome_iff.1 hid
    exact refused (taken ha (.inr (.inr (UserId.value_eq_iff.1 heq))))
  rename_i hid
  have hnew : ∀ a ∈ as, a.user.username ≠ u.username ∧ a.user.email ≠ u.email ∧
      a.user.id ≠ u.id := by
    intro a ha
    exact ⟨fun heq => hname (h.names.isSome_iff.2 ⟨a, ha, heq⟩),
      fun heq => hmail (h.mails.isSome_iff.2 ⟨a, ha, heq⟩),
      fun heq => hid (h.users.isSome_iff.2 ⟨a, ha, congrArg UserId.value heq⟩)⟩
  have hfree : ¬ (as.any fun a => a.user.username = u.username ∨ a.user.email = u.email ∨
      a.user.id = u.id) = true := by
    rw [List.any_eq_true]
    rintro ⟨a, ha, hsame⟩
    have := hnew a ha
    simp_all
  have hids : ∀ a ∈ as, a.user.id.value ≠ u.id.value :=
    fun a ha heq => (hnew a ha).2.2 (UserId.value_eq_iff.1 heq)
  simp only [spec, Account.step, if_neg hfree]
  refine ⟨rfl, ⟨?_, ?_, ?_⟩, ?_, ?_, ?_, ?_⟩
  · exact h.distinct.id.concat fun a ha => (hnew a ha).2.2
  · exact h.distinct.username.concat fun a ha => (hnew a ha).1
  · exact h.distinct.email.concat fun a ha => (hnew a ha).2.1
  · exact h.users.concat (a := ⟨u, encodedHash⟩) hids
  · exact h.names.concat (a := ⟨u, encodedHash⟩) fun a ha => (hnew a ha).1
  · exact h.mails.concat (a := ⟨u, encodedHash⟩) fun a ha => (hnew a ha).2.1
  · exact h.hashes.concat (a := ⟨u, encodedHash⟩) hids

theorem unique_id_value (h : MemoryHolds m as) : Unique (fun a : Account => a.user.id.value) as := by
  have hids : (as.map fun a => a.user.id).Nodup := h.distinct.id
  have hvalues := hids.map (f := UserId.value) fun i j hij => UserId.value_eq_iff.1 hij
  rw [List.map_map] at hvalues
  exact hvalues

end MemoryHolds

/-- `MemoryUserRepository` is a directory of accounts. -/
theorem memory_step {m : MemoryUserRepository} {as : List Account} (h : MemoryHolds m as)
    (op : UserOp) :
    UserReply.Same (memoryUserRepository.step m op).1 (Account.step as op).1 ∧
      MemoryHolds (memoryUserRepository.step m op).2 (Account.step as op).2 := by
  have written : ∀ {write spec : UserReply × _}, write.1 = spec.1 ∧ MemoryHolds write.2 spec.2 →
      UserReply.Same write.1 spec.1 ∧ MemoryHolds write.2 spec.2 :=
    fun hw => ⟨UserReply.same_of_eq hw.1, hw.2⟩
  cases op with
  | save u encodedHash => exact written (h.save u encodedHash)
  | update u => exact written (h.update u)
  | updateHash id encodedHash => exact written (h.updateHash id encodedHash)
  | recordLoginFailure id now => exact written (h.withLockout id _)
  | recordLoginFailureUntil id f until' => exact written (h.withLockout id _)
  | resetLoginFailures id => exact written (h.withLockout id _)
  | findByUsername n =>
      exact ⟨UserReply.same_of_eq (congrArg (UserReply.ofQuery .user) (h.findByIndex h.names n)), h⟩
  | findByEmail e =>
      exact ⟨UserReply.same_of_eq (congrArg (UserReply.ofQuery .user) (h.findByIndex h.mails e)), h⟩
  | findById id => exact ⟨UserReply.same_of_eq (congrArg UserReply.user (h.lookup_id id)), h⟩
  | getEncodedHash id =>
      have hlookup : m.hashById.lookup id.value =
          (as.find? fun a => a.user.id = id).map Account.hash := by
        rw [h.hashes.lookup_eq]
        simp only [UserId.value_eq_iff]
      show UserReply.Same (UserReply.ofQuery .hash (m.getEncodedHash id)) _ ∧ _
      simp only [MemoryUserRepository.getEncodedHash, hlookup, Account.step]
      cases as.find? fun a => a.user.id = id with
      | none => exact ⟨.refl _, h⟩
      | some a => exact ⟨.refl _, h⟩
  | listAll => exact ⟨.users (h.users.values_perm h.unique_id_value), h⟩


/-! ## In SQLite -/

/-- No text of the user has a zero byte. -/
def User.ZeroFree (u : User) : Prop :=
  (0 : UInt8) ∉ u.id.value ∧ (0 : UInt8) ∉ u.username ∧ (0 : UInt8) ∉ u.email ∧
    (0 : UInt8) ∉ u.role ∧ (0 : UInt8) ∉ u.status

instance User.decidableZeroFree (u : User) : Decidable u.ZeroFree :=
  inferInstanceAs (Decidable ((0 : UInt8) ∉ u.id.value ∧ (0 : UInt8) ∉ u.username ∧
    (0 : UInt8) ∉ u.email ∧ (0 : UInt8) ∉ u.role ∧ (0 : UInt8) ∉ u.status))

namespace Account

def ZeroFree (a : Account) : Prop := a.user.ZeroFree ∧ (0 : UInt8) ∉ a.hash

def row (a : Account) : UserRow := UserRow.ofUser a.user a.hash

theorem toUser_row {a : Account} (h : a.ZeroFree) : a.row.toUser = .ok a.user := by
  obtain ⟨⟨hid, hname, hmail, hrole, hstatus⟩, -⟩ := h
  have hcols : a.row.toUser = User.new ⟨cstr a.user.id.value⟩ (cstr a.user.username)
      (cstr a.user.email) (cstr a.user.role) (cstr a.user.status) a.user.failedAttempts
      a.user.lockoutUntil := rfl
  rw [hcols, cstr_of_not_mem hid, cstr_of_not_mem hname, cstr_of_not_mem hmail, cstr_of_not_mem hrole,
    cstr_of_not_mem hstatus, User.new, dif_pos a.user.nonempty]

/-- Every row of the table is read back. -/
theorem mapM_toUser_row {as : List Account} (h : ∀ a ∈ as, a.ZeroFree) :
    (as.map row).mapM UserRow.toUser = .ok (as.map user) := by
  induction as with
  | nil => rfl
  | cons a as ih =>
      obtain ⟨ha, has⟩ := List.forall_mem_cons.1 h
      rw [List.map_cons, List.mapM_cons, toUser_row ha, ih has]
      rfl

end Account

/-- The rows are those of the accounts. -/
structure SqliteHolds (t : SqliteUserRepository) (as : List Account) : Prop where
  rows : t.rows = as.map Account.row
  zeroFree : ∀ a ∈ as, a.ZeroFree

namespace SqliteHolds

variable {t : SqliteUserRepository} {as : List Account}

theorem empty : SqliteHolds SqliteUserRepository.empty [] := ⟨rfl, fun a ha => by cases ha⟩

/-- A query for a text without zero bytes compares the strings themselves. -/
theorem find? (h : SqliteHolds t as) (col : UserRow → Text) (field : Account → Bytes)
    (hcol : ∀ a : Account, col a.row = Text.bind (field a))
    (hfield : ∀ a : Account, a.ZeroFree → (0 : UInt8) ∉ field a) {val : Bytes} (hval : (0 : UInt8) ∉ val) :
    t.rows.find? (fun r => col r = Text.bind val) =
      (as.find? fun a => field a = val).map Account.row := by
  rw [h.rows, List.find?_map]
  refine congrArg _ (List.find?_congr fun a ha => ?_)
  simp only [Function.comp_apply, hcol, Text.bind_eq_iff (hfield a (h.zeroFree a ha)) hval]

theorem find?_id (h : SqliteHolds t as) {id : UserId} (hid : (0 : UInt8) ∉ id.value) :
    t.rows.find? (fun r => r.id = Text.bind id.value) =
      (as.find? fun a => a.user.id = id).map Account.row := by
  rw [h.find? UserRow.id (fun a => a.user.id.value) (fun _ => rfl) (fun a ha => ha.1.1) hid]
  simp only [UserId.value_eq_iff]

theorem findByColumn (h : SqliteHolds t as) (col : UserRow → Text) (field : Account → Bytes)
    (hcol : ∀ a : Account, col a.row = Text.bind (field a))
    (hfield : ∀ a : Account, a.ZeroFree → (0 : UInt8) ∉ field a) {val : Bytes}
    (hval : (0 : UInt8) ∉ val) :
    t.findByColumn col val = .ok ((as.find? fun a => field a = val).map Account.user) := by
  rw [SqliteUserRepository.findByColumn, h.find? col field hcol hfield hval]
  cases hfind : as.find? (fun a => field a = val) with
  | none => rfl
  | some a =>
      simp only [Option.map_some, Account.toUser_row (h.zeroFree a (List.mem_of_find?_eq_some hfind))]
      rfl

theorem findById (h : SqliteHolds t as) {id : UserId} (hid : (0 : UInt8) ∉ id.value) :
    t.findById id = .ok ((as.find? fun a => a.user.id = id).map Account.user) := by
  rw [SqliteUserRepository.findById,
    h.findByColumn UserRow.id (fun a => a.user.id.value) (fun _ => rfl) (fun a ha => ha.1.1) hid]
  simp only [UserId.value_eq_iff]

/-- An `UPDATE ... WHERE id=?` rewrites the account of the id. -/
theorem updateWhere (h : SqliteHolds t as) {id : UserId} (hzero : (0 : UInt8) ∉ id.value)
    {f : UserRow → UserRow} (hid : ∀ r, (f r).id = r.id) (hname : ∀ r, (f r).username = r.username)
    (hmail : ∀ r, (f r).email = r.email) {g : Account → Account}
    (hf : ∀ a ∈ as, a.user.id = id → f a.row = (g a).row)
    (hg : ∀ a ∈ as, a.user.id = id → (g a).ZeroFree) :
    SqliteHolds (t.updateWhere id.value f hid hname hmail) (Account.rewriteAt id g as) := by
  constructor
  · show (t.rows.map fun r => if r.id = Text.bind id.value then f r else r) = _
    rw [h.rows, Account.rewriteAt, List.map_map, List.map_map]
    refine List.map_congr_left fun a ha => ?_
    have hiff : a.row.id = Text.bind id.value ↔ a.user.id = id :=
      (Text.bind_eq_iff (h.zeroFree a ha).1.1 hzero).trans UserId.value_eq_iff
    simp only [Function.comp_apply, hiff]
    split
    · exact hf a ha ‹_›
    · rfl
  · intro b hb
    obtain ⟨a, ha, rfl⟩ := List.mem_map.1 hb
    split
    · exact hg a ha ‹_›
    · exact h.zeroFree a ha

/-- A change of the counters of one account. -/
theorem setLockout (h : SqliteHolds t as) {id : UserId} (hzero : (0 : UInt8) ∉ id.value)
    {fails lockout : Int} {g : Account → Account}
    (hg : ∀ a ∈ as, a.user.id = id → g a = { a with user := a.user.setLockout lockout fails }) :
    SqliteHolds (t.setLockout id fails lockout) (Account.rewriteAt id g as) := by
  refine h.updateWhere (f := fun r => { r with failedAttempts := fails, lockoutUntil := lockout })
    hzero (fun _ => rfl) (fun _ => rfl) (fun _ => rfl) ?_ ?_
  · intro a ha hid
    rw [hg a ha hid]
    rfl
  · intro a ha hid
    rw [hg a ha hid]
    exact h.zeroFree a ha

theorem recordLoginFailure (h : SqliteHolds t as) (hd : Account.Distinct as) {id : UserId}
    (hzero : (0 : UInt8) ∉ id.value) (now : Int) :
    let write := UserReply.ofWrite t (t.recordLoginFailure id now)
    let spec := Account.onKnown id (fun a => { a with user := a.user.countFailure now }) as
    write.1 = spec.1 ∧ SqliteHolds write.2 spec.2 := by
  intro write spec
  simp only [write, spec, SqliteUserRepository.recordLoginFailure, h.find?_id hzero]
  cases hfind : as.find? (fun a => a.user.id = id) with
  | none =>
      rw [Account.onKnown_of_none hfind]
      exact ⟨rfl, h⟩
  | some a =>
      obtain ⟨ha, hid, hspec⟩ := Account.onKnown_of_some hfind
      rw [hspec]
      refine ⟨rfl, h.setLockout hzero fun b hb hidb => ?_⟩
      rw [hd.id.inj hb ha (hidb.trans hid.symm)]
      rfl

theorem save (h : SqliteHolds t as) {u : User} {encodedHash : Bytes} (hu : u.ZeroFree)
    (hhash : (0 : UInt8) ∉ encodedHash) :
    let write := UserReply.ofWrite t (t.save u encodedHash)
    let spec := Account.step as (.save u encodedHash)
    write.1 = spec.1 ∧ SqliteHolds write.2 spec.2 := by
  intro write spec
  -- the constraints compare columns, the directory strings
  have hconstraints : (∀ r ∈ t.rows, r.id ≠ (UserRow.ofUser u encodedHash).id ∧
      r.username ≠ (UserRow.ofUser u encodedHash).username ∧
      r.email ≠ (UserRow.ofUser u encodedHash).email) ↔
      ¬ (as.any fun a => a.user.username = u.username ∨ a.user.email = u.email ∨
        a.user.id = u.id) = true := by
    have hsame : ∀ a ∈ as, (a.row.id = (UserRow.ofUser u encodedHash).id ↔ a.user.id = u.id) ∧
        (a.row.username = (UserRow.ofUser u encodedHash).username ↔ a.user.username = u.username) ∧
        (a.row.email = (UserRow.ofUser u encodedHash).email ↔ a.user.email = u.email) := by
      intro a ha
      obtain ⟨hid, hname, hmail, -⟩ := (h.zeroFree a ha).1
      exact ⟨(Text.bind_eq_iff hid hu.1).trans UserId.value_eq_iff, Text.bind_eq_iff hname hu.2.1,
        Text.bind_eq_iff hmail hu.2.2.1⟩
    rw [h.rows, List.forall_mem_map, List.any_eq_true]
    constructor
    · rintro hfree ⟨a, ha, htaken⟩
      obtain ⟨hid, hname, hmail⟩ := hfree a ha
      obtain ⟨hid', hname', hmail'⟩ := hsame a ha
      rcases of_decide_eq_true htaken with heq | heq | heq
      · exact hname (hname'.2 heq)
      · exact hmail (hmail'.2 heq)
      · exact hid (hid'.2 heq)
    · intro hfree a ha
      obtain ⟨hid', hname', hmail'⟩ := hsame a ha
      have taken := fun hs => hfree ⟨a, ha, decide_eq_true hs⟩
      exact ⟨fun heq => taken (.inr (.inr (hid'.1 heq))), fun heq => taken (.inl (hname'.1 heq)),
        fun heq => taken (.inr (.inl (hmail'.1 heq)))⟩
  simp only [write, spec, SqliteUserRepository.save, Account.step]
  split
  · rename_i hfree
    rw [if_neg (hconstraints.1 hfree)]
    refine ⟨rfl, ?_, ?_⟩
    · show t.rows ++ [UserRow.ofUser u encodedHash] = _
      rw [h.rows, List.map_append]
      rfl
    · intro a ha
      rcases List.mem_append.1 ha with ha | ha
      · exact h.zeroFree a ha
      · rw [List.mem_singleton.1 ha]
        exact ⟨hu, hhash⟩
  · rename_i htaken
    rw [if_pos (not_not.1 (mt hconstraints.2 htaken))]
    exact ⟨rfl, h⟩

theorem update (h : SqliteHolds t as) (hd : Account.Distinct as) {u : User} (hu : u.ZeroFree) :
    let write := UserReply.ofWrite t (t.update u)
    let spec := Account.step as (.update u)
    write.1 = spec.1 ∧ SqliteHolds write.2 spec.2 := by
  intro write spec
  simp only [write, spec, SqliteUserRepository.update, h.findById hu.1, Account.step]
  cases hfind : as.find? (fun a => a.user.id = u.id) with
  | none => exact ⟨rfl, h⟩
  | some a =>
      simp only [Option.map_some, bind, Except.bind]
      by_cases hfixed : a.user.username ≠ u.username ∨ a.user.email ≠ u.email
      · rw [if_pos hfixed, if_pos hfixed]
        exact ⟨rfl, h⟩
      · rw [if_neg hfixed, if_neg hfixed]
        have ha := List.mem_of_find?_eq_some hfind
        have hid : a.user.id = u.id := by simpa using List.find?_some hfind
        obtain ⟨hname, hmail⟩ := not_or.1 hfixed
        refine ⟨rfl, h.updateWhere
          (f := fun r =>
            { r with
              role := Text.bind u.role
              status := Text.bind u.status
              failedAttempts := u.failedAttempts
              lockoutUntil := u.lockoutUntil })
          (g := fun a => { a with user := u })
          hu.1 (fun _ => rfl) (fun _ => rfl) (fun _ => rfl) ?_ fun b hb _ => ⟨hu, (h.zeroFree b hb).2⟩⟩
        intro b hb hidb
        rw [hd.id.inj hb ha (hidb.trans hid.symm)]
        simp only [Account.row, UserRow.ofUser, hid, not_not.1 hname, not_not.1 hmail]

end SqliteHolds

/-! ## The two together -/

namespace UserOp

/-- No text argument has a zero byte. -/
def ZeroFree : UserOp → Prop
  | .save u encodedHash => u.ZeroFree ∧ (0 : UInt8) ∉ encodedHash
  | .update u => u.ZeroFree
  | .updateHash id encodedHash => (0 : UInt8) ∉ id.value ∧ (0 : UInt8) ∉ encodedHash
  | .recordLoginFailure id _ => (0 : UInt8) ∉ id.value
  | .recordLoginFailureUntil id _ _ => (0 : UInt8) ∉ id.value
  | .resetLoginFailures id => (0 : UInt8) ∉ id.value
  | .findByUsername n => (0 : UInt8) ∉ n
  | .findByEmail e => (0 : UInt8) ∉ e
  | .findById id => (0 : UInt8) ∉ id.value
  | .getEncodedHash id => (0 : UInt8) ∉ id.value
  | .listAll => True

/-- The writes that SQLite makes without a look at the row name a user that is there. -/
def Known (m : MemoryUserRepository) : UserOp → Prop
  | .updateHash id _ => ∃ u, m.findById id = .ok (some u)
  | .recordLoginFailureUntil id _ _ => ∃ u, m.findById id = .ok (some u)
  | .resetLoginFailures id => ∃ u, m.findById id = .ok (some u)
  | _ => True

end UserOp

/-- `SqliteUserRepository` is a directory of accounts, too. -/
theorem sqlite_step {m : MemoryUserRepository} {t : SqliteUserRepository} {as : List Account}
    (hm : MemoryHolds m as) (h : SqliteHolds t as) {op : UserOp} (hzero : op.ZeroFree)
    (hknown : op.Known m) :
    UserReply.Same (sqliteUserRepository.step t op).1 (Account.step as op).1 ∧
      SqliteHolds (sqliteUserRepository.step t op).2 (Account.step as op).2 := by
  have written : ∀ {write : UserReply × _} (spec : UserReply × _), write.1 = spec.1 ∧ SqliteHolds write.2 spec.2 →
      UserReply.Same write.1 spec.1 ∧ SqliteHolds write.2 spec.2 :=
    fun _ hw => ⟨UserReply.same_of_eq hw.1, hw.2⟩
  have hthere : ∀ {id}, (∃ u, m.findById id = .ok (some u)) →
      (as.any fun a => a.user.id = id) = true := by
    rintro id ⟨u, hu⟩
    have hlookup := (hm.lookup_id id).symm.trans (Except.ok.inj hu)
    obtain ⟨a, hfind, -⟩ := Option.map_eq_some_iff.1 hlookup
    have hid : a.user.id = id := by simpa using List.find?_some hfind
    exact List.any_eq_true.2 ⟨a, List.mem_of_find?_eq_some hfind, decide_eq_true hid⟩
  cases op with
  | save u encodedHash => exact written _ (h.save hzero.1 hzero.2)
  | update u => exact written _ (h.update hm.distinct hzero)
  | updateHash id encodedHash =>
      refine written (Account.onKnown id _ as) ?_
      rw [Account.onKnown, if_pos (hthere hknown)]
      refine ⟨rfl, h.updateWhere (f := fun r => { r with passHash := Text.bind encodedHash })
        hzero.1 (fun _ => rfl) (fun _ => rfl) (fun _ => rfl) (fun _ _ _ => rfl) ?_⟩
      exact fun a ha _ => ⟨(h.zeroFree a ha).1, hzero.2⟩
  | recordLoginFailure id now => exact written _ (h.recordLoginFailure hm.distinct hzero now)
  | recordLoginFailureUntil id f until' =>
      have hrow : (t.rows.any fun r => r.id = Text.bind id.value) = true := by
        rw [List.any_eq_true, ← List.find?_isSome, h.find?_id hzero, Option.isSome_map,
          List.find?_isSome]
        exact List.any_eq_true.1 (hthere hknown)
      refine written (Account.onKnown id _ as) ?_
      show (UserReply.ofWrite t (t.recordLoginFailureUntil id f until')).1 = _ ∧
        SqliteHolds (UserReply.ofWrite t (t.recordLoginFailureUntil id f until')).2 _
      rw [Account.onKnown, if_pos (hthere hknown), SqliteUserRepository.recordLoginFailureUntil,
        if_pos hrow]
      exact ⟨rfl, h.setLockout hzero fun _ _ _ => rfl⟩
  | resetLoginFailures id =>
      refine written (Account.onKnown id _ as) ?_
      rw [Account.onKnown, if_pos (hthere hknown)]
      exact ⟨rfl, h.setLockout hzero fun _ _ _ => rfl⟩
  | findByUsername n =>
      have hfound := h.findByColumn UserRow.username (fun a => a.user.username)
        (fun _ => rfl) (fun a ha => ha.1.2.1) hzero
      exact ⟨UserReply.same_of_eq (congrArg (UserReply.ofQuery .user) hfound), h⟩
  | findByEmail e =>
      have hfound := h.findByColumn UserRow.email (fun a => a.user.email)
        (fun _ => rfl) (fun a ha => ha.1.2.2.1) hzero
      exact ⟨UserReply.same_of_eq (congrArg (UserReply.ofQuery .user) hfound), h⟩
  | findById id =>
      exact ⟨UserReply.same_of_eq (congrArg (UserReply.ofQuery .user) (h.findById hzero)), h⟩
  | getEncodedHash id =>
      show UserReply.Same (UserReply.ofQuery .hash (t.getEncodedHash id)) _ ∧ _
      simp only [SqliteUserRepository.getEncodedHash, h.find?_id hzero, Account.step]
      cases hfind : as.find? fun a => a.user.id = id with
      | none => exact ⟨.refl _, h⟩
      | some a =>
          have hhash : a.row.passHash.1 = a.hash :=
            cstr_of_not_mem (h.zeroFree a (List.mem_of_find?_eq_some hfind)).2
          exact ⟨UserReply.same_of_eq (congrArg UserReply.hash hhash), h⟩
  | listAll =>
      have hall : t.listAll = .ok (as.map Account.user) := by
        rw [SqliteUserRepository.listAll, h.rows]
        exact Account.mapM_toUser_row h.zeroFree
      exact ⟨UserReply.same_of_eq (congrArg (UserReply.ofQuery .users) hall), h⟩

/-- In a run of such operations both repositories answer the same. -/
theorem user_repositories_agree (ops : List UserOp)
    (h : ∀ t ∈ trace memoryUserRepository.step memoryUserRepository.empty ops,
      t.input.ZeroFree ∧ t.input.Known t.before) :
    List.Forall₂ UserReply.Same (memoryUserRepository.replies ops)
      (sqliteUserRepository.replies ops) := by
  let Held : MemoryUserRepository → SqliteUserRepository → Prop :=
    fun m t => ∃ as, MemoryHolds m as ∧ SqliteHolds t as
  let Regular : MemoryUserRepository → UserOp → Prop := fun m op => op.ZeroFree ∧ op.Known m
  have hstep : ∀ m t op, Held m t → Regular m op →
      UserReply.Same (memoryUserRepository.step m op).1 (sqliteUserRepository.step t op).1 ∧
        Held (memoryUserRepository.step m op).2 (sqliteUserRepository.step t op).2 := by
    rintro m t op ⟨as, hm, ht⟩ ⟨hzero, hknown⟩
    obtain ⟨hsame, hm'⟩ := memory_step hm op
    obtain ⟨hsame', ht'⟩ := sqlite_step hm ht hzero hknown
    exact ⟨hsame.trans hsame'.symm, _, hm', ht'⟩
  exact outputs_of_simulation hstep ops ⟨[], MemoryHolds.empty, SqliteHolds.empty⟩ h

def bob : User where
  id := ⟨ascii "usr_b"⟩
  username := ascii "bob"
  email := ascii "b@x"
  role := ascii "user"
  status := ascii "active"
  failedAttempts := 0
  lockoutUntil := 0
  nonempty := by decide

/-- Bob is saved, is locked out for a while and is found again. -/
theorem user_repositories_agree_on_bob :
    let ops : List UserOp :=
      [.save bob (ascii "hash"), .recordLoginFailureUntil bob.id 5 60, .findByEmail (ascii "b@x")]
    memoryUserRepository.replies ops =
        [.done, .done, .user (some (bob.setLockout 60 5))] ∧
      List.Forall₂ UserReply.Same (memoryUserRepository.replies ops)
        (sqliteUserRepository.replies ops) := by
  refine ⟨by decide +kernel, user_repositories_agree _ fun t ht => ?_⟩
  simp only [trace, List.mem_cons, List.not_mem_nil, or_false] at ht
  rcases ht with rfl | rfl | rfl
  · exact ⟨(by decide : bob.ZeroFree ∧ (0 : UInt8) ∉ ascii "hash"), trivial⟩
  · exact ⟨(by decide : (0 : UInt8) ∉ bob.id.value), bob, by decide +kernel⟩
  · exact ⟨(by decide : (0 : UInt8) ∉ ascii "b@x"), trivial⟩

/-- Failures are reset for a user that is not there: one repository throws, the other says nothing. -/
theorem reset_of_unknown_differs :
    let ops : List UserOp := [.resetLoginFailures bob.id]
    memoryUserRepository.replies ops = [.threw .notFound] ∧
      sqliteUserRepository.replies ops = [.done] ∧
      ¬ List.Forall₂ UserReply.Same (memoryUserRepository.replies ops)
        (sqliteUserRepository.replies ops) := by
  refine ⟨by decide +kernel, by decide +kernel, fun h => ?_⟩
  cases h with
  | cons hsame _ => cases hsame

end SecureFileTransfer
