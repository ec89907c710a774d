import SecureFileTransfer.AccountSteps
import SecureFileTransfer.Lib.Runs

/-!
# Registration — users that are registered can be found

Whether a name or a mail is empty is decided on the whole string, and a column keeps it up to its
first zero byte.  As long as no registered string has one, every successful registration is found
again by name and by id, and no query throws.
-/

namespace SecureFileTransfer

open Prog Service Runs

/-- The arguments of `AuthService::registerUser`. -/
structure RegisterArgs where
  username : Bytes
  email : Bytes
  password : Bytes
  role : Bytes := ascii "user"

/-- One registration over `SqliteUserRepository`. -/
def registerStep (env : Env) (w : World .sqlite) (a : RegisterArgs) :
    Except Exn (Result UserId) × World .sqlite :=
  registerUser env a.username a.email a.password a.role w

abbrev RegisterTransition := Transition (World .sqlite) RegisterArgs (Except Exn (Result UserId))

def registrations (env : Env) (calls : List RegisterArgs) : List RegisterTransition :=
  trace (registerStep env) (World.empty .sqlite) calls

/-- The user table after the registrations. -/
def registeredUsers (env : Env) (calls : List RegisterArgs) : SqliteUserRepository :=
  (final (registerStep env) (World.empty .sqlite) calls).users

/-- The queries of the table do what the registrations say. -/
structure FindsRegistered (h : List RegisterTransition) (t : SqliteUserRepository) : Prop where
  found : ∀ call ∈ h, ∀ i, call.output = .ok (.success i) →
    ∃ u, t.findByUsername call.input.username = .ok (some u) ∧ t.findById i = .ok (some u) ∧
      u.username = call.input.username ∧ u.email = call.input.email
  byUsername : ∀ n, ∃ r, t.findByUsername n = .ok r
  byEmail : ∀ e, ∃ r, t.findByEmail e = .ok r
  byId : ∀ i, ∃ r, t.findById i = .ok r
  all : ∃ us, t.listAll = .ok us

/-! ## Rows that can be read back -/

/-- The row of a registration: its columns are the strings of the call. -/
structure RowOf (a : RegisterArgs) (i : UserId) (r : UserRow) : Prop where
  id : r.id.1 = i.value
  username : r.username.1 = a.username
  email : r.email.1 = a.email

/-- Every row reads back as a user, and every successful registration has its row. -/
structure Readable (h : List RegisterTransition) (t : SqliteUserRepository) : Prop where
  reads : ∀ r ∈ t.rows, ∃ u, r.toUser = .ok u
  stored : ∀ call ∈ h, ∀ i, call.output = .ok (.success i) → ∃ r ∈ t.rows, RowOf call.input i r

namespace SqliteUserRepository

variable {t : SqliteUserRepository}

/-- A query on a table of readable rows does not throw. -/
theorem findByColumn_ok (h : ∀ r ∈ t.rows, ∃ u, r.toUser = .ok u) (col : UserRow → Text)
    (val : Bytes) : ∃ found, t.findByColumn col val = .ok found := by
  unfold findByColumn
  cases hfind : t.rows.find? (fun r => col r = Text.bind val) with
  | none => exact ⟨none, rfl⟩
  | some r =>
      obtain ⟨u, hu⟩ := h r (List.mem_of_find?_eq_some hfind)
      exact ⟨some u, by simp [hu]⟩

/-- A row is found by the value of a unique column. -/
theorem findByColumn_of_mem {col : UserRow → Text} (hcol : Unique col t.rows) {r : UserRow} {u : User}
    (hr : r ∈ t.rows) (hu : r.toUser = .ok u) : t.findByColumn col (col r).1 = .ok (some u) := by
  have hfind : t.rows.find? (fun r' => col r' = Text.bind (col r).1) = some r :=
    hcol.find?_iff.2 ⟨hr, (Text.bind_val _).symm⟩
  rw [findByColumn, hfind]
  simp [hu]

theorem mapM_toUser_ok {rows : List UserRow} (h : ∀ r ∈ rows, ∃ u, r.toUser = .ok u) :
    ∃ us, rows.mapM UserRow.toUser = .ok us := by
  induction rows with
  | nil => exact ⟨[], rfl⟩
  | cons r rows ih =>
      obtain ⟨u, hu⟩ := h r List.mem_cons_self
      obtain ⟨us, hus⟩ := ih fun r' hr' => h r' (List.mem_cons_of_mem _ hr')
      exact ⟨u :: us, by simp [List.mapM_cons, hu, hus, bind, Except.bind, pure, Except.pure]⟩

end SqliteUserRepository

theorem Readable.findsRegistered {h : List RegisterTransition} {t : SqliteUserRepository}
    (hread : Readable h t) : FindsRegistered h t where
  found := by
    intro call hcall i hsuccess
    obtain ⟨r, hr, hrow⟩ := hread.stored call hcall i hsuccess
    obtain ⟨u, hu⟩ := hread.reads r hr
    obtain ⟨hname, hmail, -⟩ := SqliteUserRepository.toUser_eq_ok hu
    refine ⟨u, ?_, ?_, hname.trans hrow.username, hmail.trans hrow.email⟩
    · rw [← hrow.username]
      exact SqliteUserRepository.findByColumn_of_mem t.username hr hu
    · have hfound := SqliteUserRepository.findByColumn_of_mem t.id hr hu
      rw [hrow.id] at hfound
      exact hfound
  byUsername := SqliteUserRepository.findByColumn_ok hread.reads _
  byEmail := SqliteUserRepository.findByColumn_ok hread.reads _
  byId i := SqliteUserRepository.findByColumn_ok hread.reads _ _
  all := SqliteUserRepository.mapM_toUser_ok hread.reads

/-! ## Runs of registrations -/

/-- No zero byte in the name and in the mail. -/
def RegisterArgs.ZeroFree (a : RegisterArgs) : Prop :=
  (0 : UInt8) ∉ a.username ∧ (0 : UInt8) ∉ a.email

instance (a : RegisterArgs) : Decidable a.ZeroFree := inferInstanceAs (Decidable (_ ∧ _))

theorem rowOf_new {id : UserId} {a : RegisterArgs} {status : Bytes} {f l : Int} {u : User}
    (hid : (0 : UInt8) ∉ id.value) (ha : a.ZeroFree)
    (h : User.new id a.username a.email a.role status f l = .ok u) (encodedHash : Bytes) :
    RowOf a id (UserRow.ofUser u encodedHash) := by
  obtain ⟨rfl, hname, hmail, -⟩ := User.fields_of_new h
  refine ⟨cstr_of_not_mem hid, ?_, ?_⟩
  · show cstr u.username = a.username
    rw [hname, cstr_of_not_mem ha.1]
  · show cstr u.email = a.email
    rw [hmail, cstr_of_not_mem ha.2]

/-- One registration. -/
theorem Readable.register {env : Env} {h : List RegisterTransition} {w : World .sqlite}
    {a : RegisterArgs} (hread : Readable h w.users) (ha : a.ZeroFree) :
    Readable (h ++ [.of (registerStep env) w a]) (registerStep env w a).2.users := by
  rcases hrun : registerStep env w a with ⟨r, w'⟩
  have hsaved := of_wp (registerUser_saves a.username a.email a.password a.role) hrun
  have hof : Transition.of (registerStep env) w a = ⟨w, a, r, w'⟩ := by
    simp only [Transition.of, hrun]
  rw [hof]
  cases hsaved with
  | refused failed stores =>
      have husers : w'.users = w.users := congrArg Stores.users stores
      refine ⟨fun row hrow => hread.reads row (by rw [husers] at hrow; exact hrow), ?_⟩
      intro call hcall i hsuccess
      rcases List.mem_append.1 hcall with hcall | hcall
      · rw [husers]
        exact hread.stored call hcall i hsuccess
      · obtain rfl := List.mem_singleton.1 hcall
        exact absurd hsuccess (failed i)
  | @saved id n user users zeroFree _ new write stores result =>
      have husers : w'.users = users := congrArg Stores.users stores
      have hrows := SqliteUserRepository.save_ok write
      have hrow := rowOf_new zeroFree ha new (env.hash n a.password)
      rw [husers]
      constructor
      · intro row hmem
        rw [hrows] at hmem
        rcases List.mem_append.1 hmem with hmem | hmem
        · exact hread.reads row hmem
        · obtain rfl := List.mem_singleton.1 hmem
          -- the columns are the strings of the user, which are not empty
          refine SqliteUserRepository.toUser_eq_ok_iff.2 ?_
          obtain ⟨hid, hname, hmail, -⟩ := User.fields_of_new new
          rw [hrow.id, hrow.username, hrow.email, ← hid, ← hname, ← hmail]
          exact user.nonempty
      · intro call hcall i hsuccess
        rw [hrows]
        rcases List.mem_append.1 hcall with hcall | hcall
        · obtain ⟨row, hmem, hof⟩ := hread.stored call hcall i hsuccess
          exact ⟨row, List.mem_append_left _ hmem, hof⟩
        · obtain rfl := List.mem_singleton.1 hcall
          rcases result with hr | ⟨e, hr, -⟩
          · obtain rfl : id = i := by
              cases hr.symm.trans hsuccess
              rfl
            exact ⟨_, List.mem_append_right _ (List.mem_singleton.2 rfl), hrow⟩
          · cases hr.symm.trans hsuccess

theorem finds_registered_of_run (env : Env) (calls : List RegisterArgs)
    (hcalls : ∀ a ∈ calls, a.ZeroFree) :
    FindsRegistered (registrations env calls) (registeredUsers env calls) := by
  refine Readable.findsRegistered ?_
  induction calls using List.reverseRecOn with
  | nil => exact ⟨fun r hr => (by cases hr), fun call hcall => (by cases hcall)⟩
  | append_singleton calls a ih =>
      rw [registrations, registeredUsers, trace_concat, final_concat]
      exact (ih fun a' ha' => hcalls a' (List.mem_append_left _ ha')).register
        (hcalls a (List.mem_append_right _ (List.mem_singleton.2 rfl)))

def alice : RegisterArgs where
  username := ascii "alice"
  email := ascii "a@x"
  password := ascii "password"

theorem finds_registered_alice :
    (registrations Env.counting [alice]).map (·.output) =
        [.ok (.success (generateUserId (Env.counting.randomId 0)))] ∧
      FindsRegistered (registrations Env.counting [alice]) (registeredUsers Env.counting [alice]) :=
  ⟨by decide +kernel, finds_registered_of_run _ _ (by
    rintro a (_ | ⟨_, ⟨⟩⟩)
    exact (by decide : alice.ZeroFree))⟩

/-- A name that is not empty, but whose column is. -/
def nameless : RegisterArgs where
  username := [0]
  email := ascii "a@x"
  password := ascii "password"

/-- The registration succeeds, and from then on the list of users throws. -/
theorem nameless_breaks_listAll :
    (registrations Env.counting [nameless]).map (·.output) =
        [.ok (.success (generateUserId (Env.counting.randomId 0)))] ∧
      (registeredUsers Env.counting [nameless]).listAll = .error (.validation "user fields empty") ∧
      ¬ FindsRegistered (registrations Env.counting [nameless])
        (registeredUsers Env.counting [nameless]) := by
  have hlist : (registeredUsers Env.counting [nameless]).listAll =
      .error (.validation "user fields empty") := by decide +kernel
  refine ⟨by decide +kernel, hlist, fun h => ?_⟩
  obtain ⟨us, hus⟩ := h.all
  cases hlist.symm.trans hus

end SecureFileTransfer
