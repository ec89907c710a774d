import SecureFileTransfer.FileValidator

/-!
# NameConfinement — where an accepted name leads from a root directory

The validator searches the normal form of a name for two dots.  A relative name that passes never
leaves the directory it is resolved in: its walk takes back no component from before it.  It does
not look at the root, so an absolute name passes as well.
-/

namespace SecureFileTransfer

open StdString

/-! ## Paths -/

/-- `p.is_absolute()` -/
def IsAbsolute (p : Bytes) : Prop := p.head? = some 47

instance decidableIsAbsolute : DecidablePred IsAbsolute := fun p =>
  inferInstanceAs (Decidable (p.head? = some 47))

/-- `fs::path(p) / q`: an absolute right-hand side replaces the left one. -/
def pathAppend (p q : Bytes) : Bytes :=
  if IsAbsolute q then
    q
  else if p = [] ∨ p.getLast? = some 47 then
    p ++ q
  else
    p ++ [47] ++ q

/-- The root directory and the names of a path.  The empty element after a slash at the end is left
out. -/
def elements (p : Bytes) : List Bytes :=
  (if IsAbsolute p then [[47]] else []) ++ (pathComponents p).filter (· ≠ [])

/-- The normal form of `root / name` lies below that of the root. -/
def StaysInside (root name : Bytes) : Prop :=
  elements (lexicallyNormal root) <+: elements (lexicallyNormal (pathAppend root name)) ∧
    elements (lexicallyNormal root) ≠ elements (lexicallyNormal (pathAppend root name))

/-! ## The walk over the components -/

/-- The components that are kept, last one first. -/
def walk (root : Bool) (p : Bytes) : List Bytes := (pathComponents p).foldl (normalStep root) []

theorem pathComponents_append (p q : Bytes) :
    pathComponents (p ++ 47 :: q) = pathComponents p ++ pathComponents q :=
  List.splitOn_append_cons_self p q

theorem not_mem_of_mem_pathComponents {p c : Bytes} (hc : c ∈ pathComponents p) : (47 : UInt8) ∉ c := by
  induction p generalizing c with
  | nil =>
      rw [pathComponents, List.splitOn_nil, List.mem_singleton] at hc
      simp [hc]
  | cons b p ih =>
      rw [pathComponents, List.splitOn_cons_eq_if_modifyHead] at hc
      split at hc
      · rcases List.mem_cons.1 hc with rfl | hc
        · simp
        · exact ih hc
      · next hb =>
          cases hsplit : p.splitOn (47 : UInt8) with
          | nil => exact absurd hsplit (List.splitOn_ne_nil _ _)
          | cons c' cs =>
              rw [hsplit, List.modifyHead_cons] at hc
              have hmem : ∀ c ∈ c' :: cs, (47 : UInt8) ∉ c := fun c hc => ih (by
                rw [pathComponents, hsplit]
                exact hc)
              rcases List.mem_cons.1 hc with rfl | hc
              · rw [List.mem_cons, not_or]
                exact ⟨fun h => hb (by simp [← h]), hmem c' List.mem_cons_self⟩
              · exact hmem c (List.mem_cons_of_mem _ hc)

/-- A step keeps what is there, takes back the last component or adds one. -/
theorem mem_normalStep {root : Bool} {kept : List Bytes} {c k : Bytes}
    (hk : k ∈ normalStep root kept c) : k ∈ kept ∨ k = c ∧ c ≠ [] := by
  unfold normalStep at hk
  split at hk
  · exact .inl hk
  · next hc =>
      have hne : c ≠ [] := fun h => hc (.inl h)
      split at hk
      · next hdd =>
          subst hdd
          split at hk
          · split at hk
            · cases hk
            · exact .inr ⟨List.mem_singleton.1 hk, hne⟩
          · split at hk
            · next heq =>
                rcases List.mem_cons.1 hk with rfl | hk
                · exact .inr ⟨rfl, hne⟩
                · exact .inl hk
            · exact .inl (List.mem_cons_of_mem _ hk)
      · rcases List.mem_cons.1 hk with rfl | hk
        · exact .inr ⟨rfl, hne⟩
        · exact .inl hk

/-- What a walk keeps are names: components that are not empty. -/
theorem walk_names {root : Bool} {p k : Bytes} (hk : k ∈ walk root p) :
    k ≠ [] ∧ (47 : UInt8) ∉ k := by
  have hnames : ∀ k ∈ walk root p, k ≠ [] ∧ (47 : UInt8) ∉ k := by
    refine List.foldlRecOn (motive := fun kept => ∀ k ∈ kept, k ≠ [] ∧ (47 : UInt8) ∉ k)
      (pathComponents p) (normalStep root) (by simp) fun kept hkept c hc k hk => ?_
    rcases mem_normalStep hk with hold | ⟨rfl, hne⟩
    · exact hkept k hold
    · exact ⟨hne, not_mem_of_mem_pathComponents hc⟩
  exact hnames k hk

/-! ## The elements of a normal form -/

/-- The names of a path that is put together from names are these names. -/
theorem filter_pathComponents_intercalate {ks : List Bytes}
    (hks : ∀ k ∈ ks, k ≠ [] ∧ (47 : UInt8) ∉ k) :
    (pathComponents ((ks.intersperse [47]).flatten)).filter (· ≠ []) = ks := by
  cases ks with
  | nil => rfl
  | cons k ks =>
      have hsplit : pathComponents (((k :: ks).intersperse [47]).flatten) = k :: ks :=
        List.splitOn_intercalate 47 (fun l hl => (hks l hl).2) (by simp)
      rw [hsplit, List.filter_eq_self]
      exact fun l hl => by simpa using (hks l hl).1

/-- What `lexicallyNormal` puts behind the names. -/
def trailing (root : Bool) (p : Bytes) : Bytes :=
  if endsInDirectory (pathComponents p) && ((walk root p).head?.any (· != dotdot)) then [47] else []

theorem filter_pathComponents_trailing (q : Bytes) (root : Bool) (p : Bytes) :
    (pathComponents (q ++ trailing root p)).filter (· ≠ []) =
      (pathComponents q).filter (· ≠ []) := by
  unfold trailing
  split
  · rw [show q ++ [47] = q ++ 47 :: ([] : Bytes) from rfl, pathComponents_append, List.filter_append]
    simp [pathComponents]
  · rw [List.append_nil]

/-- The names the walk has kept, and a slash where the path ends in a directory. -/
def joined (root : Bool) (p : Bytes) : Bytes :=
  ((walk root p).reverse.intersperse [47]).flatten ++ trailing root p

theorem lexicallyNormal_of_absolute {p : Bytes} (hp : IsAbsolute p) :
    lexicallyNormal p = 47 :: joined true p := by
  have hne : p ≠ [] := by
    rintro rfl
    cases hp
  have hhead : p.head? = some 47 := hp
  unfold lexicallyNormal
  rw [if_neg hne]
  simp only [hhead, if_true, decide_true]
  exact if_neg (List.cons_ne_nil _ _)

theorem lexicallyNormal_of_relative {p : Bytes} (hp : ¬ IsAbsolute p) (hne : p ≠ []) :
    lexicallyNormal p = if joined false p = [] then dot else joined false p := by
  have hhead : ¬ p.head? = some 47 := hp
  unfold lexicallyNormal
  rw [if_neg hne]
  simp only [hhead, if_false, decide_false, List.nil_append]
  rfl

/-- The normal form of an absolute path is the root directory and what the walk has kept. -/
theorem elements_lexicallyNormal {p : Bytes} (hp : IsAbsolute p) :
    elements (lexicallyNormal p) = [47] :: (walk true p).reverse := by
  have habsolute : IsAbsolute (lexicallyNormal p) := by
    rw [lexicallyNormal_of_absolute hp]
    rfl
  rw [elements, if_pos habsolute, lexicallyNormal_of_absolute hp]
  have hsplit : pathComponents (47 :: joined true p) = [] :: pathComponents (joined true p) :=
    pathComponents_append [] _
  rw [hsplit, List.filter_cons_of_neg (by simp), joined, filter_pathComponents_trailing,
    filter_pathComponents_intercalate fun k hk => walk_names (List.mem_reverse.1 hk)]
  rfl

/-! ## A relative name under a root -/

/-- A dot-dot that was kept is not taken back. -/
theorem dotdot_mem_normalStep {root : Bool} {kept : List Bytes} (h : dotdot ∈ kept) (c : Bytes) :
    dotdot ∈ normalStep root kept c := by
  unfold normalStep
  split
  · exact h
  · split
    · cases kept with
      | nil => cases h
      | cons k rest =>
          simp only
          split
          · exact List.mem_cons_self
          · next hk => exact (List.mem_cons.1 h).resolve_left (Ne.symm hk)
    · exact List.mem_cons_of_mem _ h

theorem dotdot_mem_foldl {root : Bool} {cs kept : List Bytes} (h : dotdot ∈ kept) :
    dotdot ∈ cs.foldl (normalStep root) kept :=
  List.foldlRecOn cs (normalStep root) h fun _ hkept c _ => dotdot_mem_normalStep hkept c

/-- A step that does not end in a dot-dot leaves what lies below alone. -/
theorem normalStep_append {kept : List Bytes} {c : Bytes}
    (h : dotdot ∉ normalStep false kept c) (base : List Bytes) :
    normalStep true (kept ++ base) c = normalStep false kept c ++ base := by
  unfold normalStep at h ⊢
  split
  · rfl
  · next hc =>
      rw [if_neg hc] at h
      split
      · next hdd =>
          rw [if_pos hdd] at h
          cases kept with
          -- a dot-dot with no name before it would be kept
          | nil => exact absurd (List.mem_singleton.2 rfl) h
          | cons k rest =>
              simp only [List.cons_append] at h ⊢
              split
              · next hk =>
                  rw [if_pos hk] at h
                  exact absurd List.mem_cons_self h
              · rfl
      · rfl

/-- A walk that keeps no dot-dot never takes back a component from before it. -/
theorem foldl_normalStep_append {cs kept : List Bytes}
    (h : dotdot ∉ cs.foldl (normalStep false) kept) (base : List Bytes) :
    cs.foldl (normalStep true) (kept ++ base) = cs.foldl (normalStep false) kept ++ base := by
  induction cs generalizing kept with
  | nil => rfl
  | cons c cs ih =>
      rw [List.foldl_cons] at h
      have hstep : dotdot ∉ normalStep false kept c := fun hmem => h (dotdot_mem_foldl hmem)
      rw [List.foldl_cons, normalStep_append hstep, ih h]
      rfl

/-- Under an absolute root the walk over a relative name goes on from the walk over the root. -/
theorem walk_pathAppend {root name : Bytes} (hroot : IsAbsolute root) (hname : ¬ IsAbsolute name) :
    walk true (pathAppend root name) =
      (pathComponents name).foldl (normalStep true) (walk true root) := by
  have hne : root ≠ [] := by
    rintro rfl
    cases hroot
  rw [pathAppend, if_neg hname]
  split
  · next hslash =>
      -- the root ends in a slash: its last component is empty
      obtain ⟨r, rfl⟩ := List.getLast?_eq_some_iff.1 (hslash.resolve_left hne)
      rw [walk, walk, List.append_assoc, List.singleton_append, pathComponents_append,
        pathComponents_append, List.foldl_append, List.foldl_append]
      rfl
  · rw [walk, walk, List.append_assoc, List.singleton_append, pathComponents_append,
      List.foldl_append]

theorem isAbsolute_pathAppend {root name : Bytes} (hroot : IsAbsolute root) :
    IsAbsolute (pathAppend root name) := by
  unfold pathAppend
  split
  · assumption
  · obtain ⟨rest, rfl⟩ := List.head?_eq_some_iff.1 hroot
    split <;> rfl

/-- A relative name whose walk keeps names only, and some, stays inside every root. -/
theorem staysInside_of_walk {root name : Bytes} (hroot : IsAbsolute root)
    (hname : ¬ IsAbsolute name) (hdotdot : dotdot ∉ walk false name) (hne : walk false name ≠ []) :
    StaysInside root name := by
  have hwalk : walk true (pathAppend root name) = walk false name ++ walk true root :=
    (walk_pathAppend hroot hname).trans (foldl_normalStep_append hdotdot _)
  rw [StaysInside, elements_lexicallyNormal hroot,
    elements_lexicallyNormal (isAbsolute_pathAppend hroot), hwalk, List.reverse_append]
  refine ⟨List.prefix_append (([47] : Bytes) :: (walk true root).reverse) _, fun heq => hne ?_⟩
  have hlength := congrArg List.length heq
  simp only [List.length_cons, List.length_append, List.length_reverse] at hlength
  exact List.length_eq_zero_iff.1 (by omega)

/-! ## Accepted names -/

theorem mem_intersperse {α : Type} {a sep : α} {l : List α} (h : a ∈ l) : a ∈ l.intersperse sep := by
  induction l with
  | nil => cases h
  | cons b l ih =>
      cases l with
      | nil => exact h
      | cons b' l =>
          rcases List.mem_cons.1 h with rfl | h
          · exact List.mem_cons_self
          · exact List.mem_cons_of_mem _ (List.mem_cons_of_mem _ (ih h))

/-- A component that is kept occurs in the normal form. -/
theorem infix_joined {root : Bool} {p k : Bytes} (hk : k ∈ walk root p) : k <:+: joined root p :=
  (List.infix_of_mem_flatten (mem_intersperse (List.mem_reverse.2 hk))).trans
    (List.prefix_append _ _).isInfix

theorem joined_of_walk_nil {root : Bool} {p : Bytes} (h : walk root p = []) :
    joined root p = [] := by
  rw [joined, trailing, h]
  simp

/-- What the checks of the normal form give for a relative name. -/
theorem walk_of_validate {name headerBytes : Bytes} {size : UInt64}
    (h : PdfFileValidator.validate name size headerBytes = .ok ()) (hname : ¬ IsAbsolute name) :
    dotdot ∉ walk false name ∧ walk false name ≠ [] := by
  unfold PdfFileValidator.validate at h
  split at h
  · cases h
  next hempty =>
  have hne : name ≠ [] := fun heq => hempty (.inl heq)
  simp only at h
  split at h
  · cases h
  next hdots =>
  split at h
  · cases h
  next hsuffix =>
  rw [lexicallyNormal_of_relative hname hne] at hdots hsuffix
  refine ⟨fun hmem => hdots ?_, fun hnil => hsuffix ?_⟩
  · have hinfix := infix_joined hmem
    have hjoined : joined false name ≠ [] := by
      intro heq
      rw [heq, List.infix_nil] at hinfix
      cases hinfix
    rw [if_neg hjoined, contains, find, if_pos (Nat.zero_le _), Option.isSome_map]
    exact indexOf_isSome_of_infix hinfix
  · -- nothing is kept of the name, and its normal form is a dot
    rw [if_pos (joined_of_walk_nil hnil)]
    decide

/-- An accepted name stays inside every absolute root if and only if it is relative. -/
theorem staysInside_iff_relative {name headerBytes : Bytes} {size : UInt64}
    (h : PdfFileValidator.validate name size headerBytes = .ok ()) :
    (∀ root, IsAbsolute root → StaysInside root name) ↔ ¬ IsAbsolute name := by
  constructor
  · intro hinside habsolute
    -- a root of the same name is not above it
    have hsame : pathAppend name name = name := if_pos habsolute
    have hproper := (hinside name habsolute).2
    rw [hsame] at hproper
    exact hproper rfl
  · intro hname root hroot
    obtain ⟨hdotdot, hne⟩ := walk_of_validate h hname
    exact staysInside_of_walk hroot hname hdotdot hne

theorem staysInside_iff_relative_report :
    PdfFileValidator.validate (ascii "docs/./old/../report.pdf") 3 (ascii "%PDF") = .ok () ∧
      StaysInside (ascii "/srv/storage") (ascii "docs/./old/../report.pdf") := by
  have hvalid : PdfFileValidator.validate (ascii "docs/./old/../report.pdf") 3 (ascii "%PDF") =
      .ok () := by
    decide
  exact ⟨hvalid, (staysInside_iff_relative hvalid).2 (by decide) _ (by decide)⟩

/-- An absolute name is accepted, and leads to the same file whatever the root is. -/
theorem not_staysInside_passwd :
    PdfFileValidator.validate (ascii "/etc/passwd.pdf") 3 (ascii "%PDF") = .ok () ∧
      IsAbsolute (ascii "/srv/storage") ∧
      ¬ StaysInside (ascii "/srv/storage") (ascii "/etc/passwd.pdf") := by
  refine ⟨by decide, by decide, fun h => ?_⟩
  exact absurd h.1 (by decide)

end SecureFileTransfer
