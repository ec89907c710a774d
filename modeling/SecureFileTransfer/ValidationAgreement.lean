import SecureFileTransfer.ClientApp
import SecureFileTransfer.NameConfinement
import SecureFileTransfer.UploadAssembly

/-!
# ValidationAgreement — the announcement and the commit are validated alike

`TransferService::upload` looks at the suffix of the given name to settle on a header, the validator
at that of the normal form.  A normal form ends in a file name only if the name itself ends in that
file name, so a name that is not given the PDF header is refused before the header is looked at.
-/

namespace SecureFileTransfer

open StdString Service Handler Prog Runs

/-! ## The last component of a path -/

theorem filename_append_slash (z q : Bytes) : filename (z ++ 47 :: q) = filename q := by
  rw [filename, filename, List.reverse_append, List.reverse_cons, List.append_assoc,
    List.singleton_append, List.takeWhile_append]
  split
  · next hlen =>
      -- nothing stops the walk before the slash
      have hall : q.reverse.takeWhile (· ≠ 47) = q.reverse :=
        (List.takeWhile_prefix _).eq_of_length hlen
      rw [hall]
      simp
  · rfl

theorem filename_of_not_mem {q : Bytes} (hq : (47 : UInt8) ∉ q) : filename q = q := by
  have hall : ∀ b ∈ q.reverse, decide (b ≠ 47) = true := by
    intro b hb
    rw [decide_eq_true_iff]
    rintro rfl
    exact hq (List.mem_reverse.1 hb)
  rw [filename, List.takeWhile_eq_self_iff.2 hall, List.reverse_reverse]

/-- A path is its last component, or a slash stands before it. -/
theorem eq_append_filename (p : Bytes) : (47 : UInt8) ∉ filename p ∧
    (p = filename p ∨ ∃ z, p = z ++ 47 :: filename p) := by
  induction p using List.reverseRecOn with
  | nil => exact ⟨by decide, .inl rfl⟩
  | append_singleton p b ih =>
      by_cases hb : b = 47
      · subst hb
        rw [filename_append_slash p []]
        exact ⟨by decide, .inr ⟨p, rfl⟩⟩
      · obtain ⟨hmem, hp⟩ := ih
        have hmem' : (47 : UInt8) ∉ filename p ++ [b] := by
          simp [hmem, Ne.symm hb]
        rcases hp with hp | ⟨z, hp⟩
        · rw [hp, filename_of_not_mem hmem']
          exact ⟨hmem', .inl rfl⟩
        · have hsplit : p ++ [b] = z ++ 47 :: (filename p ++ [b]) := by
            conv_lhs => rw [hp]
            simp
          rw [hsplit, filename_append_slash, filename_of_not_mem hmem']
          exact ⟨hmem', .inr ⟨z, rfl⟩⟩

theorem filename_isSuffix (p : Bytes) : filename p <:+ p := by
  rcases (eq_append_filename p).2 with hp | ⟨z, hp⟩
  · rw [← hp]
  · exact ⟨z ++ [47], by rw [List.append_assoc]; exact hp.symm⟩

/-- A suffix without a slash is one of the last component. -/
theorem isSuffix_filename {t p : Bytes} (ht : (47 : UInt8) ∉ t) (h : t <:+ p) : t <:+ filename p := by
  rcases (eq_append_filename p).2 with hp | ⟨z, hp⟩
  · rwa [← hp]
  · have hslash : 47 :: filename p <:+ p := ⟨z, hp.symm⟩
    rcases List.suffix_or_suffix_of_suffix h hslash with hle | hle
    · rcases List.suffix_cons_iff.1 hle with rfl | hle
      · exact absurd List.mem_cons_self ht
      · exact hle
    · exact absurd (hle.subset List.mem_cons_self) ht

/-! ## The last component of a normal form -/

/-- The components that are not names. -/
def specials : List Bytes := [[], dot, dotdot]

theorem pathComponents_eq_concat (p : Bytes) : ∃ cs, pathComponents p = cs ++ [filename p] := by
  have hlast : ∀ q : Bytes, (47 : UInt8) ∉ q → pathComponents q = [q] := by
    intro q hq
    have hone : List.intercalate [47] [q] = q := by simp [List.intercalate]
    have hsplit : pathComponents (List.intercalate [47] [q]) = [q] :=
      List.splitOn_intercalate 47 (by simpa using hq) (by simp)
    rwa [hone] at hsplit
  obtain ⟨hmem, hp | ⟨z, hp⟩⟩ := eq_append_filename p
  · refine ⟨[], ?_⟩
    rw [List.nil_append, ← hlast _ hmem, ← hp]
  · refine ⟨pathComponents z, ?_⟩
    conv_lhs => rw [hp]
    rw [pathComponents_append, hlast _ hmem]

theorem endsInDirectory_iff (p : Bytes) :
    endsInDirectory (pathComponents p) = true ↔ filename p ∈ specials := by
  obtain ⟨cs, hcs⟩ := pathComponents_eq_concat p
  simp [endsInDirectory, hcs, specials, or_assoc]

/-- A name at the end of a path is the last one the walk keeps. -/
theorem walk_eq_cons (root : Bool) {p : Bytes} (h : filename p ∉ specials) :
    ∃ kept, walk root p = filename p :: kept := by
  obtain ⟨cs, hcs⟩ := pathComponents_eq_concat p
  simp only [specials, List.mem_cons, List.not_mem_nil, or_false, not_or] at h
  refine ⟨cs.foldl (normalStep root) [], ?_⟩
  rw [walk, hcs, List.foldl_append, List.foldl_cons, List.foldl_nil]
  unfold normalStep
  rw [if_neg (not_or.2 ⟨h.1, h.2.1⟩), if_neg h.2.2]

theorem filename_names {root : Bool} {p k : Bytes} {ks : List Bytes} (hw : walk root p = k :: ks) :
    filename (((walk root p).reverse.intersperse [47]).flatten) = k := by
  have hsplit : pathComponents (((walk root p).reverse.intersperse [47]).flatten) =
      (walk root p).reverse :=
    List.splitOn_intercalate 47 (fun l hl => (walk_names (List.mem_reverse.1 hl)).2) (by simp [hw])
  obtain ⟨cs, hcs⟩ := pathComponents_eq_concat (((walk root p).reverse.intersperse [47]).flatten)
  have hks : (walk root p).reverse = ks.reverse ++ [k] := by rw [hw, List.reverse_cons]
  have hconcat := hks.symm.trans (hsplit.symm.trans hcs)
  exact (List.cons.inj (List.append_inj' hconcat rfl).2).1.symm

theorem filename_joined (root : Bool) (p : Bytes) :
    filename (joined root p) = filename p ∨ filename (joined root p) ∈ specials := by
  cases hw : walk root p with
  | nil =>
      rw [joined_of_walk_nil hw]
      exact .inr (by decide)
  | cons k ks =>
      have hk := filename_names hw
      rw [joined, trailing]
      split
      · -- a slash at the end, and nothing behind it
        rw [filename_append_slash _ []]
        exact .inr (by decide)
      · next hslash =>
          rw [List.append_nil, hk]
          by_cases hspecial : filename p ∈ specials
          · -- the path ends in a directory, and the slash is only left out behind a dot-dot
            rw [(endsInDirectory_iff p).2 hspecial, hw] at hslash
            have hdotdot : k = dotdot := by simpa using hslash
            rw [hdotdot]
            exact .inr (by decide)
          · obtain ⟨kept, hkept⟩ := walk_eq_cons root hspecial
            rw [hw] at hkept
            exact .inl (List.cons.inj hkept).1

/-- The normal form ends in the same name, or in none. -/
theorem filename_lexicallyNormal (p : Bytes) :
    filename (lexicallyNormal p) = filename p ∨ filename (lexicallyNormal p) ∈ specials := by
  by_cases hp : IsAbsolute p
  · rw [lexicallyNormal_of_absolute hp, ← List.nil_append (47 :: joined true p),
      filename_append_slash]
    exact filename_joined true p
  · by_cases hne : p = []
    · subst hne
      exact .inl rfl
    · rw [lexicallyNormal_of_relative hp hne]
      split
      · exact .inr (by decide)
      · exact filename_joined false p

/-- Whatever the slashes, dots and dot-dots of a name, its normal form ends in `.pdf` only if the
name does. -/
theorem pdf_isSuffix_of_lexicallyNormal {p : Bytes} (h : ascii ".pdf" <:+ lexicallyNormal p) :
    ascii ".pdf" <:+ p := by
  have hname := isSuffix_filename (by decide) h
  rcases filename_lexicallyNormal p with heq | hspecial
  · rw [heq] at hname
    exact hname.trans (filename_isSuffix p)
  · -- neither nothing, nor a dot, nor two dots end in `.pdf`
    have hnone : ∀ s ∈ specials, ¬ ascii ".pdf" <:+ s := by decide
    exact absurd hname (hnone _ hspecial)

/-! ## The validation of an upload -/

theorem hasPdfMagic_fakeHdr : hasPdfMagic fakeHdr = true := by decide

/-- The header matters to the validator only where the name ends in `.pdf`. -/
theorem validate_congr {name h₁ h₂ : Bytes} (size : UInt64)
    (h : ascii ".pdf" <:+ name → hasPdfMagic h₁ = hasPdfMagic h₂) :
    PdfFileValidator.validate name size h₁ = PdfFileValidator.validate name size h₂ := by
  by_cases hpdf : ascii ".pdf" <:+ lexicallyNormal name
  · simp only [PdfFileValidator.validate, h (pdf_isSuffix_of_lexicallyNormal hpdf)]
  · -- refused at the suffix of the normal form at the latest
    have hsuffix : (ascii ".pdf").isSuffixOf (lexicallyNormal name) = false := by
      rw [← Bool.not_eq_true, List.isSuffixOf_iff_suffix]
      exact hpdf
    simp only [PdfFileValidator.validate, hsuffix, Bool.not_false, if_true]

theorem hasPdfMagic_uploadHeader {origName : Bytes} (blob : Bytes) (h : ascii ".pdf" <:+ origName) :
    hasPdfMagic (uploadHeader origName blob) = true := by
  have hsuffix : (ascii ".pdf").isSuffixOf origName = true := List.isSuffixOf_iff_suffix.2 h
  rw [uploadHeader, hsuffix, Bool.true_and]
  split
  · exact hasPdfMagic_fakeHdr
  · next hmagic => simpa using hmagic

/-- A commit is validated as its announcement was, whatever the ciphertext. -/
theorem validate_uploadHeader (origName blob : Bytes) (size : UInt64) :
    PdfFileValidator.validate origName size (uploadHeader origName blob) =
      PdfFileValidator.validate origName size fakeHdr := by
  refine validate_congr size fun hpdf => ?_
  rw [hasPdfMagic_uploadHeader blob hpdf, hasPdfMagic_fakeHdr]

/-- The checks before the first write are the same program for every ciphertext. -/
theorem checkUpload_opaqueBytes {b : Backend} (env : Env) (a : UploadArgs) (blob : Bytes) :
    checkUpload (b := b) env { a with opaqueBytes := blob } = checkUpload env a := by
  unfold checkUpload
  simp only [validate_uploadHeader]

/-- An upload that succeeds would be announced with success. -/
theorem validate_of_upload {b : Backend} {env : Env} {a : UploadArgs} {w w' : World b} {t : Transfer}
    (h : upload env a w = (.ok (.success t), w')) :
    PdfFileValidator.validate a.origName a.size fakeHdr = .ok () := by
  cases of_wp (upload_spec a) h with
  | refused failed => exact absurd rfl (failed t)
  | stored admitted =>
      rw [← validate_uploadHeader a.origName a.opaqueBytes]
      exact admitted.validated

/-! ## The runs of a server -/

/-- What is pending on the connection was accepted by the validator. -/
def PendingValidated (c : Conn) : Prop :=
  ∀ x init, c.pendingInit.lookup x = some init →
    PdfFileValidator.validate init.origName init.size fakeHdr = .ok ()

variable {env : Env} {f : Frame} {w : World .sqlite} {c : Conn}

theorem PendingValidated.announced {init : UploadInit} (h : PendingValidated c)
    (hval : PdfFileValidator.validate init.origName init.size fakeHdr = .ok ()) :
    PendingValidated (c.announced init) := by
  intro x init' hx
  rw [show (c.announced init).pendingInit = c.pendingInit.insert init.uploadId init from rfl,
    Table.lookup_insert_eq] at hx
  split at hx
  · cases hx
    exact hval
  · exact h x init' hx

theorem PendingValidated.erased {c' : Conn} {id : Bytes} (h : PendingValidated c)
    (hpi : c'.pendingInit = c.pendingInit.erase id) : PendingValidated c' := by
  intro x init hx
  rw [hpi, Table.lookup_erase_eq] at hx
  split at hx
  · cases hx
  · exact h x init hx

/-- An announcement becomes pending only behind the validator. -/
theorem handleUploadInit_pendingValidated (h : PendingValidated c) :
    wp (handleUploadInit env f) (fun _ hd => PendingValidated hd.conn ∧ hd.uploads = [])
      { world := w, conn := c } := by
  refine wp_guarded_decode ⟨h, rfl⟩ fun init _ => wp_guarded ?_
  rw [wp_bind, conn, wp_ask, wpBind_ok]
  refine wp_ite (fun _ => ⟨h, rfl⟩) fun _ => ?_
  refine wp_connTokenValid_bind (fun e w₁ _ => ⟨h, rfl⟩) fun w₁ _ => ?_
  refine wp_ite (fun _ => ?_) fun _ => ⟨h, rfl⟩
  unfold acceptInit
  cases hval : PdfFileValidator.validate init.origName init.size fakeHdr with
  | error e => exact ⟨h, rfl⟩
  | ok _ =>
      rw [wp_bind, setConn, wp_modifyGet, wpBind_ok, wp_bind, wp_tryCatch]
      refine wp_service_bind fun r w₂ _ => ?_
      rcases r with e | found
      · exact ⟨h.announced hval, rfl⟩
      · exact ⟨h.announced hval, rfl⟩

/-- No other frame makes an announcement pending. -/
theorem Handled.pendingValidated {r : Except Exn Unit} {hd : Handling}
    (handled : Handled env f w c r hd) (htype : f.type ≠ .UPLOAD_INIT) (h : PendingValidated c) :
    PendingValidated hd.conn := by
  cases handled.pendingStep with
  | announced _ type => exact absurd type htype
  | appended _ _ _ _ _ _ _ hpi => exact fun x init hx => h x init (by rwa [hpi] at hx)
  | removed _ _ hpi => exact h.erased hpi
  | same _ hpi => exact fun x init hx => h x init (by rwa [hpi] at hx)

/-- A frame keeps the pending announcements validated, and uploads only what is pending. -/
theorem handleFrame_pendingValidated (h : PendingValidated c) :
    wp (handleFrame env f) (fun _ hd => PendingValidated hd.conn ∧
      ∀ a ∈ hd.uploads, PdfFileValidator.validate a.origName a.size fakeHdr = .ok ())
      { world := w, conn := c } := by
  by_cases htype : f.type = .UPLOAD_INIT
  · rw [handleFrame_init htype]
    refine wp_mono (handleUploadInit_pendingValidated h) ?_
    rintro r hd ⟨hconn, huploads⟩
    refine ⟨hconn, fun a ha => ?_⟩
    rw [huploads] at ha
    cases ha
  · refine wp_mono (handleFrame_spec env f w c) fun r hd handled => ?_
    refine ⟨handled.pendingValidated htype h, fun a ha => ?_⟩
    obtain ⟨-, init, data, hinit, -, rfl⟩ := handled.uploads ha
    exact h _ init hinit

/-- The announcements pending on the connection that is served are validated. -/
def ServesValidated (s : ServerState) : Prop := ∀ c, s.phase = .serving c → PendingValidated c

theorem pendingValidated_fresh : PendingValidated Conn.fresh := by
  intro x init hx
  simp [Conn.fresh] at hx

theorem servesValidated_frame (env : Env) {s : ServerState} (h : ServesValidated s) (f : Frame) :
    ServesValidated (serverStep env s (.frame f)).2 ∧
      ∀ a ∈ (serverStep env s (.frame f)).1.uploads,
        PdfFileValidator.validate a.origName a.size fakeHdr = .ok () := by
  simp only [serverStep]
  split
  · next c hphase =>
      rcases hrun : handleFrame env f { world := s.world, conn := c } with ⟨r, hd⟩
      obtain ⟨hconn, huploads⟩ := of_wp (handleFrame_pendingValidated (h c hphase)) hrun
      cases r with
      | ok _ =>
          refine ⟨?_, huploads⟩
          rintro _ ⟨⟩
          exact hconn
      | error e =>
          refine ⟨?_, huploads⟩
          rintro _ ⟨⟩
  · exact ⟨h, fun a ha => by cases ha⟩

/-- Only a frame uploads, and the other events go on with no connection or a new one. -/
theorem servesValidated_step (env : Env) {s : ServerState} (h : ServesValidated s)
    (ev : ServerEvent) :
    ServesValidated (serverStep env s ev).2 ∧
      ∀ a ∈ (serverStep env s ev).1.uploads,
        PdfFileValidator.validate a.origName a.size fakeHdr = .ok () := by
  by_cases hframe : ∃ f, ev = .frame f
  · obtain ⟨f, rfl⟩ := hframe
    exact servesValidated_frame env h f
  · have hserved := serverStep_served env s ev
    generalize (serverStep env s ev).1 = out at hserved ⊢
    generalize (serverStep env s ev).2 = s' at hserved ⊢
    have hnone : ∀ a ∈ ({} : Output).uploads,
        PdfFileValidator.validate a.origName a.size fakeHdr = .ok () := fun a ha => by cases ha
    cases hserved with
    | booted run => exact ⟨fun c hc => (by cases hc), hnone⟩
    | bootThrew run => exact ⟨fun c hc => (by cases hc), hnone⟩
    | accepted phase =>
        refine ⟨?_, hnone⟩
        rintro _ ⟨⟩
        exact pendingValidated_fresh
    | handled phase handled => exact absurd ⟨_, rfl⟩ hframe
    | dropped phase handled => exact absurd ⟨_, rfl⟩ hframe
    | hungup phase => exact ⟨fun c hc => (by cases hc), hnone⟩
    | keyed save => exact ⟨h, hnone⟩
    | ignored => exact ⟨h, hnone⟩

/-- Whatever a client announces, sends and commits, every upload of a run has a name and a size its
announcement was accepted with. -/
theorem validate_of_run (env : Env) (evs : List ServerEvent) {t : ServerTransition}
    (ht : t ∈ serverTrace env evs) {a : UploadArgs} (ha : a ∈ t.output.uploads) :
    PdfFileValidator.validate a.origName a.size fakeHdr = .ok () := by
  have hrun : ServesValidated (serverAfter env evs) ∧ ∀ t ∈ serverTrace env evs,
      ∀ a ∈ t.output.uploads, PdfFileValidator.validate a.origName a.size fakeHdr = .ok () := by
    refine server_induction env (P := fun h s => ServesValidated s ∧ ∀ t ∈ h,
      ∀ a ∈ t.output.uploads, PdfFileValidator.validate a.origName a.size fakeHdr = .ok ()) ?_ ?_ evs
    · exact ⟨fun c hc => (by cases hc), fun t ht => by cases ht⟩
    · rintro is ev ⟨hserves, hbefore⟩
      obtain ⟨hafter, huploads⟩ := servesValidated_step env hserves ev
      refine ⟨hafter, fun t ht => ?_⟩
      rcases List.mem_append.1 ht with ht | ht
      · exact hbefore t ht
      · rw [List.mem_singleton.1 ht]
        exact huploads
  exact hrun.2 t ht a ha

/-- The validation of `upload` ends as that of `UPLOAD_INIT` does, with the same exception, for every
name, size and ciphertext: the checks of an upload do not depend on the ciphertext, an upload that
succeeds would be announced with success, and no upload of a server is refused at its validation. -/
theorem upload_validation_agrees :
    (∀ (origName blob : Bytes) (size : UInt64),
      PdfFileValidator.validate origName size (uploadHeader origName blob) =
        PdfFileValidator.validate origName size (ascii "%PDF-1.4")) ∧
    (∀ (b : Backend) (env : Env) (a : UploadArgs) (blob : Bytes),
      checkUpload (b := b) env { a with opaqueBytes := blob } = checkUpload env a) ∧
    (∀ (b : Backend) (env : Env) (a : UploadArgs) (w w' : World b) (t : Transfer),
      upload env a w = (.ok (.success t), w') →
        PdfFileValidator.validate a.origName a.size (ascii "%PDF-1.4") = .ok ()) ∧
    ∀ (env : Env) (evs : List ServerEvent), ∀ t ∈ serverTrace env evs, ∀ a ∈ t.output.uploads,
      PdfFileValidator.validate a.origName a.size (uploadHeader a.origName a.opaqueBytes) = .ok () := by
  refine ⟨validate_uploadHeader, fun b env a blob => checkUpload_opaqueBytes env a blob,
    fun b env a w w' t h => validate_of_upload h, fun env evs t ht a ha => ?_⟩
  rw [validate_uploadHeader]
  exact validate_of_run env evs ht ha

end SecureFileTransfer
