import SecureFileTransfer.Protocol

/-!
# ProtocolProofs — the payload codecs accept exactly their encodings

Each field reader satisfies `PrefixCodec.Decodes`; the six payload readers follow field by field,
and one statement over the payload kinds collects what that gives.
-/

namespace SecureFileTransfer

open PrefixCodec

/-- The only failure of a decoder: a `ValidationException`, never a read outside the body. -/
def Refusal (e : Exn) : Prop := e.cls = .validation

/-- The length of the field survives the cast to 32 bits. -/
def Fits (s : Bytes) : Prop := s.length < 2 ^ 32

theorem length_putBytesWithLen (s : Bytes) : (putBytesWithLen s).length = 4 + s.length := by
  simp [putBytesWithLen]

/-! ## Field readers -/

/-- What `readStr` does at an offset inside the buffer, as one equation. -/
theorem readStr_run {b : Bytes} {off : Nat} (hoff : off + 4 ≤ b.length) {len : UInt32}
    (hlen : get32be b off = some len) :
    (readStr b).run off =
      if off + 4 + len.toNat > b.length then
        .error (Exn.validation "short body")
      else
        .ok ((b.drop (off + 4)).take len.toNat, off + 4 + len.toNat) := by
  have hhead : ¬ off + 4 > b.length := by omega
  by_cases hbody : off + 4 + len.toNat > b.length
  · have hrun : (readStr b).run off = .error (Exn.validation "short body") := by
      simp only [readStr, hlen, inBounds, StateT.run_bind, StateT.run_get, pure_bind, if_neg hhead,
        StateT.run_set, StateT.run_pure, if_pos hbody, StateT.run_throw]
      rfl
    rw [hrun, if_pos hbody]
  · have hslice : slice b (off + 4) (off + 4 + len.toNat) =
        some ((b.drop (off + 4)).take len.toNat) := by
      rw [slice_of_le (by omega) (by omega), Nat.add_sub_cancel_left]
    simp only [readStr, hlen, hslice, inBounds, StateT.run_bind, StateT.run_get, pure_bind,
      if_neg hhead, StateT.run_set, StateT.run_pure, if_neg hbody]
    rfl

theorem readStr_run_short {b : Bytes} {off : Nat} (hoff : ¬ off + 4 ≤ b.length) :
    (readStr b).run off = .error (Exn.validation "short") := by
  have hhead : off + 4 > b.length := by omega
  simp only [readStr, StateT.run_bind, StateT.run_get, pure_bind, if_pos hhead, StateT.run_throw]
  rfl

theorem readStr_decodes : Decodes readStr putBytesWithLen Fits Refusal where
  ok_iff := by
    intro b off s off' _
    by_cases hhead : off + 4 ≤ b.length
    · obtain ⟨len, hlen⟩ := get32be_isSome hhead
      have hsplit := drop_eq_of_get32be hlen
      rw [readStr_run hhead hlen, hsplit, putBytesWithLen]
      constructor
      · intro h
        split at h
        · cases h
        · next hbody =>
            cases h
            have hs : ((b.drop (off + 4)).take len.toNat).length = len.toNat := by
              rw [List.length_take, List.length_drop]
              omega
            refine ⟨?_, ?_, ?_⟩
            · rw [Fits, hs]
              exact len.toNat_lt
            · rw [hs, UInt32.ofNat_toNat, List.prefix_append_right_inj]
              exact List.take_prefix _ _
            · rw [List.length_append, length_put32be, hs]
              omega
      · rintro ⟨hfits, hpre, rfl⟩
        -- both length words start the same bytes, so the word read is the length of `s`
        have hword : UInt32.ofNat s.length = len := by
          apply put32be_injective
          have h₁ := List.prefix_iff_eq_take.1 ((List.prefix_append _ s).trans hpre)
          rw [h₁, length_put32be, List.take_left' (length_put32be len)]
        have hnat : len.toNat = s.length := by
          rw [← hword]
          exact UInt32.toNat_ofNat_of_lt' hfits
        rw [hword, List.prefix_append_right_inj] at hpre
        have hroom : s.length ≤ b.length - (off + 4) := by
          simpa using hpre.length_le
        rw [if_neg (by omega), hnat, ← List.prefix_iff_eq_take.1 hpre, List.length_append,
          length_put32be, Nat.add_assoc]
    · rw [readStr_run_short hhead]
      constructor
      · intro h
        cases h
      · rintro ⟨_, hpre, _⟩
        have hlen := hpre.length_le
        rw [length_putBytesWithLen, List.length_drop] at hlen
        omega
  error := by
    intro b off e _ h
    by_cases hhead : off + 4 ≤ b.length
    · obtain ⟨len, hlen⟩ := get32be_isSome hhead
      rw [readStr_run hhead hlen] at h
      split at h <;> cases h
      rfl
    · rw [readStr_run_short hhead] at h
      cases h
      rfl

theorem read64_run (what : String) {b : Bytes} {off : Nat} :
    (read64 what b).run off =
      match get64be b off with
      | some v => .ok (v, off + 8)
      | none => .error (Exn.validation what) := by
  by_cases hroom : off + 8 ≤ b.length
  · obtain ⟨v, hv⟩ := get64be_isSome hroom
    have hhead : ¬ off + 8 > b.length := by omega
    simp only [read64, hv, inBounds, StateT.run_bind, StateT.run_get, pure_bind, if_neg hhead,
      StateT.run_set, StateT.run_pure]
    rfl
  · have hhead : off + 8 > b.length := by omega
    have hnone : get64be b off = none := if_neg hroom
    simp only [read64, hnone, StateT.run_bind, StateT.run_get, pure_bind, if_pos hhead,
      StateT.run_throw]
    rfl

theorem read64_decodes (what : String) :
    Decodes (read64 what) put64be (fun _ => True) Refusal where
  ok_iff := by
    intro b off v off' _
    rw [read64_run, ← get64be_eq_some_iff, length_put64be]
    cases get64be b off with
    | none => simp
    | some w =>
        simp only [Except.ok.injEq, Prod.mk.injEq, Option.some.injEq, true_and]
        exact and_congr_right fun _ => eq_comm
  error := by
    intro b off e _ h
    rw [read64_run] at h
    split at h <;> cases h
    rfl

theorem readDigest_run {b : Bytes} {off : Nat} (h : off + 32 ≤ b.length) :
    (readDigest b).run off =
      .ok (⟨(b.drop off).take 32, by rw [List.length_take, List.length_drop]; omega⟩,
        off + 32) := by
  have hhead : ¬ off + 32 > b.length := by omega
  simp only [readDigest, StateT.run_bind, StateT.run_get, pure_bind, dif_neg hhead, StateT.run_set,
    StateT.run_pure]
  rfl

theorem readDigest_run_short {b : Bytes} {off : Nat} (h : ¬ off + 32 ≤ b.length) :
    (readDigest b).run off = .error (Exn.validation "short digest") := by
  have hhead : off + 32 > b.length := by omega
  simp only [readDigest, StateT.run_bind, StateT.run_get, pure_bind, dif_pos hhead,
    StateT.run_throw]
  rfl

theorem readDigest_decodes : Decodes readDigest Subtype.val (fun _ => True) Refusal where
  ok_iff := by
    intro b off d off' _
    by_cases hroom : off + 32 ≤ b.length
    · rw [readDigest_run hroom]
      constructor
      · intro h
        cases h
        exact ⟨trivial, List.take_prefix _ _, by rw [List.length_take, List.length_drop]; omega⟩
      · rintro ⟨_, hpre, rfl⟩
        have htake := List.prefix_iff_eq_take.1 hpre
        rw [d.property] at htake
        rw [d.property]
        congr 2
        exact Subtype.ext htake.symm
    · rw [readDigest_run_short hroom]
      constructor
      · intro h
        cases h
      · rintro ⟨_, hpre, _⟩
        have hlen := hpre.length_le
        rw [d.property, List.length_drop] at hlen
        omega
  error := by
    intro b off e _ h
    by_cases hroom : off + 32 ≤ b.length
    · rw [readDigest_run hroom] at h
      cases h
    · rw [readDigest_run_short hroom] at h
      cases h
      rfl

/-! ## Payload readers -/

def RegisterPayload.InRange (p : RegisterPayload) : Prop :=
  Fits p.username ∧ Fits p.email ∧ Fits p.password

def LoginPayload.InRange (p : LoginPayload) : Prop :=
  Fits p.username ∧ Fits p.password

def AdminPayload.InRange (p : AdminPayload) : Prop :=
  Fits p.token ∧ Fits p.targetId

def UploadInit.InRange (p : UploadInit) : Prop :=
  Fits p.recipient ∧ Fits p.origName ∧ Fits p.uploadId ∧ Fits p.wrapped.recipientId.value ∧
    Fits p.wrapped.nonce ∧ Fits p.wrapped.bytes ∧ Fits p.wrapped.alg

def UploadData.InRange (p : UploadData) : Prop :=
  Fits p.uploadId ∧ Fits p.chunk

def DownloadReq.InRange (p : DownloadReq) : Prop :=
  Fits p.fileId ∧ Fits p.token

theorem readRegister_decodes :
    Decodes readRegister encodeRegister RegisterPayload.InRange Refusal := by
  have hchain := Decodes.field (K := fun _ => True) RegisterPayload.username readStr_decodes
    fun u => Decodes.field RegisterPayload.email readStr_decodes
      fun e => Decodes.field RegisterPayload.password readStr_decodes
        fun p => Decodes.done (v := ⟨u, e, p⟩) (by rintro ⟨⟩; simp [and_assoc])
  exact hchain.congr (by simp [RegisterPayload.InRange]) (by simp [encodeRegister])

theorem readLogin_decodes : Decodes readLogin encodeLogin LoginPayload.InRange Refusal := by
  have hchain := Decodes.field (K := fun _ => True) LoginPayload.username readStr_decodes
    fun u => Decodes.field LoginPayload.password readStr_decodes
      fun p => Decodes.done (v := ⟨u, p⟩) (by rintro ⟨⟩; simp)
  exact hchain.congr (by simp [LoginPayload.InRange]) (by simp [encodeLogin])

theorem readAdmin_decodes : Decodes readAdmin encodeAdmin AdminPayload.InRange Refusal := by
  have hchain := Decodes.field (K := fun _ => True) AdminPayload.token readStr_decodes
    fun t => Decodes.field AdminPayload.targetId readStr_decodes
      fun i => Decodes.done (v := ⟨t, i⟩) (by rintro ⟨⟩; simp)
  exact hchain.congr (by simp [AdminPayload.InRange]) (by simp [encodeAdmin])

theorem readUploadInit_decodes :
    Decodes readUploadInit encodeUploadInit UploadInit.InRange Refusal := by
  have hchain := Decodes.field (K := fun _ => True) UploadInit.recipient readStr_decodes
    fun r => Decodes.field UploadInit.origName readStr_decodes
    fun o => Decodes.field UploadInit.uploadId readStr_decodes
    fun u => Decodes.field UploadInit.size (read64_decodes "short size")
    fun s => Decodes.field UploadInit.digest readDigest_decodes
    fun d => Decodes.field (fun p : UploadInit => p.wrapped.recipientId.value) readStr_decodes
    fun i => Decodes.field (fun p : UploadInit => p.wrapped.nonce) readStr_decodes
    fun n => Decodes.field (fun p : UploadInit => p.wrapped.bytes) readStr_decodes
    fun w => Decodes.field (fun p : UploadInit => p.wrapped.alg) readStr_decodes
    fun a => Decodes.done (v := (⟨r, o, u, s, d, ⟨⟨i⟩, n, w, a⟩⟩ : UploadInit))
      (by rintro ⟨_, _, _, _, _, ⟨⟨⟩, _, _, _⟩⟩; simp [and_assoc])
  exact hchain.congr (by simp [UploadInit.InRange]) (by simp [encodeUploadInit])

theorem readUploadData_decodes :
    Decodes readUploadData encodeUploadData UploadData.InRange Refusal := by
  have hchain := Decodes.field (K := fun _ => True) UploadData.uploadId readStr_decodes
    fun u => Decodes.field UploadData.offset (read64_decodes "short offset")
      fun o => Decodes.field UploadData.chunk readStr_decodes
        fun c => Decodes.done (v := ⟨u, o, c⟩) (by rintro ⟨⟩; simp [and_assoc])
  exact hchain.congr (by simp [UploadData.InRange]) (by simp [encodeUploadData])

theorem readDownloadReq_decodes :
    Decodes readDownloadReq encodeDownloadReq DownloadReq.InRange Refusal := by
  have hchain := Decodes.field (K := fun _ => True) DownloadReq.fileId readStr_decodes
    fun f => Decodes.field DownloadReq.token readStr_decodes
      fun t => Decodes.done (v := ⟨f, t⟩) (by rintro ⟨⟩; simp)
  exact hchain.congr (by simp [DownloadReq.InRange]) (by simp [encodeDownloadReq])

/-! ## The payload kinds -/

inductive PayloadKind
  | register
  | login
  | admin
  | uploadInit
  | uploadData
  | downloadReq
  deriving DecidableEq, Repr

namespace PayloadKind

abbrev Payload : PayloadKind → Type
  | register => RegisterPayload
  | login => LoginPayload
  | admin => AdminPayload
  | uploadInit => UploadInit
  | uploadData => UploadData
  | downloadReq => DownloadReq

def encode : (k : PayloadKind) → k.Payload → Bytes
  | register => encodeRegister
  | login => encodeLogin
  | admin => encodeAdmin
  | uploadInit => encodeUploadInit
  | uploadData => encodeUploadData
  | downloadReq => encodeDownloadReq

def decode : (k : PayloadKind) → Bytes → Except Exn k.Payload
  | register => decodeRegister
  | login => decodeLogin
  | admin => decodeAdmin
  | uploadInit => decodeUploadInit
  | uploadData => decodeUploadData
  | downloadReq => decodeDownloadReq

/-- What a decoder returns for an encoded payload: the payload itself, with the default algorithm
name in an `UploadInit` that names none. -/
def normal : (k : PayloadKind) → k.Payload → k.Payload
  | uploadInit => UploadInit.withAlg
  | register | login | admin | uploadData | downloadReq => id

def InRange : (k : PayloadKind) → k.Payload → Prop
  | register => RegisterPayload.InRange
  | login => LoginPayload.InRange
  | admin => AdminPayload.InRange
  | uploadInit => UploadInit.InRange
  | uploadData => UploadData.InRange
  | downloadReq => DownloadReq.InRange

def reader : (k : PayloadKind) → Reader Exn k.Payload
  | register => readRegister
  | login => readLogin
  | admin => readAdmin
  | uploadInit => readUploadInit
  | uploadData => readUploadData
  | downloadReq => readDownloadReq

theorem reader_decodes : ∀ k : PayloadKind, Decodes k.reader k.encode k.InRange Refusal
  | register => readRegister_decodes
  | login => readLogin_decodes
  | admin => readAdmin_decodes
  | uploadInit => readUploadInit_decodes
  | uploadData => readUploadData_decodes
  | downloadReq => readDownloadReq_decodes

theorem decode_eq (k : PayloadKind) (b : Bytes) : k.decode b = k.normal <$> k.reader.decode b := by
  cases k with
  | uploadInit => rfl
  | register => exact (id_map (readRegister.decode b)).symm
  | login => exact (id_map (readLogin.decode b)).symm
  | admin => exact (id_map (readAdmin.decode b)).symm
  | uploadData => exact (id_map (readUploadData.decode b)).symm
  | downloadReq => exact (id_map (readDownloadReq.decode b)).symm

theorem decode_ok_of_reader {k : PayloadKind} {b : Bytes} {q : k.Payload}
    (h : k.reader.decode b = .ok q) : k.decode b = .ok (k.normal q) := by
  rw [decode_eq, h]
  rfl

theorem decode_error_of_reader {k : PayloadKind} {b : Bytes} {e : Exn}
    (h : k.reader.decode b = .error e) : k.decode b = .error e := by
  rw [decode_eq, h]
  rfl

theorem decode_ok_iff {k : PayloadKind} {b : Bytes} {p : k.Payload} :
    k.decode b = .ok p ↔ ∃ q, k.InRange q ∧ k.encode q <+: b ∧ p = k.normal q := by
  constructor
  · intro h
    cases hq : k.reader.decode b with
    | error e =>
        rw [decode_error_of_reader hq] at h
        cases h
    | ok q =>
        rw [decode_ok_of_reader hq] at h
        cases h
        obtain ⟨hrange, hpre⟩ := k.reader_decodes.decode_ok_iff.1 hq
        exact ⟨q, hrange, hpre, rfl⟩
  · rintro ⟨q, hrange, hpre, rfl⟩
    exact decode_ok_of_reader (k.reader_decodes.decode_ok_iff.2 ⟨hrange, hpre⟩)

end PayloadKind

open PayloadKind in
/-- The six decoders accept exactly the byte strings that start with an encoding, return the
unique encoded payload, and refuse everything else with a `ValidationException`. -/
theorem payload_codecs (k : PayloadKind) (b : Bytes) :
    (∀ p, k.decode b = .ok p ↔ ∃ q, k.InRange q ∧ k.encode q <+: b ∧ p = k.normal q) ∧
    (∀ q q', k.InRange q → k.InRange q' → k.encode q <+: b → k.encode q' <+: b → q = q') ∧
    ((∀ q, k.InRange q → ¬ k.encode q <+: b) →
      ∃ e, e.cls = ExnClass.validation ∧ k.decode b = .error e) ∧
    (∀ e, k.decode b = .error e → e.cls = ExnClass.validation) ∧
    (∀ q, k.InRange q → ∀ rest, k.decode (k.encode q ++ rest) = .ok (k.normal q)) ∧
    (∀ q, k.InRange q → ∀ c, c <+: k.encode q → c ≠ k.encode q →
      ∃ e, e.cls = ExnClass.validation ∧ k.decode c = .error e) := by
  have hk := k.reader_decodes
  refine ⟨fun p => decode_ok_iff, ?_, ?_, ?_, ?_, ?_⟩
  · intro q q' hq hq' hpre hpre'
    exact hk.unique ⟨hq, hpre⟩ ⟨hq', hpre'⟩
  · intro hnone
    obtain ⟨e, he, hdec⟩ := hk.refuses hnone
    exact ⟨e, he, decode_error_of_reader hdec⟩
  · intro e he
    cases hq : k.reader.decode b with
    | ok q =>
        rw [decode_ok_of_reader hq] at he
        cases he
    | error e' =>
        rw [decode_error_of_reader hq] at he
        cases he
        exact hk.decode_error hq
  · intro q hq rest
    exact decode_ok_of_reader (hk.decode_append hq rest)
  · intro q hq c hpre hne
    obtain ⟨e, he, hdec⟩ := hk.refuses_proper_prefix hq hpre hne
    exact ⟨e, he, decode_error_of_reader hdec⟩

end SecureFileTransfer
