import SecureFileTransfer.ClientApp
import SecureFileTransfer.ProtocolProofs

/-!
# ClientTransfers — what the client sends and saves

The chunks of an upload as a list, the loop of the client as a walk along it, and the two places
where the client does not do what its transfer is for: a refused chunk ends the loop but not the
upload, and a download that happens to parse as a chunk is saved without its first bytes.
-/

namespace SecureFileTransfer

open Calls ClientApp

/-! ## The chunks of a ciphertext -/

/-- How many chunks the loop sends. -/
def chunkCount (cipher : Bytes) : Nat := (cipher.length + chunkSize - 1) / chunkSize

/-- The chunk number `i`. -/
def chunkAt (uploadId cipher : Bytes) (i : Nat) : UploadData where
  uploadId := uploadId
  offset := UInt64.ofNat (i * chunkSize)
  chunk := (cipher.drop (i * chunkSize)).take chunkSize

/-- The chunks, in the order they are sent. -/
def chunksOf (uploadId cipher : Bytes) : List UploadData :=
  (List.range (chunkCount cipher)).map (chunkAt uploadId cipher)

theorem chunkSize_pos : 0 < chunkSize := by decide

theorem lt_chunkCount_iff {cipher : Bytes} {i : Nat} :
    i < chunkCount cipher ↔ i * chunkSize < cipher.length := by
  have hpos := chunkSize_pos
  rw [chunkCount, Nat.lt_div_iff_mul_lt hpos]
  have : i * chunkSize = chunkSize * i := Nat.mul_comm ..
  omega

theorem length_chunksOf (uploadId cipher : Bytes) :
    (chunksOf uploadId cipher).length = chunkCount cipher := by
  rw [chunksOf, List.length_map, List.length_range]

/-- The first chunks are the first bytes. -/
theorem flatMap_chunk_range (uploadId cipher : Bytes) (n : Nat) :
    ((List.range n).map (chunkAt uploadId cipher)).flatMap UploadData.chunk =
      cipher.take (n * chunkSize) := by
  induction n with
  | zero => simp
  | succ n ih =>
      rw [List.range_succ, List.map_append, List.flatMap_append, ih, Nat.succ_mul, List.take_add]
      simp [chunkAt]

/-- All the chunks are the whole ciphertext. -/
theorem flatMap_chunksOf (uploadId cipher : Bytes) :
    (chunksOf uploadId cipher).flatMap UploadData.chunk = cipher := by
  rw [chunksOf, flatMap_chunk_range]
  refine List.take_of_length_le ?_
  exact Nat.le_of_not_lt fun h => lt_irrefl _ (lt_chunkCount_iff.2 h)

/-- Every chunk starts where those before it end. -/
theorem chunkAt_offset (uploadId : Bytes) {cipher : Bytes} {i : Nat} (hi : i < chunkCount cipher) :
    ((chunksOf uploadId cipher).take i).flatMap UploadData.chunk = cipher.take (i * chunkSize) ∧
      (cipher.take (i * chunkSize)).length = i * chunkSize := by
  have hlt := lt_chunkCount_iff.1 hi
  constructor
  · rw [chunksOf, ← List.map_take, List.take_range, Nat.min_eq_left hi.le, flatMap_chunk_range]
  · rw [List.length_take, Nat.min_eq_left hlt.le]

/-! ## The loop -/

/-- The frame of a chunk. -/
def dataFrame (d : UploadData) : Frame where
  type := .UPLOAD_DATA
  requestId := 4
  body := encodeUploadData d

/-- The loop as a walk along the chunks. -/
def sendAll : List UploadData → Client Unit
  | [] => pure ()
  | d :: ds => do
      Client.sendFrame (dataFrame d)
      let reply ← Client.recvFrame
      if refused reply then
        Client.printError (ascii "UPLOAD_DATA failed")
      else
        sendAll ds

/-- The loop from the offset of chunk `i` on; `turns` counts the bytes that are left. -/
theorem sendChunks_from (uploadId cipher : Bytes) (turns i : Nat)
    (hturns : cipher.length - i * chunkSize ≤ turns) :
    sendChunks uploadId cipher turns (min (i * chunkSize) cipher.length) =
      sendAll ((List.range' i (chunkCount cipher - i)).map (chunkAt uploadId cipher)) := by
  have hdone : ¬ i * chunkSize < cipher.length → chunkCount cipher - i = 0 := by
    intro h
    have := mt lt_chunkCount_iff.1 h
    omega
  induction turns generalizing i with
  | zero =>
      rw [hdone (by omega)]
      rfl
  | succ turns ih =>
      by_cases hi : i * chunkSize < cipher.length
      · have hcount : chunkCount cipher - i = chunkCount cipher - (i + 1) + 1 := by
          have := lt_chunkCount_iff.2 hi
          omega
        have hmin : min (i * chunkSize) cipher.length = i * chunkSize := Nat.min_eq_left hi.le
        -- the offset after the chunk is the next multiple, or the end
        have hnext : i * chunkSize + min chunkSize (cipher.length - i * chunkSize) =
            min ((i + 1) * chunkSize) cipher.length := by
          rw [Nat.succ_mul]
          omega
        have hchunk : (⟨uploadId, UInt64.ofNat (i * chunkSize), (cipher.drop (i * chunkSize)).take
            (min chunkSize (cipher.length - i * chunkSize))⟩ : UploadData) =
              chunkAt uploadId cipher i := by
          rw [chunkAt, ← List.length_drop, ← List.take_eq_take_min]
        have hpos := chunkSize_pos
        have hrest := ih (i + 1) (by rw [Nat.succ_mul]; omega) fun h => by
          have := mt lt_chunkCount_iff.1 h
          omega
        rw [hcount, List.range'_succ, List.map_cons, sendChunks, hmin, if_pos hi, sendAll]
        simp only [hnext, hchunk, hrest, dataFrame]
      · rw [hdone hi, sendChunks, if_neg (by omega)]
        rfl

theorem sendChunks_eq (uploadId cipher : Bytes) :
    sendChunks uploadId cipher cipher.length 0 = sendAll (chunksOf uploadId cipher) := by
  have h := sendChunks_from uploadId cipher cipher.length 0 (by omega)
  rw [Nat.zero_mul, Nat.zero_min, Nat.sub_zero, ← List.range_eq_range'] at h
  exact h

/-! ## What a run of the client says of its transfers -/

/-- A call of the client with its answer. -/
abbrev Made := (c : ClientCall) × c.ans

/-- The frames that were sent and answered by something other than `ERR`. -/
def acknowledged : List Made → List Frame
  | ⟨.sendFrame f, none⟩ :: ⟨.recvFrame, reply⟩ :: rest =>
      if refused reply then acknowledged rest else f :: acknowledged rest
  | _ :: rest => acknowledged rest
  | [] => []

/-- The acknowledged chunks. -/
def acknowledgedData (l : List Made) : List Frame :=
  (acknowledged l).filter fun f => f.type == .UPLOAD_DATA

/-- An exchange about something else is no chunk. -/
theorem acknowledgedData_exchange {f : Frame} (hf : f.type ≠ .UPLOAD_DATA) (reply : Option Frame)
    (rest : List Made) :
    acknowledgedData (⟨.sendFrame f, none⟩ :: ⟨.recvFrame, reply⟩ :: rest) = acknowledgedData rest := by
  rw [acknowledgedData, acknowledged]
  split
  · rfl
  · rw [List.filter_cons_of_neg (by simpa using hf)]
    rfl

theorem acknowledgedData_of_append {l tail : List Made} {ds : List UploadData}
    (hack : acknowledged (l ++ tail) = ds.map dataFrame ++ acknowledged tail)
    (htail : acknowledgedData tail = []) : acknowledgedData (l ++ tail) = ds.map dataFrame := by
  rw [acknowledgedData, hack, List.filter_append]
  rw [acknowledgedData] at htail
  rw [htail, List.append_nil, List.filter_eq_self]
  intro f hf
  obtain ⟨d, -, rfl⟩ := List.mem_map.1 hf
  rfl

/-- Every chunk of the ciphertext was sent and acknowledged. -/
def DeliveredWhole (uploadId cipher : Bytes) (l : List Made) : Prop :=
  ∃ ds : List UploadData, acknowledgedData l = ds.map dataFrame ∧
    ds = chunksOf uploadId cipher ∧ ds.flatMap UploadData.chunk = cipher

/-- The calls that commit an upload or report it. -/
def Commits : ClientCall → Prop
  | .sendFrame f => f.type = .UPLOAD_COMMIT
  | .print (.safe msg) => ascii "UPLOAD ok" <+: msg
  | _ => False

/-- A commit is sent, and success reported, only after the whole ciphertext. -/
def CommitsComplete (init : UploadInit) (cipher : Bytes) (l : List Made) : Prop :=
  ∀ made ∈ l, Commits made.1 → DeliveredWhole init.uploadId cipher l

/-- An exchange about something else says nothing of commits. -/
theorem commitsComplete_exchange {init : UploadInit} {cipher : Bytes} {f : Frame}
    {reply : Option Frame} {rest : List Made} (hcommits : ¬ Commits (.sendFrame f))
    (hdata : f.type ≠ .UPLOAD_DATA) :
    CommitsComplete init cipher (⟨.sendFrame f, none⟩ :: ⟨.recvFrame, reply⟩ :: rest) ↔
      CommitsComplete init cipher rest := by
  rw [CommitsComplete, CommitsComplete, DeliveredWhole, DeliveredWhole,
    acknowledgedData_exchange hdata]
  constructor
  · intro h made hmade
    exact h made (List.mem_cons_of_mem _ (List.mem_cons_of_mem _ hmade))
  · intro h made hmade hmade'
    rcases List.mem_cons.1 hmade with rfl | hmade
    · exact absurd hmade' hcommits
    · rcases List.mem_cons.1 hmade with rfl | hmade
      · exact hmade'.elim
      · exact h made hmade hmade'

/-- Exchange number `k`: the frame is sent, and the reply is not a refusal. -/
def Accepted (reactions : Nat → Reaction) (k : Nat) : Prop :=
  (reactions (2 * k)).failure = none ∧ refused (reactions (2 * k + 1)).received = false

/-- Some of `n` exchanges is refused after all before it were accepted. -/
def Interrupted (reactions : Nat → Reaction) (n : Nat) : Prop :=
  ∃ j < n, (∀ k < j, Accepted reactions k) ∧ (reactions (2 * j)).failure = none ∧
    refused (reactions (2 * j + 1)).received = true

section Chunks

variable {resolve : Bytes → Bytes} {reactions : Nat → Reaction} {disk : ClientDisk}

/-- The reactions from exchange `k` on. -/
def fromExchange (reactions : Nat → Reaction) (k : Nat) : Nat → Reaction :=
  fun n => reactions (n + 2 * k)

theorem accepted_fromExchange {m k : Nat} :
    Accepted (fromExchange reactions m) k ↔ Accepted reactions (k + m) := by
  have heven : 2 * k + 2 * m = 2 * (k + m) := by omega
  have hodd : 2 * k + 1 + 2 * m = 2 * (k + m) + 1 := by omega
  rw [Accepted, Accepted, fromExchange, fromExchange, heven, hodd]

theorem interrupted_succ_iff {n : Nat} (h : Accepted reactions 0) :
    Interrupted reactions (n + 1) ↔ Interrupted (fromExchange reactions 1) n := by
  constructor
  · rintro ⟨_ | j, hj, hbefore, hsent, hrefused⟩
    · exact absurd (hrefused.symm.trans h.2) (by simp)
    · exact ⟨j, by omega, fun k hk => accepted_fromExchange.2 (hbefore _ (by omega)), hsent, hrefused⟩
  · rintro ⟨j, hj, hbefore, hsent, hrefused⟩
    refine ⟨j + 1, by omega, fun k hk => ?_, hsent, hrefused⟩
    cases k with
    | zero => exact h
    | succ k => exact accepted_fromExchange.1 (hbefore k (by omega))

/-- A frame, then the rest. -/
theorem run_sendFrame_bind {β : Type} (resolve : Bytes → Bytes) (reactions : Nat → Reaction)
    (disk : ClientDisk) (f : Frame) (k : Unit → Client β) :
    (Client.sendFrame f >>= k).exec (ClientDisk.act resolve) reactions disk =
        ((reactions 0).failure.elim
          ((k ()).exec (ClientDisk.act resolve) (fun n => reactions (n + 1)) disk)
          fun text => (.error ⟨.runtime, text⟩, disk)) ∧
      (Client.sendFrame f >>= k).log (ClientDisk.act resolve) reactions disk =
        ⟨.sendFrame f, (reactions 0).failure⟩ :: ((reactions 0).failure.elim
          ((k ()).log (ClientDisk.act resolve) (fun n => reactions (n + 1)) disk) fun _ => []) := by
  show ((Client.throwing (reactions 0).failure).andThen k).exec (ClientDisk.act resolve)
      (fun n => reactions (n + 1)) disk = _ ∧
    ⟨.sendFrame f, (reactions 0).failure⟩ :: ((Client.throwing (reactions 0).failure).andThen k).log
      (ClientDisk.act resolve) (fun n => reactions (n + 1)) disk = _
  cases (reactions 0).failure with
  | none => exact ⟨rfl, rfl⟩
  | some text => exact ⟨rfl, rfl⟩

/-- How the loop over the chunks ends. -/
inductive Sending (reactions : Nat → Reaction) (ds : List UploadData) :
    Except Exn Unit → List Made → Prop
  /-- Every chunk is accepted. -/
  | delivered {l} (all : ∀ k < ds.length, Accepted reactions k)
      (ack : ∀ tail, acknowledged (l ++ tail) = ds.map dataFrame ++ acknowledged tail) :
      Sending reactions ds (.ok ()) l
  /-- A chunk is refused: the loop is left, and `run` goes on. -/
  | interrupted {l j} (here : j < ds.length) (cause : Interrupted reactions ds.length)
      (ack : ∀ tail, acknowledged (l ++ tail) = (ds.take j).map dataFrame ++ acknowledged tail) :
      Sending reactions ds (.ok ()) l
  /-- A frame cannot be sent: the exception leaves the loop. -/
  | threw {e l} (quiet : ¬ Interrupted reactions ds.length) : Sending reactions ds (.error e) l

/-- An accepted chunk before the rest. -/
theorem Sending.cons {d : UploadData} {ds : List UploadData} {r : Except Exn Unit} {l : List Made}
    (h : Sending (fromExchange reactions 1) ds r l) (hfirst : Accepted reactions 0) :
    Sending reactions (d :: ds) r
      (⟨.sendFrame (dataFrame d), none⟩ :: ⟨.recvFrame, (reactions 1).received⟩ :: l) := by
  have hack : ∀ rest, acknowledged (⟨.sendFrame (dataFrame d), none⟩ ::
      ⟨.recvFrame, (reactions 1).received⟩ :: rest) = dataFrame d :: acknowledged rest := by
    intro rest
    have hreply : refused (reactions 1).received = false := hfirst.2
    rw [acknowledged, hreply]
    rfl
  cases h with
  | delivered all ack =>
      refine .delivered ?_ fun tail => ?_
      · rintro (_ | k) hk
        · exact hfirst
        · exact accepted_fromExchange.1 (all k (Nat.lt_of_succ_lt_succ hk))
      · exact (hack _).trans (congrArg _ (ack tail))
  | interrupted here cause ack =>
      refine .interrupted (Nat.succ_lt_succ here) ((interrupted_succ_iff hfirst).2 cause) fun tail => ?_
      exact (hack _).trans (congrArg _ (ack tail))
  | threw quiet => exact .threw (mt (interrupted_succ_iff hfirst).1 quiet)

theorem sendAll_sending (resolve : Bytes → Bytes) (reactions : Nat → Reaction) (disk : ClientDisk)
    (ds : List UploadData) :
    Sending reactions ds ((sendAll ds).exec (ClientDisk.act resolve) reactions disk).1
      ((sendAll ds).log (ClientDisk.act resolve) reactions disk) := by
  induction ds generalizing reactions disk with
  | nil => exact .delivered (fun k hk => absurd hk (Nat.not_lt_zero k)) fun tail => rfl
  | cons d ds ih =>
      obtain ⟨hexec, hlog⟩ := run_sendFrame_bind resolve reactions disk (dataFrame d) fun _ => do
          let reply ← Client.recvFrame
          if refused reply then
            Client.printError (ascii "UPLOAD_DATA failed")
          else
            sendAll ds
      rw [sendAll, hexec, hlog]
      cases hsent : (reactions 0).failure with
      | some text =>
          refine .threw ?_
          rintro ⟨j, -, hbefore, hj, -⟩
          -- the first send failed, so nothing comes before it, and it was not accepted
          cases j with
          | zero => cases hsent.symm.trans hj
          | succ j => cases hsent.symm.trans (hbefore 0 (Nat.succ_pos j)).1
      | none =>
          show Sending reactions (d :: ds)
            ((if refused (reactions 1).received then Client.printError (ascii "UPLOAD_DATA failed")
              else sendAll ds).exec (ClientDisk.act resolve) (fromExchange reactions 1) disk).1
            (⟨.sendFrame (dataFrame d), none⟩ :: ⟨.recvFrame, (reactions 1).received⟩ ::
              (if refused (reactions 1).received then Client.printError (ascii "UPLOAD_DATA failed")
                else sendAll ds).log (ClientDisk.act resolve) (fromExchange reactions 1) disk)
          cases hreply : refused (reactions 1).received with
          | true =>
              refine .interrupted (j := 0) (Nat.succ_pos _)
                ⟨0, Nat.succ_pos _, fun k hk => absurd hk (Nat.not_lt_zero k), hsent, hreply⟩ ?_
              intro tail
              simp [acknowledged, hreply]
              rfl
          | false =>
              have hrest := ih (fromExchange reactions 1) disk
              exact hrest.cons ⟨hsent, hreply⟩

end Chunks

/-! ## The upload -/

/-- The last frame of an upload. -/
def commitFrame (uploadId : Bytes) : Frame where
  type := .UPLOAD_COMMIT
  requestId := 4
  body := putBytesWithLen uploadId

/-- What the user is told of a commit. -/
def reportCommit : Option Frame → Client Unit
  | some r =>
      if r.type = .UPLOAD_COMMIT then
        Client.printSafe (ascii "UPLOAD ok transfer " ++ r.body)
      else
        Client.printError (ascii "UPLOAD COMMIT failed: " ++ r.body)
  | none => pure ()

/-- The upload from the commit on. -/
def sendCommit (uploadId : Bytes) : Client Unit := do
  Client.sendFrame (commitFrame uploadId)
  reportCommit (← Client.recvFrame)

/-- The upload once `UPLOAD_INIT` is accepted. -/
def sendAccepted (uploadId cipher : Bytes) : Client Unit := do
  sendAll (chunksOf uploadId cipher)
  sendCommit uploadId

/-- The frame that announces an upload. -/
def initFrame (init : UploadInit) : Frame where
  type := .UPLOAD_INIT
  requestId := 4
  body := encodeUploadInit init

theorem sendUpload_eq (init : UploadInit) (cipher : Bytes) :
    sendUpload init cipher = (do
      Client.sendFrame (initFrame init)
      let reply ← Client.recvFrame
      if refused reply then
        Client.printError (ascii "UPLOAD_INIT failed")
      else
        sendAccepted init.uploadId cipher) := by
  simp only [sendUpload, sendChunks_eq]
  rfl

section Uploads

variable {resolve : Bytes → Bytes} {reactions : Nat → Reaction} {disk : ClientDisk}

/-- No call of the loop commits anything. -/
theorem sendAll_all (ds : List UploadData) : (sendAll ds).All fun c => ¬ Commits c := by
  have hdata : ∀ d, (dataFrame d).type ≠ .UPLOAD_COMMIT := fun d => (by decide : MsgType.UPLOAD_DATA ≠ .UPLOAD_COMMIT)
  induction ds with
  | nil => trivial
  | cons d ds ih =>
      refine all_bind ⟨hdata d, fun failed => ?_⟩ fun _ => all_bind ⟨id, fun _ => trivial⟩ fun reply => ?_
      · cases failed with
        | none => trivial
        | some text => trivial
      · split
        · exact ⟨id, fun _ => trivial⟩
        · exact ih

/-- The commit is sent first, and nothing of it is a chunk. -/
theorem sendCommit_log (resolve : Bytes → Bytes) (reactions : Nat → Reaction) (disk : ClientDisk)
    (uploadId : Bytes) :
    (∃ made ∈ (sendCommit uploadId).log (ClientDisk.act resolve) reactions disk, Commits made.1) ∧
      acknowledgedData ((sendCommit uploadId).log (ClientDisk.act resolve) reactions disk) = [] := by
  rw [sendCommit, (run_sendFrame_bind _ _ _ _ _).2]
  refine ⟨⟨_, List.mem_cons_self, rfl⟩, ?_⟩
  cases (reactions 0).failure with
  | some text => rfl
  | none =>
      -- one reply is read, and a line is printed about it
      have hline : ∀ reply, acknowledged ((reportCommit reply).log (ClientDisk.act resolve)
          (fun n => reactions (n + 2)) disk) = [] := by
        rintro (_ | r)
        · rfl
        · rw [reportCommit]
          split
          · rfl
          · rfl
      have hcommit : (commitFrame uploadId).type ≠ .UPLOAD_DATA :=
        (by decide : MsgType.UPLOAD_COMMIT ≠ .UPLOAD_DATA)
      refine (acknowledgedData_exchange hcommit (reactions 1).received _).trans ?_
      rw [acknowledgedData]
      exact congrArg (List.filter _) (hline (reactions 1).received)

theorem sendUpload_interrupted {init : UploadInit} {cipher : Bytes} {l : List Made} {j : Nat}
    (hj : j < chunkCount cipher)
    (hack : acknowledgedData l = ((chunksOf init.uploadId cipher).take j).map dataFrame)
    (hcommits : ∃ made ∈ l, Commits made.1) : ¬ CommitsComplete init cipher l := by
  intro h
  obtain ⟨made, hmade, hcommit⟩ := hcommits
  obtain ⟨ds, hds, rfl, -⟩ := h made hmade hcommit
  have hlen := congrArg List.length (hack.symm.trans hds)
  rw [List.length_map, List.length_map, List.length_take, length_chunksOf] at hlen
  omega

/-- The upload from the first chunk on. -/
theorem sendAccepted_complete_iff (init : UploadInit) (cipher : Bytes) :
    CommitsComplete init cipher
        ((sendAccepted init.uploadId cipher).log (ClientDisk.act resolve) reactions disk) ↔
      ¬ Interrupted reactions (chunkCount cipher) := by
  have hsending := sendAll_sending resolve reactions disk (chunksOf init.uploadId cipher)
  have hquiet : ∀ made ∈ (sendAll (chunksOf init.uploadId cipher)).log (ClientDisk.act resolve)
      reactions disk, ¬ Commits made.1 := fun made hmade => (sendAll_all _).of_mem_log hmade
  rw [sendAccepted, (run_bind _ _ _ _).2]
  revert hsending hquiet
  generalize (sendAll (chunksOf init.uploadId cipher)).log (ClientDisk.act resolve) reactions disk = l
  rcases (sendAll (chunksOf init.uploadId cipher)).exec (ClientDisk.act resolve) reactions disk with
    ⟨r, disk'⟩
  intro hsending hquiet
  rw [← length_chunksOf init.uploadId cipher]
  cases hsending with
  | delivered all ack =>
      obtain ⟨-, htail⟩ := sendCommit_log resolve
        (fun n => reactions (n + l.length)) disk' init.uploadId
      refine iff_of_true (fun made _ _ => ⟨_, ?_, rfl, flatMap_chunksOf _ _⟩) ?_
      · exact acknowledgedData_of_append (ack _) htail
      · rintro ⟨j, hj, -, -, hrefused⟩
        exact absurd (hrefused.symm.trans (all j hj).2) (by simp)
  | @interrupted _ j here cause ack =>
      obtain ⟨⟨made, hmade, hcommits⟩, htail⟩ := sendCommit_log resolve
        (fun n => reactions (n + l.length)) disk' init.uploadId
      refine iff_of_false ?_ (not_not.2 cause)
      rw [length_chunksOf] at here
      refine sendUpload_interrupted here (acknowledgedData_of_append (ack _) htail) ?_
      exact ⟨made, List.mem_append_right _ hmade, hcommits⟩
  | threw quiet =>
      refine iff_of_true (fun made hmade hcommits => ?_) quiet
      rw [resume, List.append_nil] at hmade
      exact absurd hcommits (hquiet made hmade)

theorem commits_complete_iff (resolve : Bytes → Bytes) (reactions : Nat → Reaction)
    (disk : ClientDisk) (init : UploadInit) (cipher : Bytes) :
    CommitsComplete init cipher
        ((sendUpload init cipher).log (ClientDisk.act resolve) reactions disk) ↔
      ¬ (Accepted reactions 0 ∧ Interrupted (fromExchange reactions 1) (chunkCount cipher)) := by
  rw [sendUpload_eq, (run_sendFrame_bind _ _ _ _ _).2]
  cases hsent : (reactions 0).failure with
  | some text =>
      refine iff_of_true (fun made hmade hcommits => ?_) fun h => ?_
      · obtain rfl := List.mem_singleton.1 hmade
        exact absurd hcommits (by decide : MsgType.UPLOAD_INIT ≠ .UPLOAD_COMMIT)
      · cases hsent.symm.trans h.1.1
  | none =>
      have hinit : ¬ Commits (.sendFrame (initFrame init)) :=
        (by decide : MsgType.UPLOAD_INIT ≠ .UPLOAD_COMMIT)
      show CommitsComplete init cipher (⟨.sendFrame (initFrame init), none⟩ ::
        ⟨.recvFrame, (reactions 1).received⟩ ::
          (if refused (reactions 1).received then Client.printError (ascii "UPLOAD_INIT failed")
            else sendAccepted init.uploadId cipher).log (ClientDisk.act resolve)
              (fromExchange reactions 1) disk) ↔ _
      cases hreply : refused (reactions 1).received with
      | true =>
          refine iff_of_true (fun made hmade hcommits => ?_) fun h => ?_
          · rcases List.mem_cons.1 hmade with rfl | hmade
            · exact absurd hcommits hinit
            · rcases List.mem_cons.1 hmade with rfl | hmade
              · exact hcommits.elim
              · obtain rfl := List.mem_singleton.1 hmade
                exact hcommits.elim
          · exact absurd (hreply.symm.trans h.1.2) (by simp)
      | false =>
          have hfirst : Accepted reactions 0 := ⟨hsent, hreply⟩
          rw [commitsComplete_exchange hinit (by decide : MsgType.UPLOAD_INIT ≠ .UPLOAD_DATA)]
          exact (sendAccepted_complete_iff init cipher).trans
            (not_congr ⟨fun h => ⟨hfirst, h⟩, fun h => h.2⟩)

end Uploads

/-- The announcement and the commit are accepted, the only chunk is refused. -/
def refuseChunk : Nat → Reaction
  | 1 => { received := some { type := .UPLOAD_INIT, requestId := 4, body := ascii "ok" } }
  | 3 => { received := some { type := .ERR, requestId := 4, body := [] } }
  | 6 => { received := some { type := .UPLOAD_COMMIT, requestId := 4, body := ascii "t1" } }
  | _ => {}

def sampleInit : UploadInit where
  recipient := ascii "bob"
  origName := ascii "a.pdf"
  uploadId := ascii "u1"
  size := 3
  digest := zeroDigest
  wrapped := {}

/-- The user is told that the upload was made. -/
theorem refused_chunk_committed :
    let l := (sendUpload sampleInit [1, 2, 3]).log (ClientDisk.act id) refuseChunk ⟨fun _ => none, []⟩
    ¬ CommitsComplete sampleInit [1, 2, 3] l ∧
      ⟨.print (.safe (ascii "UPLOAD ok transfer " ++ ascii "t1")), ()⟩ ∈ l := by
  intro l
  have hl : l = [⟨.sendFrame (initFrame sampleInit), none⟩, ⟨.recvFrame, (refuseChunk 1).received⟩,
      ⟨.sendFrame (dataFrame ⟨ascii "u1", 0, [1, 2, 3]⟩), none⟩,
      ⟨.recvFrame, (refuseChunk 3).received⟩, ⟨.print (.error (ascii "UPLOAD_DATA failed")), ()⟩,
      ⟨.sendFrame (commitFrame (ascii "u1")), none⟩, ⟨.recvFrame, (refuseChunk 6).received⟩,
      ⟨.print (.safe (ascii "UPLOAD ok transfer " ++ ascii "t1")), ()⟩] := rfl
  rw [hl]
  refine ⟨sendUpload_interrupted (j := 0) (by decide) rfl ?_, by simp⟩
  exact ⟨⟨.sendFrame (commitFrame (ascii "u1")), none⟩, by simp, rfl⟩

/-! ## The download -/

/-- What was passed to `writeFileBytes`. -/
def written (l : List Made) : List Bytes :=
  l.filterMap fun made =>
    match made.1 with
    | .writeFile _ data => some data
    | _ => none

def SavesRelayed (blob : Bytes) (l : List Made) : Prop := ∀ data ∈ written l, data = blob

theorem length_lt_of_decodeUploadData {b : Bytes} {d : UploadData} (h : decodeUploadData b = .ok d) :
    d.chunk.length + 16 ≤ b.length := by
  obtain ⟨q, -, hpre, rfl⟩ := (PayloadKind.decode_ok_iff (k := .uploadData)).1 h
  have hlen : (encodeUploadData d).length ≤ b.length := hpre.length_le
  rw [encodeUploadData, List.length_append, List.length_append, length_putBytesWithLen,
    length_putBytesWithLen, length_put64be] at hlen
  omega

/-- A body that parses as a chunk is never its own chunk. -/
theorem opaqueOf_eq_self_iff {blob : Bytes} :
    opaqueOf blob = blob ↔ ¬ ∃ d, decodeUploadData blob = .ok d := by
  unfold opaqueOf
  split
  · cases hdec : decodeUploadData blob with
    | error e => simp
    | ok d =>
        refine iff_of_false (fun h => ?_) (not_not.2 ⟨d, rfl⟩)
        have := length_lt_of_decodeUploadData hdec
        have hlen := congrArg List.length (show d.chunk = blob from h)
        omega
  · refine iff_of_true rfl ?_
    rintro ⟨d, hdec⟩
    have := length_lt_of_decodeUploadData hdec
    omega

section Downloads

variable {resolve : Bytes → Bytes} {reactions : Nat → Reaction} {disk : ClientDisk}

/-- The user has a private key, in the key file or in memory. -/
def HasKey (resolve : Bytes → Bytes) (reaction : Reaction) (disk : ClientDisk) (v : ClientVars) :
    Prop :=
  ((ClientDisk.act resolve (.readFile (keyPathFor v.loggedUser)) reaction disk).1.bind
      privKeyOf).isSome = true ∨ (v.localKeys.lookup v.loggedUser).isSome = true

instance {reaction : Reaction} {v : ClientVars} : Decidable (HasKey resolve reaction disk v) :=
  inferInstanceAs (Decidable (_ ∨ _))

/-- The test of the source. -/
theorem noKey_iff {reaction : Reaction} {v : ClientVars} :
    (((ClientDisk.act resolve (.readFile (keyPathFor v.loggedUser)) reaction disk).1.bind
        privKeyOf).isNone && (v.localKeys.lookup v.loggedUser).isNone) = true ↔
      ¬ HasKey resolve reaction disk v := by
  rw [HasKey, not_or, Bool.and_eq_true, Bool.not_eq_true, Bool.not_eq_true,
    Option.isSome_eq_false_iff, Option.isSome_eq_false_iff]

/-- A frame that is sent inside of a `try`. -/
theorem log_try_sendFrame {f : Frame} {k : Unit → Client Unit} {handler : Exn → Client Unit}
    (hsent : (reactions 0).failure = none) :
    (tryCatch (Client.sendFrame f >>= k) handler : Client Unit).log (ClientDisk.act resolve) reactions
        disk =
      ⟨.sendFrame f, none⟩ :: (tryCatch (k ()) handler : Client Unit).log (ClientDisk.act resolve)
        (fun n => reactions (n + 1)) disk := by
  show ⟨.sendFrame f, (reactions 0).failure⟩ ::
    (((Client.throwing (reactions 0).failure).andThen k).orElse handler).log (ClientDisk.act resolve)
      (fun n => reactions (n + 1)) disk = _
  rw [hsent]
  rfl

/-- The frame that asks for a file. -/
def requestFrame (v : ClientVars) (fileId : Bytes) : Frame where
  type := .DOWNLOAD_REQ
  requestId := 5
  body := encodeDownloadReq ⟨fileId, v.sessionToken⟩

/-- A download whose request was sent and answered. -/
theorem download_log {v : ClientVars} {fileId outPath : Bytes} {resp : Frame}
    (hsession : v.sessionToken ≠ []) (hsent : (reactions 0).failure = none)
    (hreply : (reactions 1).received = some resp) (htype : resp.type = .DOWNLOAD_DATA) :
    (ClientApp.download v fileId outPath).log (ClientDisk.act resolve) reactions disk =
      ⟨.sendFrame (requestFrame v fileId), none⟩ :: ⟨.recvFrame, some resp⟩ ::
        (tryCatch (saveDownload v (savePath fileId outPath) resp.body) fun e =>
          Client.printError (ascii "Download error: " ++ e.what) : Client Unit).log
            (ClientDisk.act resolve) (fromExchange reactions 1) disk := by
  rw [ClientApp.download, if_neg hsession, downloadFile, log_try_sendFrame hsent]
  refine congrArg (_ :: ·) ?_
  -- the reply is looked at only once it is known
  have hbranch : ∀ reply, reply = some resp →
      (⟨.recvFrame, reply⟩ : Made) :: (tryCatch (match reply with
        | some resp =>
            if resp.type = .DOWNLOAD_DATA then
              saveDownload v (savePath fileId outPath) resp.body
            else if resp.type = .ERR then
              Client.printError (ascii "DOWNLOAD failed: " ++
                (if resp.body = [] then ascii "denied" else resp.body))
            else
              Client.printError (ascii "Unexpected reply")
        | none => pure ()) fun e => Client.printError (ascii "Download error: " ++ e.what) :
          Client Unit).log (ClientDisk.act resolve) (fromExchange reactions 1) disk =
      ⟨.recvFrame, some resp⟩ ::
        (tryCatch (saveDownload v (savePath fileId outPath) resp.body) fun e =>
          Client.printError (ascii "Download error: " ++ e.what) : Client Unit).log
            (ClientDisk.act resolve) (fromExchange reactions 1) disk := by
    rintro _ rfl
    simp only [htype, if_true]
  exact hbranch _ hreply

/-- The bytes are passed on, whether or not the file can be opened. -/
theorem written_writeFileBytes {path data line : Bytes} {handler : Exn → Client Unit}
    (hhandler : ∀ e ρ d, written ((handler e).log (ClientDisk.act resolve) ρ d) = []) :
    written ((tryCatch (do writeFileBytes path data; Client.printSafe line) handler :
      Client Unit).log (ClientDisk.act resolve) reactions disk) = [data] := by
  have hopened : ∀ opened d, written ((tryCatch (do
      (if opened = true then pure () else throw ⟨.runtime, ascii "cannot write file " ++ path⟩)
      Client.printSafe line) handler : Client Unit).log (ClientDisk.act resolve)
        (fun n => reactions (n + 1)) d) = [] := by
    rintro (_ | _) d
    · exact hhandler _ _ _
    · rfl
  show data :: written _ = [data]
  exact congrArg (data :: ·) (hopened _ _)

/-- What a `DOWNLOAD_DATA` reply makes the client write. -/
theorem written_saveDownload (resolve : Bytes → Bytes) (reactions : Nat → Reaction)
    (disk : ClientDisk) (v : ClientVars) (path blob : Bytes) {handler : Exn → Client Unit}
    (hhandler : ∀ e ρ d, written ((handler e).log (ClientDisk.act resolve) ρ d) = []) :
    written ((tryCatch (saveDownload v path blob) handler : Client Unit).log
        (ClientDisk.act resolve) reactions disk) =
      if v.loggedUser ≠ [] ∧ HasKey resolve (reactions 0) disk v then [opaqueOf blob] else [] := by
  unfold saveDownload
  by_cases huser : v.loggedUser = []
  · rw [if_pos huser, if_neg fun h => h.1 huser]
    rfl
  · rw [if_neg huser]
    -- the key file is read first, and leaves the disk as it is
    show written ((tryCatch (if ((ClientDisk.act resolve (.readFile (keyPathFor v.loggedUser))
        (reactions 0) disk).1.bind privKeyOf).isNone && (v.localKeys.lookup v.loggedUser).isNone then
        Client.printError (ascii "No privkey for " ++ v.loggedUser)
      else do
        writeFileBytes path (opaqueOf blob)
        Client.printSafe _) handler : Client Unit).log (ClientDisk.act resolve)
          (fun n => reactions (n + 1)) disk) = _
    by_cases hkey : HasKey resolve (reactions 0) disk v
    · rw [if_neg fun h => noKey_iff.1 h hkey, if_pos (And.intro huser hkey)]
      exact written_writeFileBytes hhandler
    · rw [if_pos (noKey_iff.2 hkey), if_neg fun h => hkey (And.right h)]
      rfl

theorem saves_relayed_iff (resolve : Bytes → Bytes) (reactions : Nat → Reaction) (disk : ClientDisk)
    (v : ClientVars) (fileId outPath blob : Bytes) (id : UInt32) (hsession : v.sessionToken ≠ [])
    (hsent : (reactions 0).failure = none)
    (hreply : (reactions 1).received =
      some { type := .DOWNLOAD_DATA, requestId := id, body := blob }) :
    SavesRelayed blob
        ((ClientApp.download v fileId outPath).log (ClientDisk.act resolve) reactions disk) ↔
      ¬ (v.loggedUser ≠ [] ∧ HasKey resolve (reactions 2) disk v ∧
        ∃ d, decodeUploadData blob = .ok d) := by
  rw [SavesRelayed, download_log hsession hsent hreply rfl]
  have hwritten : written ((tryCatch (saveDownload v (savePath fileId outPath) blob) fun e =>
      Client.printError (ascii "Download error: " ++ e.what) : Client Unit).log
        (ClientDisk.act resolve) (fromExchange reactions 1) disk) = _ :=
    written_saveDownload resolve (fromExchange reactions 1) disk v _ blob fun _ _ _ => rfl
  show (∀ data ∈ written ((tryCatch (saveDownload v (savePath fileId outPath) blob) fun e =>
    Client.printError (ascii "Download error: " ++ e.what) : Client Unit).log _ _ disk), data = blob) ↔ _
  have hread : fromExchange reactions 1 0 = reactions 2 := rfl
  rw [hwritten, hread]
  by_cases hsaves : v.loggedUser ≠ [] ∧ HasKey resolve (reactions 2) disk v
  · rw [if_pos hsaves, List.forall_mem_singleton, opaqueOf_eq_self_iff]
    exact not_congr ⟨fun h => ⟨hsaves.1, hsaves.2, h⟩, fun h => h.2.2⟩
  · rw [if_neg hsaves]
    exact iff_of_true (fun data h => by cases h) fun h => hsaves ⟨h.1, h.2.1⟩

/-- A client that is logged in, with its key in memory. -/
def sampleVars : ClientVars where
  sessionToken := ascii "sess_"
  loggedUser := ascii "bob"
  localKeys := (∅ : Table KeyPair).insert (ascii "bob") { pub := zeroKey, priv := zeroKey }

/-- The request is answered with the blob. -/
def relay (blob : Bytes) : Nat → Reaction
  | 1 => { received := some { type := .DOWNLOAD_DATA, requestId := 5, body := blob } }
  | _ => {}

theorem saves_relayed_sample :
    written ((ClientApp.download sampleVars (ascii "f1") []).log (ClientDisk.act id)
        (relay [1, 2, 3]) ⟨fun _ => none, []⟩) = [[1, 2, 3]] ∧
      (SavesRelayed [1, 2, 3]
          ((ClientApp.download sampleVars (ascii "f1") []).log (ClientDisk.act id) (relay [1, 2, 3])
            ⟨fun _ => none, []⟩) ↔
        ¬ (sampleVars.loggedUser ≠ [] ∧ HasKey id (relay [1, 2, 3] 2) ⟨fun _ => none, []⟩ sampleVars ∧
          ∃ d, decodeUploadData [1, 2, 3] = .ok d)) :=
  ⟨rfl, saves_relayed_iff id (relay [1, 2, 3]) ⟨fun _ => none, []⟩ sampleVars
    (ascii "f1") [] [1, 2, 3] 5 (by decide) rfl rfl⟩

/-- A blob that is a chunk: only the bytes after its header are saved. -/
theorem chunk_saved_without_header :
    written ((ClientApp.download sampleVars (ascii "f1") []).log (ClientDisk.act id)
        (relay (encodeUploadData ⟨[], 0, [1, 2, 3]⟩)) ⟨fun _ => none, []⟩) = [[1, 2, 3]] ∧
      ¬ SavesRelayed (encodeUploadData ⟨[], 0, [1, 2, 3]⟩)
        ((ClientApp.download sampleVars (ascii "f1") []).log (ClientDisk.act id)
          (relay (encodeUploadData ⟨[], 0, [1, 2, 3]⟩)) ⟨fun _ => none, []⟩) := by
  have hwritten : written ((ClientApp.download sampleVars (ascii "f1") []).log (ClientDisk.act id)
      (relay (encodeUploadData ⟨[], 0, [1, 2, 3]⟩)) ⟨fun _ => none, []⟩) = [[1, 2, 3]] := rfl
  refine ⟨hwritten, fun h => ?_⟩
  have hsaved := h [1, 2, 3] (by rw [hwritten]; exact List.mem_singleton.2 rfl)
  exact absurd hsaved (by decide)

end Downloads

end SecureFileTransfer
