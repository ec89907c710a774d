import SecureFileTransfer.AuditChain

/-!
# CanonicalEncoding — the text that is hashed

`canonical` is a concatenation of escaped fields.  The escape of a byte can be undone from the left
and lets no quote stand bare, so the quote behind a field is where the field ends, and the text
determines every field whatever bytes the fields hold.
-/

namespace SecureFileTransfer

open StdString

/-! ## The canonical form determines the fields -/

/-- Undo `escapeByte` at the start of a text. -/
def unescapeByte : Bytes → Option (UInt8 × Bytes)
  | 92 :: 34 :: s => some (34, s)
  | 92 :: 92 :: s => some (92, s)
  | 92 :: 110 :: s => some (10, s)
  | 92 :: 114 :: s => some (13, s)
  | 92 :: 116 :: s => some (9, s)
  | 92 :: 117 :: 48 :: 48 :: h :: l :: s => some (hexValue h * 16 + hexValue l, s)
  | 92 :: _ => none
  | 34 :: _ => none
  | c :: s => some (c, s)
  | [] => none

theorem unescapeByte_escapeByte (c : UInt8) (s : Bytes) :
    unescapeByte (escapeByte c ++ s) = some (c, s) := by
  unfold escapeByte
  split_ifs with hquote hbackslash hnewline hreturn htab hcontrol
  · rw [hquote]
    rfl
  · rw [hbackslash]
    rfl
  · rw [hnewline]
    rfl
  · rw [hreturn]
    rfl
  · rw [htab]
    rfl
  · exact congrArg (fun d => some (d, s)) (hexValue_hexByte c)
  · simp [unescapeByte, hbackslash]

/-- An escaped text ends at the first quote that is not part of an escape. -/
theorem jsonEscape_quote_inj {s t u v : Bytes}
    (h : jsonEscape s ++ 34 :: u = jsonEscape t ++ 34 :: v) : s = t ∧ u = v := by
  have hcons : ∀ c s u, unescapeByte (jsonEscape (c :: s) ++ 34 :: u) =
      some (c, jsonEscape s ++ 34 :: u) := by
    intro c s u
    rw [jsonEscape, List.flatMap_cons, List.append_assoc, unescapeByte_escapeByte]
    rfl
  have hnil : ∀ u : Bytes, unescapeByte (jsonEscape [] ++ 34 :: u) = none := fun u => rfl
  -- an escape is undone from the left, and the quote that ends the text is no escape
  induction s generalizing t with
  | nil =>
      cases t with
      | nil => exact ⟨rfl, (List.cons.inj h).2⟩
      | cons d t =>
          have hread := congrArg unescapeByte h
          rw [hnil, hcons] at hread
          cases hread
  | cons c s ih =>
      cases t with
      | nil =>
          have hread := congrArg unescapeByte h
          rw [hnil, hcons] at hread
          cases hread
      | cons d t =>
          have hread := congrArg unescapeByte h
          rw [hcons, hcons] at hread
          obtain ⟨rfl, hrest⟩ := Prod.mk.inj (Option.some.inj hread)
          obtain ⟨rfl, rfl⟩ := ih hrest
          exact ⟨rfl, rfl⟩

/-- An escaped member can be taken off the front of the text. -/
theorem member_escape_inj {key s t u v : Bytes}
    (h : member key (jsonEscape s) ++ u = member key (jsonEscape t) ++ v) : s = t ∧ u = v := by
  rw [member, member] at h
  simp only [List.append_assoc, List.append_cancel_left_eq] at h
  exact jsonEscape_quote_inj h

/-- A number at the front of a text ends at the comma. -/
theorem decimal_comma_inj {m n : UInt64} {u v : Bytes}
    (h : decimal m.toNat ++ 44 :: u = decimal n.toNat ++ 44 :: v) : m = n := by
  have hcomma : ∀ k : Nat, (44 : UInt8) ∉ decimal k := fun k hk =>
    absurd (isDigit_of_mem_decimal hk) (by decide)
  have hpre : decimal m.toNat ++ 44 :: u <+: decimal n.toNat ++ 44 :: v := h ▸ List.prefix_rfl
  obtain ⟨hdigits, -⟩ := (append_cons_isPrefix_iff (hcomma _) (hcomma _) _ _).1 hpre
  have hvalue := congrArg digitsValue hdigits
  rw [digitsValue_decimal, digitsValue_decimal] at hvalue
  exact UInt64.toNat_inj.1 hvalue

theorem canonical_eq (e : AuditEvent) :
    canonical e = ascii "\x7b\"seq\":" ++ (decimal e.seq.toNat ++
      (member (ascii "ts") (jsonEscape e.ts) ++ (member (ascii "actor") (jsonEscape e.actor) ++
      (member (ascii "action") (jsonEscape e.action) ++
      (member (ascii "fileId") (jsonEscape e.fileId) ++
      (member (ascii "cipherHash") (jsonEscape e.cipherHash) ++
      (member (ascii "prevHash") (jsonEscape e.prevHash) ++ ascii "\x7d"))))))) := by
  simp only [canonical, object, escapedMembers, List.flatMap_cons, List.flatMap_nil,
    List.append_assoc, List.append_nil]

/-- The canonical form is injective in all fields but the digest, whatever bytes they hold. -/
theorem canonical_inj {e e' : AuditEvent} (h : canonical e = canonical e') :
    e' = { e with msgHash := e'.msgHash } := by
  rw [canonical_eq, canonical_eq] at h
  have hseq : e.seq = e'.seq := decimal_comma_inj (List.append_cancel_left h)
  rw [hseq] at h
  -- the members come off one by one
  have hmembers := List.append_cancel_left (List.append_cancel_left h)
  obtain ⟨hts, hmembers⟩ := member_escape_inj hmembers
  obtain ⟨hactor, hmembers⟩ := member_escape_inj hmembers
  obtain ⟨haction, hmembers⟩ := member_escape_inj hmembers
  obtain ⟨hfileId, hmembers⟩ := member_escape_inj hmembers
  obtain ⟨hcipherHash, hmembers⟩ := member_escape_inj hmembers
  obtain ⟨hprevHash, -⟩ := member_escape_inj hmembers
  cases e
  cases e'
  simp_all

/-! ## Quotes and backslashes -/

/-- The length of the run of backslashes a text ends in. -/
def backslashRun (t : Bytes) : Nat := (t.reverse.takeWhile (· == 92)).length

theorem backslashRun_concat_backslash (t : Bytes) :
    backslashRun (t ++ [92]) = backslashRun t + 1 := by
  simp [backslashRun]

theorem backslashRun_append_of_getLast {t u : Bytes} {d : UInt8} (hd : u.getLast? = some d)
    (hne : d ≠ 92) : backslashRun (t ++ u) = 0 := by
  obtain ⟨v, rfl⟩ := List.getLast?_eq_some_iff.1 hd
  simp [backslashRun, hne]

/-- Only the escape of a backslash ends in one. -/
theorem getLast_escapeByte {c : UInt8} (hc : c ≠ 92) :
    ∃ d, (escapeByte c).getLast? = some d ∧ d ≠ 92 := by
  have hlast : ∀ c : UInt8, c ≠ 92 → (escapeByte c).getLast?.any (· ≠ 92) = true :=
    forall_byte (by decide +kernel)
  simpa [Option.any_eq_true] using hlast c hc

/-- Behind whole escapes the backslashes come in pairs. -/
theorem even_backslashRun_jsonEscape (s : Bytes) : Even (backslashRun (jsonEscape s)) := by
  induction s using List.reverseRecOn with
  | nil => exact Even.zero
  | append_singleton s c ih =>
      have hsplit : jsonEscape (s ++ [c]) = jsonEscape s ++ escapeByte c := by
        simp [jsonEscape]
      rw [hsplit]
      by_cases hc : c = 92
      · -- one more pair
        have hpair : jsonEscape s ++ escapeByte 92 = (jsonEscape s ++ [92]) ++ [92] := by
          rw [List.append_assoc]
          rfl
        rw [hc, hpair, backslashRun_concat_backslash, backslashRun_concat_backslash]
        exact ih.add even_two
      · obtain ⟨d, hd, hne⟩ := getLast_escapeByte hc
        rw [backslashRun_append_of_getLast hd hne]
        exact Even.zero

/-- A quote in an escaped text stands behind an odd run of backslashes. -/
theorem odd_backslashRun_of_escaped {s pre post : Bytes} (h : jsonEscape s = pre ++ 34 :: post) :
    Odd (backslashRun pre) := by
  obtain ⟨s', rfl⟩ := escaped_before_quote h
  rw [backslashRun_concat_backslash]
  exact (even_backslashRun_jsonEscape s').add_one

theorem jsonEscape_injective : Function.Injective jsonEscape := by
  intro s t h
  exact (jsonEscape_quote_inj (congrArg (· ++ 34 :: []) h)).1

/-! ## The encoding is unambiguous -/

/-- The canonical text determines the seven fields it is made of; the escape is injective and leaves
neither a bare quote nor a newline. -/
theorem canonical_unambiguous :
    (∀ e₁ e₂ : AuditEvent, canonical e₁ = canonical e₂ →
      e₁.seq = e₂.seq ∧ e₁.ts = e₂.ts ∧ e₁.actor = e₂.actor ∧ e₁.action = e₂.action ∧
        e₁.fileId = e₂.fileId ∧ e₁.cipherHash = e₂.cipherHash ∧ e₁.prevHash = e₂.prevHash) ∧
    Function.Injective jsonEscape ∧
    ∀ s : Bytes, (∀ pre post : Bytes, jsonEscape s = pre ++ 34 :: post → Odd (backslashRun pre)) ∧
      (10 : UInt8) ∉ jsonEscape s := by
  refine ⟨fun e₁ e₂ h => ?_, jsonEscape_injective, fun s => ⟨fun pre post h => ?_, ?_⟩⟩
  · rw [canonical_inj h]
    exact ⟨rfl, rfl, rfl, rfl, rfl, rfl, rfl⟩
  · exact odd_backslashRun_of_escaped h
  · exact newline_not_mem_jsonEscape s

/-- A backslash and a quote: the quote stands behind three. -/
example : jsonEscape [92, 34] = [92, 92, 92, 34] ∧ backslashRun [92, 92, 92] = 3 := by decide

end SecureFileTransfer
