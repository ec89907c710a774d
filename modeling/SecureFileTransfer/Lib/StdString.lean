import Mathlib.Data.List.TakeWhile
import SecureFileTransfer.Lib.Bytes

/-!
# StdString — the parts of `std::string` and its streams that scan text

`find` and `substr` with their index arithmetic, `getline` over a whole stream, decimal output and
`stoull`.  The search lemmas are about text cut at one delimiter byte: a pattern that starts with
the delimiter can only occur where a delimiter stands, so a search goes from one delimiter to the
next.
-/

namespace SecureFileTransfer
namespace StdString

/-! ## Searching -/

/-- The position of the first occurrence of `pat` in `s`. -/
def indexOf (pat : Bytes) : Bytes → Option Nat
  | [] => if pat.isEmpty then some 0 else none
  | b :: s => if pat.isPrefixOf (b :: s) then some 0 else (indexOf pat s).map (· + 1)

/-- `s.find(pat, pos)`; `none` is `npos`. -/
def find (s pat : Bytes) (pos : Nat) : Option Nat :=
  if pos ≤ s.length then (indexOf pat (s.drop pos)).map (pos + ·) else none

/-- `s.substr(p, q - p)` for `p ≤ s.size()`, where `q` is the result of a `find`. -/
def substr (s : Bytes) (p : Nat) : Option Nat → Bytes
  | some q => (s.drop p).take (q - p)
  | none => s.drop p

/-- `pat` occurs first after `pre`, and `post` follows it. -/
structure FirstAt (pat s pre post : Bytes) : Prop where
  split : s = pre ++ pat ++ post
  index : indexOf pat s = some pre.length

theorem indexOf_append_of_isPrefixOf (pat post : Bytes) : indexOf pat (pat ++ post) = some 0 := by
  cases pat with
  | nil => cases post <;> simp [indexOf]
  | cons b pat => simp [indexOf]

theorem FirstAt.here (pat post : Bytes) : FirstAt pat (pat ++ post) [] post :=
  ⟨rfl, indexOf_append_of_isPrefixOf pat post⟩

theorem not_isPrefixOf_of_head_ne {d b : UInt8} (h : b ≠ d) (pat s : Bytes) :
    (d :: pat).isPrefixOf (b :: s) = false := by
  simp [List.isPrefixOf, h.symm]

/-- A pattern that starts with `d` does not occur before the first `d`. -/
theorem indexOf_append_of_not_mem {d : UInt8} {pat t : Bytes} (ht : d ∉ t) (s : Bytes) :
    indexOf (d :: pat) (t ++ s) = (indexOf (d :: pat) s).map (· + t.length) := by
  induction t with
  | nil => simp
  | cons b t ih =>
      have hb : b ≠ d := fun h => ht (by simp [h])
      have ht' : d ∉ t := fun h => ht (List.mem_cons_of_mem b h)
      simp only [List.cons_append, indexOf, not_isPrefixOf_of_head_ne hb, ih ht', Option.map_map]
      rfl

theorem FirstAt.append {d : UInt8} {pat s pre post t : Bytes} (ht : d ∉ t)
    (h : FirstAt (d :: pat) s pre post) : FirstAt (d :: pat) (t ++ s) (t ++ pre) post := by
  refine ⟨by rw [h.split]; simp, ?_⟩
  rw [indexOf_append_of_not_mem ht, h.index]
  simp [Nat.add_comm]

/-- The search passes a `d` at which the pattern does not match. -/
theorem FirstAt.cons {pat s pre post : Bytes} {d : UInt8}
    (hne : ¬ (d :: pat) <+: (d :: s)) (h : FirstAt (d :: pat) s pre post) :
    FirstAt (d :: pat) (d :: s) (d :: pre) post := by
  refine ⟨by rw [h.split]; simp, ?_⟩
  have hfalse : (d :: pat).isPrefixOf (d :: s) = false := by
    rw [← Bool.not_eq_true, List.isPrefixOf_iff_prefix]
    exact hne
  rw [indexOf, hfalse, h.index]
  simp

theorem indexOf_singleton {d : UInt8} {t : Bytes} (ht : d ∉ t) (s : Bytes) :
    indexOf [d] (t ++ d :: s) = some t.length := by
  rw [indexOf_append_of_not_mem ht]
  simp [indexOf]

/-- Two texts cut at their first `d` are equal when their pieces are. -/
theorem append_cons_isPrefix_iff {d : UInt8} {t u : Bytes} (ht : d ∉ t) (hu : d ∉ u)
    (p s : Bytes) : t ++ d :: p <+: u ++ d :: s ↔ t = u ∧ p <+: s := by
  induction t generalizing u with
  | nil =>
      cases u with
      | nil => simp
      | cons c u =>
          have hc : d ≠ c := fun h => hu (by simp [h])
          simp [hc]
  | cons b t ih =>
      have hb : b ≠ d := fun h => ht (by simp [h])
      have ht' : d ∉ t := fun h => ht (List.mem_cons_of_mem b h)
      cases u with
      | nil => simp [hb]
      | cons c u =>
          have hu' : d ∉ u := fun h => hu (List.mem_cons_of_mem c h)
          simp [List.cons_prefix_cons, ih ht' hu', and_assoc]

theorem find_of_split {s pat pre mid post : Bytes} {n : Nat} (hs : s = pre ++ mid ++ post)
    (h : indexOf pat (mid ++ post) = some n) : find s pat pre.length = some (pre.length + n) := by
  subst hs
  simp [find, h]

theorem substr_of_split {s pre mid post : Bytes} (hs : s = pre ++ mid ++ post) :
    substr s pre.length (some (pre.length + mid.length)) = mid := by
  subst hs
  simp [substr, List.append_assoc]

/-- A pattern that is found has been found somewhere. -/
theorem exists_firstAt {pat s : Bytes} {n : Nat} (h : indexOf pat s = some n) :
    ∃ pre post, FirstAt pat s pre post ∧ pre.length = n := by
  induction s generalizing n with
  | nil =>
      cases pat with
      | nil => exact ⟨[], [], ⟨rfl, rfl⟩, by simpa [indexOf] using h⟩
      | cons d pat => simp [indexOf] at h
  | cons b s ih =>
      by_cases hpre : pat.isPrefixOf (b :: s) = true
      · obtain ⟨post, hpost⟩ := List.isPrefixOf_iff_prefix.1 hpre
        rw [indexOf, if_pos hpre] at h
        refine ⟨[], post, ⟨hpost.symm, ?_⟩, Option.some.inj h⟩
        rw [indexOf, if_pos hpre]
        rfl
      · rw [indexOf, if_neg hpre, Option.map_eq_some_iff] at h
        obtain ⟨m, hm, rfl⟩ := h
        obtain ⟨pre, post, hfirst, rfl⟩ := ih hm
        refine ⟨b :: pre, post, ⟨by rw [hfirst.split]; rfl, ?_⟩, rfl⟩
        rw [indexOf, if_neg hpre, hfirst.index]
        rfl

/-- A pattern that occurs is found. -/
theorem indexOf_isSome_of_infix {pat s : Bytes} (h : pat <:+: s) : (indexOf pat s).isSome := by
  obtain ⟨pre, post, rfl⟩ := h
  induction pre with
  | nil => rw [List.nil_append, indexOf_append_of_isPrefixOf]; rfl
  | cons b pre ih =>
      rw [List.cons_append, List.cons_append, indexOf]
      split
      · rfl
      · rwa [Option.isSome_map]

/-- What follows the text does not move an occurrence in it. -/
theorem indexOf_append_of_some {pat t : Bytes} {n : Nat} (h : indexOf pat t = some n) (s : Bytes) :
    indexOf pat (t ++ s) = some n := by
  induction t generalizing n with
  | nil =>
      cases pat with
      | nil => cases s <;> simpa [indexOf] using h
      | cons d pat => simp [indexOf] at h
  | cons b t ih =>
      by_cases hpre : pat.isPrefixOf (b :: t) = true
      · have hpre' : pat.isPrefixOf (b :: t ++ s) = true :=
          List.isPrefixOf_iff_prefix.2
            ((List.isPrefixOf_iff_prefix.1 hpre).trans (List.prefix_append _ s))
        rw [indexOf, if_pos hpre] at h
        rw [List.cons_append, indexOf, ← List.cons_append, if_pos hpre', h]
      · rw [indexOf, if_neg hpre, Option.map_eq_some_iff] at h
        obtain ⟨m, hm, rfl⟩ := h
        have hpre' : ¬ pat.isPrefixOf (b :: t ++ s) = true := by
          intro hlong
          -- the pattern ends inside the text, because it occurs again in the rest of it
          obtain ⟨pre, post, hfirst, -⟩ := exists_firstAt hm
          have hlen : pat.length ≤ (b :: t).length := by
            rw [hfirst.split]
            simp
            omega
          exact hpre (List.isPrefixOf_iff_prefix.2 (List.prefix_of_prefix_length_le
            (List.isPrefixOf_iff_prefix.1 hlong) (List.prefix_append _ s) hlen))
        rw [List.cons_append, indexOf, ← List.cons_append, if_neg hpre', ih hm]
        rfl

/-- No occurrence reaches over a byte that the pattern does not hold. -/
theorem isPrefix_of_isPrefix_append_cons {pat t s : Bytes} {c : UInt8} (hc : c ∉ pat)
    (h : pat <+: t ++ c :: s) : pat <+: t := by
  rcases List.prefix_or_prefix_of_prefix h (List.prefix_append t (c :: s)) with hin | hover
  · exact hin
  · obtain ⟨r, rfl⟩ := hover
    have hrest : r <+: c :: s := (List.prefix_append_right_inj t).1 h
    cases r with
    | nil => simp
    | cons d r =>
        have hd : d = c := (List.cons_prefix_cons.1 hrest).1
        exact absurd (by simp [hd]) hc

/-- A pattern that does not occur in the text is searched for behind it. -/
theorem indexOf_append_of_none {pat t : Bytes} {c : UInt8} (hc : c ∉ pat) (s : Bytes)
    (h : indexOf pat t = none) :
    indexOf pat (t ++ c :: s) = (indexOf pat (c :: s)).map (· + t.length) := by
  induction t with
  | nil => simp
  | cons b t ih =>
      by_cases hpre : pat.isPrefixOf (b :: t) = true
      · rw [indexOf, if_pos hpre] at h
        cases h
      · rw [indexOf, if_neg hpre, Option.map_eq_none_iff] at h
        have hpre' : ¬ pat.isPrefixOf (b :: t ++ c :: s) = true := fun hlong =>
          hpre (List.isPrefixOf_iff_prefix.2 (isPrefix_of_isPrefix_append_cons hc
            (List.isPrefixOf_iff_prefix.1 hlong)))
        rw [List.cons_append, indexOf, ← List.cons_append, if_neg hpre', ih h, Option.map_map]
        rfl

theorem indexOf_singleton_eq_none {d : UInt8} {s : Bytes} (h : d ∉ s) : indexOf [d] s = none := by
  have hnil : indexOf [d] (s ++ []) = (indexOf [d] []).map (· + s.length) :=
    indexOf_append_of_not_mem h []
  simpa [indexOf] using hnil

theorem takeWhile_ne_of_not_mem {d : UInt8} {s : Bytes} (h : d ∉ s) : s.takeWhile (· != d) = s := by
  rw [List.takeWhile_eq_self_iff]
  intro c hc
  simpa using fun heq : c = d => h (heq ▸ hc)

/-- Text up to a byte it does not hold. -/
theorem takeWhile_ne_append {d : UInt8} {t : Bytes} (ht : d ∉ t) (s : Bytes) :
    (t ++ s).takeWhile (· != d) = t ++ s.takeWhile (· != d) := by
  rw [List.takeWhile_append, if_pos (by rw [takeWhile_ne_of_not_mem ht])]

theorem takeWhile_ne_append_cons {d : UInt8} {t : Bytes} (ht : d ∉ t) (s : Bytes) :
    (t ++ d :: s).takeWhile (· != d) = t := by
  rw [takeWhile_ne_append ht]
  simp

/-- The search for a single byte goes up to that byte, or to the end of the text. -/
theorem substr_find (d : UInt8) (pre s : Bytes) :
    substr (pre ++ s) pre.length (find (pre ++ s) [d] pre.length) = s.takeWhile (· != d) := by
  by_cases hd : d ∈ s
  · obtain ⟨t, u, rfl, ht⟩ := List.eq_append_cons_of_mem hd
    have hsplit : pre ++ (t ++ d :: u) = pre ++ t ++ d :: u := by simp
    rw [find_of_split hsplit (indexOf_singleton ht u), substr_of_split hsplit,
      takeWhile_ne_append_cons ht]
  · have hnone : find (pre ++ s) [d] pre.length = none := by
      simp [find, indexOf_singleton_eq_none hd]
    rw [hnone, takeWhile_ne_of_not_mem hd]
    simp [substr]

/-! ## Lines -/

/-- The strings successive calls of `std::getline` deliver until the stream is exhausted.  A last
line without a newline is delivered, an empty rest is not. -/
def getlines : Bytes → List Bytes
  | [] => []
  | b :: s =>
      if b = 10 then
        [] :: getlines s
      else
        match s with
        | [] => [[b]]
        | _ :: _ =>
            match getlines s with
            | [] => [[b]]
            | l :: ls => (b :: l) :: ls

/-- A line that the writer terminated is the next one read. -/
theorem getlines_line {l : Bytes} (hl : (10 : UInt8) ∉ l) (s : Bytes) :
    getlines (l ++ 10 :: s) = l :: getlines s := by
  induction l with
  | nil => simp [getlines]
  | cons b l ih =>
      have hb : b ≠ 10 := fun h => hl (by simp [h])
      have hl' : (10 : UInt8) ∉ l := fun h => hl (List.mem_cons_of_mem b h)
      cases l with
      | nil => simp [getlines, hb]
      | cons c l =>
          have htail := ih hl'
          simp only [List.cons_append] at htail ⊢
          rw [getlines]
          simp only [hb, if_false, htail]

/-- Terminated lines come first, then what the rest of the file gives. -/
theorem getlines_flatMap_append {ls : List Bytes} (hls : ∀ l ∈ ls, (10 : UInt8) ∉ l) (s : Bytes) :
    getlines (ls.flatMap (· ++ [10]) ++ s) = ls ++ getlines s := by
  induction ls with
  | nil => rfl
  | cons l ls ih =>
      have hl := hls l (by simp)
      have hls' : ∀ l' ∈ ls, (10 : UInt8) ∉ l' := fun l' h => hls l' (by simp [h])
      have hsplit : (l :: ls).flatMap (· ++ [10]) ++ s =
          l ++ 10 :: (ls.flatMap (· ++ [10]) ++ s) := by
        simp
      rw [hsplit, getlines_line hl, ih hls', List.cons_append]

/-- The content of a file made of terminated lines is read back line by line. -/
theorem getlines_flatMap {ls : List Bytes} (hls : ∀ l ∈ ls, (10 : UInt8) ∉ l) :
    getlines (ls.flatMap (· ++ [10])) = ls := by
  have h := getlines_flatMap_append hls []
  rwa [List.append_nil, getlines, List.append_nil] at h

/-- A last line without a newline is delivered unless it is empty. -/
theorem getlines_open {t : Bytes} (ht : (10 : UInt8) ∉ t) :
    getlines t = if t = [] then [] else [t] := by
  induction t with
  | nil => rfl
  | cons b t ih =>
      have hb : b ≠ 10 := fun h => ht (by simp [h])
      have ht' : (10 : UInt8) ∉ t := fun h => ht (List.mem_cons_of_mem b h)
      cases t with
      | nil => simp [getlines, hb]
      | cons c t =>
          have htail := ih ht'
          rw [if_neg (List.cons_ne_nil c t)] at htail
          rw [getlines, if_neg (List.cons_ne_nil b _)]
          simp only [hb, if_false, htail]

/-- What stands behind the last newline. -/
def openLine (content : Bytes) : Bytes := (content.reverse.takeWhile (· != 10)).reverse

theorem newline_not_mem_openLine (content : Bytes) : (10 : UInt8) ∉ openLine content := by
  intro h
  rw [openLine, List.mem_reverse] at h
  simpa using List.mem_takeWhile_imp h

/-- Every content is terminated lines and an open one. -/
theorem exists_lines (content : Bytes) :
    ∃ ls : List Bytes, (∀ l ∈ ls, (10 : UInt8) ∉ l) ∧
      content = ls.flatMap (· ++ [10]) ++ openLine content := by
  induction content using List.reverseRecOn with
  | nil => exact ⟨[], by simp, rfl⟩
  | append_singleton content b ih =>
      obtain ⟨ls, hls, hcontent⟩ := ih
      by_cases hb : b = 10
      · -- the newline closes the line that was open
        refine ⟨ls ++ [openLine content], ?_, ?_⟩
        · intro l hl
          rcases List.mem_append.1 hl with hold | hnew
          · exact hls l hold
          · rw [List.mem_singleton.1 hnew]
            exact newline_not_mem_openLine content
        · have hopen : openLine (content ++ [b]) = [] := by simp [openLine, hb]
          rw [hopen, hb, List.append_nil, List.flatMap_append, List.flatMap_singleton,
            ← List.append_assoc, ← hcontent]
      · refine ⟨ls, hls, ?_⟩
        have hopen : openLine (content ++ [b]) = openLine content ++ [b] := by
          simp [openLine, hb]
        rw [hopen, ← List.append_assoc, ← hcontent]

/-! ## Decimal numbers -/

/-- `oss << n` -/
def decimal (n : Nat) : Bytes :=
  (Nat.toDigits 10 n).map fun c => UInt8.ofNat c.toNat

/-- `std::to_string(n)` for a signed number. -/
def decimalInt (n : Int) : Bytes :=
  if n < 0 then 45 :: decimal n.natAbs else decimal n.natAbs

/-- A `strftime` field of at least two digits. -/
def twoDigits (n : Nat) : Bytes :=
  if n < 10 then 48 :: decimal n else decimal n

def isSpace (b : UInt8) : Bool := b == 32 || (9 ≤ b && b ≤ 13)

def isDigit (b : UInt8) : Bool := 48 ≤ b && b ≤ 57

def digitsValue (ds : Bytes) : Nat :=
  ds.foldl (fun acc b => 10 * acc + (b.toNat - 48)) 0

/-- The value `strtoull` gives to an optional sign and digits, `none` where `stoull` throws. -/
def unsignedOf (neg : Bool) (s : Bytes) : Option UInt64 :=
  let ds := s.takeWhile isDigit
  if ds.isEmpty then
    none
  else if digitsValue ds < 2 ^ 64 then
    some (if neg then 0 - UInt64.ofNat (digitsValue ds) else UInt64.ofNat (digitsValue ds))
  else
    none

/-- `std::stoull(s)` in base ten; `none` is `std::invalid_argument` or `std::out_of_range`. -/
def stoull (s : Bytes) : Option UInt64 :=
  match s.dropWhile isSpace with
  | 43 :: rest => unsignedOf false rest
  | 45 :: rest => unsignedOf true rest
  | rest => unsignedOf false rest

/-- The value `strtoll` gives to an optional sign and digits, `none` where `stoll` throws. -/
def signedOf (neg : Bool) (s : Bytes) : Option Int :=
  let ds := s.takeWhile isDigit
  let v : Int := if neg then -(digitsValue ds) else digitsValue ds
  if ds.isEmpty then
    none
  else if -2 ^ 63 ≤ v ∧ v < 2 ^ 63 then
    some v
  else
    none

/-- `std::stoll(s)` in base ten. -/
def stoll (s : Bytes) : Option Int :=
  match s.dropWhile isSpace with
  | 43 :: rest => signedOf false rest
  | 45 :: rest => signedOf true rest
  | rest => signedOf false rest

theorem toNat_of_isDigit {c : Char} (hc : c.isDigit) : 48 ≤ c.toNat ∧ c.toNat ≤ 57 := by
  simpa [Char.isDigit, UInt32.le_iff_toNat_le] using hc

theorem toNat_digit {c : Char} (hc : c.isDigit) : (UInt8.ofNat c.toNat).toNat = c.toNat := by
  have hrange := toNat_of_isDigit hc
  rw [UInt8.toNat_ofNat']
  omega

theorem isDigit_ofNat_toNat {c : Char} (hc : c.isDigit) : isDigit (UInt8.ofNat c.toNat) := by
  simp only [isDigit, Bool.and_eq_true, decide_eq_true_eq, UInt8.le_iff_toNat_le, toNat_digit hc]
  exact toNat_of_isDigit hc

theorem isDigit_of_mem_decimal {n : Nat} {b : UInt8} (hb : b ∈ decimal n) : isDigit b := by
  obtain ⟨c, hc, rfl⟩ := List.mem_map.1 hb
  exact isDigit_ofNat_toNat (Nat.isDigit_of_mem_toDigits (by decide) (by decide) hc)

theorem decimal_ne_nil (n : Nat) : decimal n ≠ [] := by
  simp [decimal, Nat.toDigits_ne_nil]

theorem digitsValue_map {cs : List Char} (hcs : ∀ c ∈ cs, c.isDigit) (acc : Nat) :
    (cs.map fun c => UInt8.ofNat c.toNat).foldl (fun acc b => 10 * acc + (b.toNat - 48)) acc =
      Nat.ofDigitChars 10 cs acc := by
  induction cs generalizing acc with
  | nil => simp
  | cons c cs ih =>
      have hbyte : (UInt8.ofNat c.toNat).toNat = c.toNat := toNat_digit (hcs c (by simp))
      simp only [List.map_cons, List.foldl_cons, hbyte, Nat.ofDigitChars_cons]
      exact ih (fun d hd => hcs d (by simp [hd])) _

theorem digitsValue_decimal (n : Nat) : digitsValue (decimal n) = n := by
  have hdigits : ∀ c ∈ Nat.toDigits 10 n, c.isDigit := fun c hc =>
    Nat.isDigit_of_mem_toDigits (by decide) (by decide) hc
  rw [digitsValue, decimal, digitsValue_map hdigits]
  exact Nat.ofDigitChars_ten_toDigits

theorem takeWhile_decimal (n : Nat) : (decimal n).takeWhile isDigit = decimal n := by
  rw [List.takeWhile_eq_self_iff]
  exact fun b hb => isDigit_of_mem_decimal hb

/-- The first character written is neither blank nor sign. -/
theorem head_decimal {n : Nat} {b : UInt8} {bs : Bytes} (h : decimal n = b :: bs) :
    isSpace b = false ∧ b ≠ 43 ∧ b ≠ 45 := by
  have hb : isDigit b := isDigit_of_mem_decimal (n := n) (by simp [h])
  refine ⟨?_, ?_, ?_⟩
  · simp only [isDigit, Bool.and_eq_true, decide_eq_true_eq, UInt8.le_iff_toNat_le] at hb
    simp only [isSpace, Bool.or_eq_false_iff, Bool.and_eq_false_iff, beq_eq_false_iff_ne,
      decide_eq_false_iff_not, ne_eq, ← UInt8.toNat_inj, UInt8.le_iff_toNat_le]
    have h48 : (48 : UInt8).toNat = 48 := rfl
    have h32 : (32 : UInt8).toNat = 32 := rfl
    have h13 : (13 : UInt8).toNat = 13 := rfl
    omega
  · rintro rfl
    exact absurd hb (by decide)
  · rintro rfl
    exact absurd hb (by decide)

/-- What is written in decimal is read back, whatever the word. -/
theorem stoull_decimal (n : UInt64) : stoull (decimal n.toNat) = some n := by
  have hempty : (decimal n.toNat).isEmpty = false := by simp [decimal_ne_nil]
  have hvalue : unsignedOf false (decimal n.toNat) = some n := by
    simp [unsignedOf, takeWhile_decimal, hempty, digitsValue_decimal, n.toNat_lt]
  cases hdec : decimal n.toNat with
  | nil => exact absurd hdec (decimal_ne_nil _)
  | cons b bs =>
      obtain ⟨hspace, hplus, hminus⟩ := head_decimal hdec
      rw [hdec] at hvalue
      simp [stoull, hspace, hplus, hminus, hvalue]

/-- What follows a byte that no number holds does not change the number. -/
theorem stoull_append_cons {c : UInt8} (hspace : isSpace c = false) (hdigit : isDigit c = false)
    (hplus : c ≠ 43) (hminus : c ≠ 45) (v w : Bytes) : stoull (v ++ c :: w) = stoull v := by
  have hunsigned : ∀ neg u, unsignedOf neg (u ++ c :: w) = unsignedOf neg u := by
    intro neg u
    have hds : (u ++ c :: w).takeWhile isDigit = u.takeWhile isDigit := by
      rw [List.takeWhile_append]
      split
      · next hall => simp [hdigit, (List.takeWhile_sublist isDigit).eq_of_length hall]
      · rfl
    rw [unsignedOf, unsignedOf, hds]
  have hskip : (v ++ c :: w).dropWhile isSpace = v.dropWhile isSpace ++ c :: w := by
    rw [List.dropWhile_append]
    split
    · next hall => simp [hspace, List.isEmpty_iff.1 hall]
    · rfl
  rw [stoull, stoull, hskip]
  cases hrest : v.dropWhile isSpace with
  | nil =>
      rw [List.nil_append]
      have h := hunsigned false []
      rw [List.nil_append] at h
      split
      · next heq => exact absurd (List.cons.inj heq).1 hplus
      · next heq => exact absurd (List.cons.inj heq).1 hminus
      · exact h
  | cons b rest =>
      rw [List.cons_append]
      by_cases h43 : b = 43
      · subst h43
        exact hunsigned false rest
      · by_cases h45 : b = 45
        · subst h45
          exact hunsigned true rest
        · simpa [h43, h45] using hunsigned false (b :: rest)

theorem signedOf_decimal {neg : Bool} {n : Nat} {v : Int} (hv : v = if neg then -(n : Int) else n)
    (hrange : -2 ^ 63 ≤ v ∧ v < 2 ^ 63) : signedOf neg (decimal n) = some v := by
  have hempty : (decimal n).isEmpty = false := by simp [decimal_ne_nil]
  simp only [signedOf, takeWhile_decimal, hempty, digitsValue_decimal, ← hv, if_pos hrange]
  rfl

/-- A number that fits is read back, the sign included. -/
theorem stoll_decimalInt {n : Int} (h : -2 ^ 63 ≤ n ∧ n < 2 ^ 63) :
    stoll (decimalInt n) = some n := by
  by_cases hneg : n < 0
  · have hvalue : signedOf true (decimal n.natAbs) = some n :=
      signedOf_decimal (by rw [if_pos rfl]; omega) h
    have hspace : isSpace 45 = false := by decide
    simp [decimalInt, stoll, hneg, hspace, hvalue]
  · have hvalue : signedOf false (decimal n.natAbs) = some n :=
      signedOf_decimal (by rw [if_neg Bool.false_ne_true]; omega) h
    rw [decimalInt, if_neg hneg]
    cases hdec : decimal n.natAbs with
    | nil => exact absurd hdec (decimal_ne_nil _)
    | cons b bs =>
        obtain ⟨hspace, hplus, hminus⟩ := head_decimal hdec
        rw [hdec] at hvalue
        simp [stoll, hspace, hplus, hminus, hvalue]

theorem zero_not_mem_decimal (n : Nat) : (0 : UInt8) ∉ decimal n := fun h =>
  absurd (isDigit_of_mem_decimal h) (by decide)

theorem zero_not_mem_decimalInt (n : Int) : (0 : UInt8) ∉ decimalInt n := by
  rw [decimalInt]
  split
  · simp [zero_not_mem_decimal]
  · exact zero_not_mem_decimal _

/-! ## Hexadecimal bytes -/

def hexDigit (n : UInt8) : UInt8 := if n < 10 then 48 + n else 87 + n

/-- `oss << std::hex << std::setw(2) << std::setfill('0') << (int)c` -/
def hexByte (c : UInt8) : Bytes := [hexDigit (c >>> 4), hexDigit (c &&& 15)]

def hexBytes (bs : Bytes) : Bytes := bs.flatMap hexByte

/-- The value of a digit as `std::stoi(s, nullptr, 16)` reads it. -/
def hexValue (b : UInt8) : UInt8 :=
  if isDigit b then b - 48 else if 97 ≤ b && b ≤ 102 then b - 87 else 0

/-- Digits and the letters `a` to `f`. -/
def isHexDigit (b : UInt8) : Bool := isDigit b || (97 ≤ b && b ≤ 102)

theorem isHexDigit_of_mem_hexByte (c : UInt8) : ∀ b ∈ hexByte c, isHexDigit b :=
  forall_byte (P := fun c => ∀ b ∈ hexByte c, isHexDigit b) (by decide +kernel) c

theorem isHexDigit_of_mem_hexBytes {bs : Bytes} {b : UInt8} (hb : b ∈ hexBytes bs) :
    isHexDigit b := by
  obtain ⟨c, _, hc⟩ := List.mem_flatMap.1 hb
  exact isHexDigit_of_mem_hexByte c b hc

@[simp] theorem length_hexBytes (bs : Bytes) : (hexBytes bs).length = 2 * bs.length := by
  induction bs with
  | nil => rfl
  | cons b bs ih =>
      have hcons : hexBytes (b :: bs) = hexByte b ++ hexBytes bs := rfl
      rw [hcons, List.length_append, ih]
      simp [hexByte]
      omega

/-- The two characters of a byte give it back. -/
theorem hexValue_hexByte (c : UInt8) :
    hexValue (hexDigit (c >>> 4)) * 16 + hexValue (hexDigit (c &&& 15)) = c :=
  forall_byte (P := fun c => hexValue (hexDigit (c >>> 4)) * 16 + hexValue (hexDigit (c &&& 15)) = c)
    (by decide +kernel) c

/-- The bytes are read back two characters at a time. -/
theorem unhex_hexBytes (bs : Bytes) :
    (List.range bs.length).map (fun i => hexValue ((hexBytes bs).getD (2 * i) 0) * 16 +
      hexValue ((hexBytes bs).getD (2 * i + 1) 0)) = bs := by
  induction bs with
  | nil => rfl
  | cons b bs ih =>
      have hcons : hexBytes (b :: bs) = hexDigit (b >>> 4) :: hexDigit (b &&& 15) :: hexBytes bs := rfl
      rw [hcons, List.length_cons, List.range_succ_eq_map, List.map_cons, List.map_map]
      exact congrArg₂ _ (hexValue_hexByte b) ih

theorem hexByte_injective : Function.Injective hexByte := by
  have hhalves : ∀ c : UInt8, (hexByte c).map hexValue = [c >>> 4, c &&& 15] :=
    forall_byte (by decide +kernel)
  have hback : ∀ c : UInt8, (c >>> 4) * 16 + (c &&& 15) = c := forall_byte (by decide +kernel)
  intro a b hab
  -- both bytes have the same two halves
  obtain ⟨hhigh, hlow⟩ := List.cons.inj ((hhalves a).symm.trans ((congrArg _ hab).trans (hhalves b)))
  rw [← hback a, ← hback b, hhigh, (List.cons.inj hlow).1]

theorem hexBytes_injective : Function.Injective hexBytes := by
  intro as
  induction as with
  | nil =>
      rintro (_ | ⟨b, bs⟩) h
      · rfl
      · cases h
  | cons a as ih =>
      rintro (_ | ⟨b, bs⟩) h
      · cases h
      · obtain ⟨hab, hrest⟩ := List.append_inj (show hexByte a ++ hexBytes as =
          hexByte b ++ hexBytes bs from h) rfl
        rw [hexByte_injective hab, ih hrest]

end StdString
end SecureFileTransfer
