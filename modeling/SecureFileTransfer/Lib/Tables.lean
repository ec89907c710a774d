import Mathlib.Data.List.AList
import Mathlib.Data.List.Nodup
import Mathlib.Data.List.TakeWhile
import SecureFileTransfer.Lib.Bytes

/-!
# Tables — hash maps and database tables

An `unordered_map` from strings is an association list with distinct keys.  A database table is a
list of rows; `Unique f rows` is a `UNIQUE` constraint on the column `f`, and text columns hold
what `sqlite3_bind_text` keeps of a string.
-/

namespace SecureFileTransfer

/-! ## Hash maps -/

/-- A map from byte strings. -/
abbrev Table (V : Type) := AList fun _ : Bytes => V

namespace Table

variable {V : Type}

/-- Every value replaced by its image. -/
def mapValues (f : V → V) (t : Table V) : Table V where
  entries := t.entries.map fun kv => ⟨kv.1, f kv.2⟩
  nodupKeys := by
    have hkeys : (t.entries.map fun kv : (_ : Bytes) × V => (⟨kv.1, f kv.2⟩ : (_ : Bytes) × V)).keys =
        t.entries.keys := by
      simp [List.keys, Function.comp_def]
    rw [List.NodupKeys, hkeys]
    exact t.nodupKeys

theorem lookup_mapValues (f : V → V) (t : Table V) (k : Bytes) :
    (t.mapValues f).lookup k = (t.lookup k).map f := by
  obtain ⟨entries, hnodup⟩ := t
  simp only [AList.lookup, mapValues]
  clear hnodup
  induction entries with
  | nil => rfl
  | cons kv entries ih =>
      obtain ⟨k', v⟩ := kv
      by_cases h : k' = k
      · subst h
        simp
      · rw [List.map_cons, List.dlookup_cons_ne _ _ (Ne.symm h),
          List.dlookup_cons_ne _ _ (Ne.symm h), ih]

def values (t : Table V) : List V := t.entries.map (·.2)

theorem mem_values_iff {t : Table V} {v : V} : v ∈ t.values ↔ ∃ k, t.lookup k = some v := by
  simp only [values, List.mem_map]
  constructor
  · rintro ⟨⟨k, v'⟩, hmem, rfl⟩
    exact ⟨k, AList.mem_lookup_iff.2 hmem⟩
  · rintro ⟨k, hk⟩
    exact ⟨⟨k, v⟩, AList.mem_lookup_iff.1 hk, rfl⟩

theorem lookup_insert_eq (t : Table V) (k k' : Bytes) (v : V) :
    (t.insert k v).lookup k' = if k' = k then some v else t.lookup k' := by
  by_cases h : k' = k
  · subst h
    simp
  · rw [if_neg h, AList.lookup_insert_ne h]

theorem lookup_erase_eq (t : Table V) (k k' : Bytes) :
    (t.erase k).lookup k' = if k' = k then none else t.lookup k' := by
  by_cases h : k' = k
  · subst h
    simp
  · rw [if_neg h, AList.lookup_erase_ne h]

end Table

/-! ## Rows with unique columns -/

/-- No two rows agree on the column `f`. -/
def Unique {α β : Type} (f : α → β) (rows : List α) : Prop := (rows.map f).Nodup

namespace Unique

variable {α β : Type} {f : α → β} {rows : List α}

theorem nil : Unique f [] := List.nodup_nil

theorem concat {a : α} (h : Unique f rows) (ha : ∀ b ∈ rows, f b ≠ f a) :
    Unique f (rows ++ [a]) := by
  rw [Unique, List.map_append, List.nodup_append]
  refine ⟨h, List.nodup_singleton _, ?_⟩
  intro x hx y hy
  obtain ⟨b, hb, rfl⟩ := List.mem_map.1 hx
  have hy' : y = f a := by simpa using hy
  rw [hy']
  exact ha b hb

/-- An update of the rows that leaves the column alone keeps it unique. -/
theorem map_of_mem {g : α → α} (h : Unique f rows) (hg : ∀ a ∈ rows, f (g a) = f a) :
    Unique f (rows.map g) := by
  have hcomp : (rows.map g).map f = rows.map f := by
    rw [List.map_map]
    exact List.map_congr_left hg
  rw [Unique, hcomp]
  exact h

theorem map {g : α → α} (h : Unique f rows) (hg : ∀ a, f (g a) = f a) : Unique f (rows.map g) :=
  h.map_of_mem fun a _ => hg a

theorem inj {a b : α} (h : Unique f rows) (ha : a ∈ rows) (hb : b ∈ rows) (heq : f a = f b) :
    a = b :=
  List.inj_on_of_nodup_map h ha hb heq

/-- A query on a unique column returns the row that has the value. -/
theorem find?_iff [DecidableEq β] {k : β} {a : α} (h : Unique f rows) :
    rows.find? (fun b => f b = k) = some a ↔ a ∈ rows ∧ f a = k := by
  constructor
  · intro hfind
    exact ⟨List.mem_of_find?_eq_some hfind, by simpa using List.find?_some hfind⟩
  · rintro ⟨ha, rfl⟩
    cases hfind : rows.find? (fun b => f b = f a) with
    | none =>
        have := List.find?_eq_none.1 hfind a ha
        simp at this
    | some b =>
        have hmem := List.mem_of_find?_eq_some hfind
        have heq : f b = f a := by simpa using List.find?_some hfind
        rw [h.inj hmem ha heq]

end Unique

/-! ## Hash maps over the rows of a table -/

/-- The map holds, under the column `key` of every row, its `val`. -/
def Indexes {α V : Type} (t : Table V) (rows : List α) (key : α → Bytes) (val : α → V) : Prop :=
  ∀ k v, t.lookup k = some v ↔ ∃ a ∈ rows, key a = k ∧ val a = v

namespace Indexes

variable {α V : Type} {t : Table V} {rows : List α} {key : α → Bytes} {val : α → V}

theorem nil : Indexes (∅ : Table V) [] key val := by
  intro k v
  simp

theorem isSome_iff (h : Indexes t rows key val) {k : Bytes} :
    (t.lookup k).isSome = true ↔ ∃ a ∈ rows, key a = k := by
  rw [Option.isSome_iff_exists]
  constructor
  · rintro ⟨v, hv⟩
    obtain ⟨a, ha, hk, -⟩ := (h k v).1 hv
    exact ⟨a, ha, hk⟩
  · rintro ⟨a, ha, hk⟩
    exact ⟨val a, (h k (val a)).2 ⟨a, ha, hk, rfl⟩⟩

/-- A lookup is a query on the column. -/
theorem lookup_eq (h : Indexes t rows key val) (k : Bytes) :
    t.lookup k = (rows.find? fun a => key a = k).map val := by
  cases hfind : rows.find? (fun a => key a = k) with
  | none =>
      cases hv : t.lookup k with
      | none => rfl
      | some v =>
          obtain ⟨a, ha, hk, -⟩ := (h k v).1 hv
          have := List.find?_eq_none.1 hfind a ha
          simp [hk] at this
  | some a =>
      exact (h k (val a)).2
        ⟨a, List.mem_of_find?_eq_some hfind, by simpa using List.find?_some hfind, rfl⟩

/-- The values of the map are those of the rows. -/
theorem values_perm (h : Indexes t rows key val) (hkey : Unique key rows) :
    t.values.Perm (rows.map val) := by
  have hentries : t.entries.Perm (rows.map fun a => (⟨key a, val a⟩ : (_ : Bytes) × V)) := by
    refine (List.perm_ext_iff_of_nodup ?_ ?_).2 ?_
    · exact t.nodupKeys.nodup
    · refine List.Nodup.of_map (fun kv : (_ : Bytes) × V => kv.1) ?_
      rw [List.map_map]
      exact hkey
    · rintro ⟨k, v⟩
      rw [← AList.mem_lookup_iff, Option.mem_def, h k v, List.mem_map]
      constructor
      · rintro ⟨a, ha, rfl, rfl⟩
        exact ⟨a, ha, rfl⟩
      · rintro ⟨a, ha, heq⟩
        cases heq
        exact ⟨a, ha, rfl, rfl⟩
  have hvalues := hentries.map (·.2)
  rw [List.map_map] at hvalues
  exact hvalues

/-- A row with a new key is added. -/
theorem concat (h : Indexes t rows key val) {a : α} (ha : ∀ b ∈ rows, key b ≠ key a) :
    Indexes (t.insert (key a) (val a)) (rows ++ [a]) key val := by
  intro k v
  rw [Table.lookup_insert_eq]
  by_cases hk : k = key a
  · subst hk
    rw [if_pos rfl]
    constructor
    · intro hv
      exact ⟨a, List.mem_append_right _ (List.mem_singleton.2 rfl), rfl, Option.some.inj hv⟩
    · rintro ⟨b, hb, hkey, rfl⟩
      rcases List.mem_append.1 hb with hb | hb
      · exact absurd hkey (ha b hb)
      · rw [List.mem_singleton.1 hb]
  · rw [if_neg hk, h k v]
    constructor
    · rintro ⟨b, hb, hrest⟩
      exact ⟨b, List.mem_append_left _ hb, hrest⟩
    · rintro ⟨b, hb, hkey, hval⟩
      rcases List.mem_append.1 hb with hb | hb
      · exact ⟨b, hb, hkey, hval⟩
      · rw [List.mem_singleton.1 hb] at hkey
        exact absurd hkey.symm hk

/-- Rows whose key and value stay are indexed as before. -/
theorem map {f : α → α} (h : Indexes t rows key val) (hkey : ∀ a ∈ rows, key (f a) = key a)
    (hval : ∀ a ∈ rows, val (f a) = val a) : Indexes t (rows.map f) key val := by
  intro k v
  rw [h k v]
  constructor
  · rintro ⟨a, ha, hk, hv⟩
    exact ⟨f a, List.mem_map_of_mem ha, (hkey a ha).trans hk, (hval a ha).trans hv⟩
  · rintro ⟨_, hb, hk, hv⟩
    obtain ⟨a, ha, rfl⟩ := List.mem_map.1 hb
    exact ⟨a, ha, (hkey a ha).symm.trans hk, (hval a ha).symm.trans hv⟩

/-- The rows of one key get a new value. -/
theorem rewrite {f : α → α} {k : Bytes} {v : V} (h : Indexes t rows key val)
    (hk : ∃ a ∈ rows, key a = k) (hkey : ∀ a ∈ rows, key (f a) = key a)
    (hnew : ∀ a ∈ rows, key a = k → val (f a) = v)
    (hold : ∀ a ∈ rows, key a ≠ k → val (f a) = val a) :
    Indexes (t.insert k v) (rows.map f) key val := by
  intro k' v'
  rw [Table.lookup_insert_eq]
  by_cases heq : k' = k
  · subst heq
    rw [if_pos rfl]
    constructor
    · intro hv
      obtain ⟨a, ha, hka⟩ := hk
      refine ⟨f a, List.mem_map_of_mem ha, (hkey a ha).trans hka, ?_⟩
      rw [hnew a ha hka, Option.some.inj hv]
    · rintro ⟨_, hb, hkb, rfl⟩
      obtain ⟨a, ha, rfl⟩ := List.mem_map.1 hb
      rw [hnew a ha ((hkey a ha).symm.trans hkb)]
  · rw [if_neg heq, h k' v']
    constructor
    · rintro ⟨a, ha, hka, hva⟩
      refine ⟨f a, List.mem_map_of_mem ha, (hkey a ha).trans hka, ?_⟩
      rw [hold a ha fun hkk => heq (hka.symm.trans hkk), hva]
    · rintro ⟨_, hb, hkb, hvb⟩
      obtain ⟨a, ha, rfl⟩ := List.mem_map.1 hb
      have hka := (hkey a ha).symm.trans hkb
      exact ⟨a, ha, hka, (hold a ha fun hkk => heq (hka.symm.trans hkk)).symm.trans hvb⟩

end Indexes

/-! ## Text columns -/

/-- What `sqlite3_bind_text(stmt, i, s.c_str(), -1, ...)` binds: `s` up to its first zero byte. -/
def cstr (s : Bytes) : Bytes := s.takeWhile (· ≠ 0)

theorem zero_not_mem_cstr (s : Bytes) : (0 : UInt8) ∉ cstr s := by
  intro h
  have := List.mem_takeWhile_imp h
  simp at this

theorem cstr_of_not_mem {s : Bytes} (h : (0 : UInt8) ∉ s) : cstr s = s := by
  rw [cstr, List.takeWhile_eq_self_iff]
  intro b hb
  have hne : b ≠ 0 := fun heq => h (heq ▸ hb)
  simpa using hne

/-- The content of a text column. -/
abbrev Text := {s : Bytes // (0 : UInt8) ∉ s}

def Text.bind (s : Bytes) : Text := ⟨cstr s, zero_not_mem_cstr s⟩

@[simp] theorem Text.bind_val (t : Text) : Text.bind t.1 = t :=
  Subtype.ext (cstr_of_not_mem t.2)

/-- Strings without zero bytes are bound as they are. -/
theorem Text.bind_eq_iff {s s' : Bytes} (h : (0 : UInt8) ∉ s) (h' : (0 : UInt8) ∉ s') :
    Text.bind s = Text.bind s' ↔ s = s' := by
  rw [Subtype.ext_iff]
  show cstr s = cstr s' ↔ s = s'
  rw [cstr_of_not_mem h, cstr_of_not_mem h']

end SecureFileTransfer
