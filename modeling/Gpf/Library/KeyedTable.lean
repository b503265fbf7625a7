import Mathlib.Data.List.Nodup

/-!
# Insertion-ordered tables with a unique key

A container whose records are found by a unique key, and by any other test in the order of
insertion. Uniqueness of the keys is part of the type, so no operation can break it:
inserting a record whose key is present leaves the table as it was.

All operations are characterised by which records are in the table afterwards.
-/

/-- A list of records in which no key occurs twice. -/
@[ext] structure KeyedTable (α : Type*) {κ : Type*} (key : α → κ) where
  records : List α
  nodup_keys : (records.map key).Nodup

namespace KeyedTable

variable {α κ : Type*} {key : α → κ}

instance : Membership α (KeyedTable α key) := ⟨fun t a => a ∈ t.records⟩

instance [DecidableEq α] (a : α) (t : KeyedTable α key) : Decidable (a ∈ t) :=
  inferInstanceAs (Decidable (a ∈ t.records))

/-- Membership in the table is membership in its list of records. -/
theorem mem_def {t : KeyedTable α key} {a : α} : a ∈ t ↔ a ∈ t.records := Iff.rfl

/-- The table without records. -/
def empty : KeyedTable α key := ⟨[], List.nodup_nil⟩

/-- The first record, in insertion order, which passes a test. -/
def first? (t : KeyedTable α key) (test : α → Bool) : Option α := t.records.find? test

/-- Keep the records which pass a test. -/
def filter (t : KeyedTable α key) (test : α → Bool) : KeyedTable α key :=
  ⟨t.records.filter test, t.nodup_keys.sublist (List.filter_sublist.map key)⟩

variable [DecidableEq κ]

/-- The record with the given key. -/
def find? (t : KeyedTable α key) (k : κ) : Option α := t.first? fun a => decide (key a = k)

/-- Add a record at the end, unless its key is already present. -/
def insert (t : KeyedTable α key) (a : α) : KeyedTable α key :=
  if h : key a ∈ t.records.map key then t
  else ⟨t.records ++ [a], by
    rw [List.map_append, List.map_singleton]
    exact List.nodup_append.mpr ⟨t.nodup_keys, List.nodup_singleton _, by
      intro k hk l hl heq
      rw [List.mem_singleton.mp hl] at heq
      exact h (heq ▸ hk)⟩⟩

/-- Remove the record with the given key. -/
def erase (t : KeyedTable α key) (k : κ) : KeyedTable α key := t.filter fun a => decide (key a ≠ k)

/-- Put a record in the place of the one with its key; it moves to the end. -/
def replace (t : KeyedTable α key) (a : α) : KeyedTable α key := (t.erase (key a)).insert a

/-- Change the record with the given key where it stands, keeping its key. -/
def modify (t : KeyedTable α key) (k : κ) (f : α → α) (hf : ∀ a, key (f a) = key a) :
    KeyedTable α key :=
  ⟨t.records.map fun a => if key a = k then f a else a, by
    have hkeys : (t.records.map fun a => if key a = k then f a else a).map key =
        t.records.map key := by
      rw [List.map_map]
      apply List.map_congr_left
      intro a _
      simp only [Function.comp_apply]
      split
      · exact hf a
      · rfl
    rw [hkeys]
    exact t.nodup_keys⟩

omit [DecidableEq κ] in
/-- The empty table has no records. -/
@[simp] theorem notMem_empty (a : α) : a ∉ (empty : KeyedTable α key) := List.not_mem_nil

omit [DecidableEq κ] in
/-- A key determines its record. -/
theorem eq_of_key_eq {t : KeyedTable α key} {a b : α} (ha : a ∈ t) (hb : b ∈ t)
    (h : key a = key b) : a = b := List.inj_on_of_nodup_map t.nodup_keys ha hb h

omit [DecidableEq κ] in
/-- If a relation holds between no two records of a table, and between none of them and another record,
then it holds between no two once that record has been added. -/
theorem unique_insert {t u : KeyedTable α key} {new : α} {same : α → α → Prop}
    (hmem : ∀ a, a ∈ u ↔ a ∈ t ∨ a = new) (hunique : ∀ a ∈ t, ∀ b ∈ t, same a b → a = b)
    (hfree : ∀ a ∈ t, ¬same a new ∧ ¬same new a) : ∀ a ∈ u, ∀ b ∈ u, same a b → a = b := by
  intro a ha b hb hsame
  rcases (hmem a).mp ha with ha | rfl
  · rcases (hmem b).mp hb with hb | rfl
    · exact hunique a ha b hb hsame
    · exact absurd hsame (hfree a ha).1
  · rcases (hmem b).mp hb with hb | rfl
    · exact absurd hsame (hfree b hb).2
    · rfl

omit [DecidableEq κ] in
/-- A record found by a test is in the table and passes it. -/
theorem first?_some {t : KeyedTable α key} {test : α → Bool} {a : α}
    (h : t.first? test = some a) : a ∈ t ∧ test a = true :=
  ⟨List.mem_of_find?_eq_some h, List.find?_some h⟩

omit [DecidableEq κ] in
/-- A test finds nothing exactly when no record passes it. -/
theorem first?_eq_none {t : KeyedTable α key} {test : α → Bool} :
    t.first? test = none ↔ ∀ a ∈ t, test a = false := by
  simp only [first?, List.find?_eq_none, Bool.not_eq_true]
  exact Iff.rfl

omit [DecidableEq κ] in
/-- Filtering keeps exactly the records which pass the test. -/
@[simp] theorem mem_filter {t : KeyedTable α key} {test : α → Bool} {a : α} :
    a ∈ t.filter test ↔ a ∈ t ∧ test a = true := List.mem_filter

/-- A record is found by a key exactly when it is in the table under that key. -/
theorem find?_eq_some {t : KeyedTable α key} {k : κ} {a : α} :
    t.find? k = some a ↔ a ∈ t ∧ key a = k := by
  constructor
  · intro h
    obtain ⟨hmem, htest⟩ := first?_some h
    exact ⟨hmem, of_decide_eq_true htest⟩
  · intro hexists
    obtain ⟨hmem, hkey⟩ := hexists
    cases hfind : t.find? k with
    | none =>
      have hnone := first?_eq_none.mp hfind a hmem
      exact absurd hkey (of_decide_eq_false hnone)
    | some b =>
      obtain ⟨hb, htest⟩ := first?_some hfind
      rw [eq_of_key_eq hb hmem ((of_decide_eq_true htest).trans hkey.symm)]

/-- A key is not found exactly when no record has it. -/
theorem find?_eq_none {t : KeyedTable α key} {k : κ} :
    t.find? k = none ↔ ∀ a ∈ t, key a ≠ k := by
  simp only [find?, first?_eq_none, decide_eq_false_iff_not, ne_eq]

/-- Insertion adds exactly the new record, and only under a fresh key. -/
theorem mem_insert {t : KeyedTable α key} {a b : α} :
    b ∈ t.insert a ↔ b ∈ t ∨ b = a ∧ ∀ c ∈ t, key c ≠ key a := by
  by_cases h : key a ∈ t.records.map key
  · obtain ⟨c, hc, hkey⟩ := List.mem_map.mp h
    rw [insert, dif_pos h]
    refine ⟨Or.inl, fun hb => hb.elim id fun hnew => absurd hkey (hnew.2 c hc)⟩
  · have hfresh : ∀ c ∈ t, key c ≠ key a := fun c hc heq =>
      h (List.mem_map.mpr ⟨c, hc, heq⟩)
    rw [insert, dif_neg h, mem_def, List.mem_append, List.mem_singleton, ← mem_def]
    exact or_congr_right ⟨fun hb => ⟨hb, hfresh⟩, And.left⟩

/-- Erasure removes exactly the record with the key. -/
@[simp] theorem mem_erase {t : KeyedTable α key} {k : κ} {a : α} :
    a ∈ t.erase k ↔ a ∈ t ∧ key a ≠ k := by
  rw [erase, mem_filter, decide_eq_true_eq]

/-- Erasing several keys removes exactly their records. -/
theorem mem_foldl_erase {t : KeyedTable α key} {ks : List κ} {a : α} :
    a ∈ ks.foldl erase t ↔ a ∈ t ∧ key a ∉ ks := by
  induction ks generalizing t with
  | nil => simp
  | cons k ks ih => rw [List.foldl_cons, ih, mem_erase, List.mem_cons, not_or, and_assoc]

/-- Erasing several keys makes exactly their records impossible to find. -/
theorem find?_foldl_erase {t : KeyedTable α key} {ks : List κ} {k : κ} :
    (ks.foldl erase t).find? k = if k ∈ ks then none else t.find? k := by
  by_cases hk : k ∈ ks
  · rw [if_pos hk, find?_eq_none]
    intro a ha hkey
    exact (mem_foldl_erase.mp ha).2 (hkey ▸ hk)
  · rw [if_neg hk]
    apply Option.ext
    intro a
    rw [find?_eq_some, find?_eq_some, mem_foldl_erase]
    constructor
    · intro h
      exact ⟨h.1.1, h.2⟩
    · intro h
      exact ⟨⟨h.1, h.2 ▸ hk⟩, h.2⟩

/-- Erasing keys which no record has leaves the table as it is. -/
theorem foldl_erase_of_notMem {t : KeyedTable α key} {ks : List κ} (h : ∀ a ∈ t, key a ∉ ks) :
    ks.foldl erase t = t := by
  induction ks with
  | nil => rfl
  | cons k ks ih =>
    have hhead : t.erase k = t := by
      apply KeyedTable.ext
      apply List.filter_eq_self.mpr
      intro a ha
      exact decide_eq_true fun heq => h a ha (heq ▸ List.mem_cons_self)
    rw [List.foldl_cons, hhead]
    exact ih fun a ha hmem => h a ha (List.mem_cons_of_mem k hmem)

/-- Replacement exchanges exactly the record with the new record's key. -/
theorem mem_replace {t : KeyedTable α key} {a b : α} :
    b ∈ t.replace a ↔ b ∈ t ∧ key b ≠ key a ∨ b = a := by
  rw [replace, mem_insert, mem_erase]
  refine or_congr_right ⟨And.left, fun hb => ⟨hb, fun c hc => (mem_erase.mp hc).2⟩⟩

/-- A changed table holds exactly the images of its records. -/
theorem mem_modify {t : KeyedTable α key} {k : κ} {f : α → α} (hf : ∀ a, key (f a) = key a) {b : α} :
    b ∈ t.modify k f hf ↔ ∃ a ∈ t, b = if key a = k then f a else a := by
  rw [mem_def, modify, List.mem_map]
  exact exists_congr fun a => and_congr_right fun _ => eq_comm

/-- A change leaves the table as it is exactly when it leaves the record under its key alone. -/
theorem modify_eq_self {t : KeyedTable α key} {k : κ} {f : α → α} (hf : ∀ a, key (f a) = key a) :
    t.modify k f hf = t ↔ ∀ a ∈ t, key a = k → f a = a := by
  rw [KeyedTable.ext_iff]
  calc
    (t.modify k f hf).records = t.records ↔
        t.records.map (fun a => if key a = k then f a else a) = t.records.map id := by
      rw [List.map_id, modify]
    _ ↔ ∀ a ∈ t, key a = k → f a = a := by
      rw [List.map_inj_left]
      exact forall₂_congr fun a _ => ite_eq_right_iff

/-- Tables under each key of which the same is found hold the same records. -/
theorem mem_congr {t u : KeyedTable α key} (h : ∀ k, t.find? k = u.find? k) (a : α) :
    a ∈ t ↔ a ∈ u := by
  have hmem : ∀ v : KeyedTable α key, a ∈ v ↔ v.find? (key a) = some a := fun v => by
    rw [find?_eq_some, and_iff_left rfl]
  rw [hmem, hmem, h]

/-- What is found after an insertion: what was there, or else the new record under its key. -/
theorem find?_insert {t : KeyedTable α key} {a : α} {k : κ} :
    (t.insert a).find? k = if key a = k then (t.find? k).or (some a) else t.find? k := by
  apply Option.ext
  intro b
  rw [find?_eq_some, mem_insert]
  by_cases hkey : key a = k
  · subst hkey
    rw [if_pos rfl]
    cases hfind : t.find? (key a) with
    | none =>
      have hnone := find?_eq_none.mp hfind
      simp only [Option.none_or, Option.some.injEq]
      constructor
      · intro h
        exact (h.1.resolve_left fun hold => hnone b hold h.2).1.symm
      · intro h
        subst h
        exact ⟨.inr ⟨rfl, hnone⟩, rfl⟩
    | some c =>
      obtain ⟨hc, hkey⟩ := find?_eq_some.mp hfind
      simp only [Option.some_or, Option.some.injEq]
      constructor
      · intro h
        have hold := h.1.resolve_right fun hnew => hnew.2 c hc hkey
        exact eq_of_key_eq hc hold (hkey.trans h.2.symm)
      · intro h
        subst h
        exact ⟨.inl hc, hkey⟩
  · rw [if_neg hkey, find?_eq_some]
    constructor
    · intro h
      exact ⟨h.1.resolve_right fun hnew => hkey (hnew.1 ▸ h.2), h.2⟩
    · intro h
      exact ⟨.inl h.1, h.2⟩

/-- What is found after the record under one key has been changed. -/
theorem find?_modify {t : KeyedTable α key} {k l : κ} {f : α → α} (hf : ∀ a, key (f a) = key a) :
    (t.modify k f hf).find? l = if k = l then (t.find? l).map f else t.find? l := by
  have hkey : ∀ a, key (if key a = k then f a else a) = key a := by
    intro a
    by_cases h : key a = k
    · rw [if_pos h, hf]
    · rw [if_neg h]
  apply Option.ext
  intro b
  rw [find?_eq_some, mem_modify]
  by_cases hkl : k = l
  · subst hkl
    rw [if_pos rfl, Option.map_eq_some_iff]
    constructor
    · intro h
      obtain ⟨⟨a, ha, rfl⟩, hb⟩ := h
      rw [hkey] at hb
      exact ⟨a, find?_eq_some.mpr ⟨ha, hb⟩, (if_pos hb).symm⟩
    · intro h
      obtain ⟨a, hfind, rfl⟩ := h
      obtain ⟨ha, hk⟩ := find?_eq_some.mp hfind
      exact ⟨⟨a, ha, (if_pos hk).symm⟩, (hf a).trans hk⟩
  · rw [if_neg hkl, find?_eq_some]
    constructor
    · intro h
      obtain ⟨⟨a, ha, rfl⟩, hb⟩ := h
      rw [hkey] at hb
      rw [if_neg fun hk => hkl (hk.symm.trans hb)]
      exact ⟨ha, hb⟩
    · intro h
      exact ⟨⟨b, h.1, (if_neg fun hk => hkl (hk.symm.trans h.2)).symm⟩, h.2⟩

/-- What is found after a replacement: the new record under its key. -/
theorem find?_replace {t : KeyedTable α key} {a : α} {k : κ} :
    (t.replace a).find? k = if key a = k then some a else t.find? k := by
  apply Option.ext
  intro b
  rw [find?_eq_some, mem_replace]
  by_cases hkey : key a = k
  · subst hkey
    rw [if_pos rfl, Option.some.injEq]
    constructor
    · intro h
      exact (h.1.resolve_left fun hold => hold.2 h.2).symm
    · intro h
      subst h
      exact ⟨.inr rfl, rfl⟩
  · rw [if_neg hkey, find?_eq_some]
    constructor
    · intro h
      exact ⟨(h.1.resolve_right fun hnew => hkey (hnew ▸ h.2)).1, h.2⟩
    · intro h
      exact ⟨.inl ⟨h.1, fun heq => hkey (heq.symm.trans h.2)⟩, h.2⟩

end KeyedTable
