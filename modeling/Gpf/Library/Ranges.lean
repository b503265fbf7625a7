import Mathlib.Data.List.TakeWhile

/-!
# Positions and ranges in a list

A position in a list lies before one of its elements or at its end, and two positions bound the range
of the elements between them. Searches answer the end of the list when they find nothing. Moving
a position out of the list, or reading between positions in the wrong order, is no operation.

Everything is characterised on lists which are given as parts put together, where a position is
the length of what precedes it.
-/

namespace Ranges

variable {α : Type*}

/-- The position `n` places behind another, as long as it is in the list. -/
def advance (s : List α) (i n : ℕ) : Option ℕ := if i + n ≤ s.length then some (i + n) else none

/-- The elements between two positions of the list, the first not behind the last. -/
def range (s : List α) (first last : ℕ) : Option (List α) :=
  if first ≤ last ∧ last ≤ s.length then some ((s.take last).drop first) else none

/-- Moving over a part of the list. -/
theorem advance_append (pre mid post : List α) :
    advance (pre ++ (mid ++ post)) pre.length mid.length = some (pre.length + mid.length) := by
  apply if_pos
  simp only [List.length_append]
  omega

/-- Reading a part of the list. -/
theorem range_append (pre mid post : List α) :
    range (pre ++ (mid ++ post)) pre.length (pre.length + mid.length) = some mid := by
  have hbound : pre.length + mid.length ≤ (pre ++ (mid ++ post)).length := by
    simp only [List.length_append]
    omega
  rw [range, if_pos ⟨Nat.le_add_right _ _, hbound⟩, ← List.append_assoc, ← List.length_append,
    List.take_left, List.drop_left]

variable [DecidableEq α]

/-- The position of the first occurrence of an element behind a position. -/
def find (s : List α) (first : ℕ) (a : α) : ℕ := first + (s.drop first).findIdx fun b => decide (b = a)

/-- The position of the first occurrence of a pattern. -/
def search : List α → List α → ℕ
  | [], _ => 0
  | a :: s, pattern => if pattern <+: a :: s then 0 else search s pattern + 1

/-- The part of a list before the first occurrence of an element. -/
def before (a : α) (s : List α) : List α := s.takeWhile fun b => decide (b ≠ a)

/-- The part of a list from the first occurrence of an element on. -/
def onward (a : α) (s : List α) : List α := s.dropWhile fun b => decide (b ≠ a)

/-- The two parts make up the list. -/
theorem before_append_onward (a : α) (s : List α) : before a s ++ onward a s = s :=
  List.takeWhile_append_dropWhile

/-- The element does not occur before its first occurrence. -/
theorem notMem_before (a : α) (s : List α) : a ∉ before a s := by
  intro hmem
  have hne := List.mem_takeWhile_imp hmem
  exact of_decide_eq_true hne rfl

/-- A part without the element comes before its first occurrence. -/
theorem before_append {a : α} {mid : List α} (hmid : a ∉ mid) (s : List α) :
    before a (mid ++ s) = mid ++ before a s := by
  apply List.takeWhile_append_of_pos
  intro b hb
  exact decide_eq_true fun heq => hmid (heq ▸ hb)

/-- The first occurrence is behind a part without the element. -/
theorem onward_append {a : α} {mid : List α} (hmid : a ∉ mid) (s : List α) :
    onward a (mid ++ s) = onward a s := by
  apply List.dropWhile_append_of_pos
  intro b hb
  exact decide_eq_true fun heq => hmid (heq ▸ hb)

/-- Nothing comes before an element at the head. -/
@[simp] theorem before_cons_self (a : α) (s : List α) : before a (a :: s) = [] := by
  simp [before]

/-- An element at the head is the first occurrence. -/
@[simp] theorem onward_cons_self (a : α) (s : List α) : onward a (a :: s) = a :: s := by
  simp [onward]

/-- The rest is empty, or begins with the element. -/
theorem onward_cases (a : α) (s : List α) : onward a s = [] ∨ ∃ rest, onward a s = a :: rest := by
  induction s with
  | nil => exact .inl rfl
  | cons b s ih =>
    by_cases hb : b = a
    · subst hb
      exact .inr ⟨s, onward_cons_self b s⟩
    · have hskip := onward_append (fun h => hb (List.mem_singleton.mp h).symm) s
      rw [List.singleton_append] at hskip
      rw [hskip]
      exact ih

/-- An element of the list has a first occurrence. -/
theorem exists_onward {a : α} {s : List α} (ha : a ∈ s) : ∃ rest, onward a s = a :: rest := by
  apply (onward_cases a s).resolve_left
  intro hend
  have hsplit := before_append_onward a s
  rw [hend, List.append_nil] at hsplit
  exact notMem_before a s (hsplit.symm ▸ ha)

/-- An element of the list occurs before its end. -/
theorem length_before_lt {a : α} {s : List α} (ha : a ∈ s) : (before a s).length < s.length := by
  obtain ⟨rest, hrest⟩ := exists_onward ha
  have hlength := congrArg List.length (before_append_onward a s)
  rw [hrest, List.length_append, List.length_cons] at hlength
  omega

/-- Without the element, all of the list comes before it. -/
theorem before_of_notMem {a : α} {s : List α} (ha : a ∉ s) : before a s = s := by
  have hnone : before a ([] : List α) = [] := rfl
  have hwhole := before_append ha []
  rwa [List.append_nil, hnone, List.append_nil] at hwhole

/-- Without the element, there is no rest. -/
theorem onward_of_notMem {a : α} {s : List α} (ha : a ∉ s) : onward a s = [] := by
  have hwhole := onward_append ha []
  rwa [List.append_nil] at hwhole

/-- A search behind a part of the list finds the first occurrence in the rest. -/
theorem find_append (pre s : List α) (a : α) :
    find (pre ++ s) pre.length a = pre.length + (before a s).length := by
  have htest : (fun b => !decide (b ≠ a)) = fun b => decide (b = a) := by
    funext b
    simp
  rw [find, List.drop_left, before, List.takeWhile_eq_take_findIdx_not, htest,
    List.length_take_of_le List.findIdx_le_length]

/-- A pattern which does not occur earlier is found. -/
theorem search_append {pre pattern post : List α}
    (hfirst : ∀ i < pre.length, ¬pattern <+: (pre ++ (pattern ++ post)).drop i) :
    search (pre ++ (pattern ++ post)) pattern = pre.length := by
  induction pre with
  | nil =>
    rw [List.nil_append, List.length_nil]
    cases hs : pattern ++ post with
    | nil => rfl
    | cons a s => exact if_pos (hs ▸ List.prefix_append pattern post)
  | cons a pre ih =>
    have hnot := hfirst 0 (Nat.zero_lt_succ _)
    rw [List.drop_zero, List.cons_append] at hnot
    rw [List.cons_append, search, if_neg hnot, ih, List.length_cons]
    intro i hi
    exact hfirst (i + 1) (Nat.succ_lt_succ hi)

/-- A pattern with elements is found at its first occurrence, or occurs nowhere. -/
theorem search_cases {pattern : List α} (hpattern : pattern ≠ []) (s : List α) :
    (search s pattern = s.length ∧ ¬pattern <:+: s) ∨
      ∃ pre post, s = pre ++ (pattern ++ post) ∧ search s pattern = pre.length ∧
        ∀ i < pre.length, ¬pattern <+: s.drop i := by
  induction s with
  | nil => exact .inl ⟨rfl, fun h => hpattern (List.infix_nil.mp h)⟩
  | cons a s ih =>
    by_cases hhere : pattern <+: a :: s
    · right
      obtain ⟨post, hpost⟩ := id hhere
      exact ⟨[], post, hpost.symm, if_pos hhere, fun i hi => absurd hi (Nat.not_lt_zero i)⟩
    · have hstep : search (a :: s) pattern = search s pattern + 1 := if_neg hhere
      rw [hstep]
      rcases ih with ⟨hend, hnowhere⟩ | ⟨pre, post, rfl, hfound, hfirst⟩
      · left
        rw [hend, List.infix_cons_iff]
        exact ⟨rfl, fun h => h.elim hhere hnowhere⟩
      · right
        refine ⟨a :: pre, post, rfl, by rw [hfound, List.length_cons], ?_⟩
        intro i hi
        cases i with
        | zero => exact hhere
        | succ i => exact hfirst i (Nat.lt_of_succ_lt_succ hi)

end Ranges
