import Mathlib.Data.List.Sort
import Mathlib.Data.Multiset.Count

/-!
# Priority queues by what their operations do

A priority queue over a key is any implementation whose operations act on the contents, as a
multiset, in the documented way: the top is an element of least key, and `pop` removes exactly
the top. Which of several elements of least key is on top is left open.

Lists kept in the order of the key are one such implementation.
-/

/-- An implementation of priority queues whose top has the least key. -/
structure PriorityQueue (α : Type*) {κ : Type*} [LinearOrder κ] (key : α → κ) where
  Carrier : Type
  elems : Carrier → Multiset α
  empty : Carrier
  push : Carrier → α → Carrier
  top? : Carrier → Option α
  pop : Carrier → Carrier
  elems_empty : elems empty = 0
  elems_push : ∀ q a, elems (push q a) = a ::ₘ elems q
  top?_eq_none : ∀ q, top? q = none ↔ elems q = 0
  top?_le : ∀ q a, top? q = some a → ∀ b ∈ elems q, key a ≤ key b
  elems_pop : ∀ q a, top? q = some a → a ::ₘ elems (pop q) = elems q

namespace PriorityQueue

variable {α κ : Type*} [LinearOrder κ] {key : α → κ} (P : PriorityQueue α key)

/-- The elements after a push are the pushed one and those before. -/
@[simp] theorem mem_push {q : P.Carrier} {a b : α} :
    b ∈ P.elems (P.push q a) ↔ b = a ∨ b ∈ P.elems q := by
  rw [P.elems_push, Multiset.mem_cons]

/-- The top is an element. -/
theorem mem_of_top? {q : P.Carrier} {a : α} (htop : P.top? q = some a) : a ∈ P.elems q := by
  rw [← P.elems_pop q a htop]
  exact Multiset.mem_cons_self a _

/-- A queue with an element has a top, whose key is at most that of the element. -/
theorem exists_top? {q : P.Carrier} {b : α} (hb : b ∈ P.elems q) :
    ∃ a, P.top? q = some a ∧ key a ≤ key b := by
  cases htop : P.top? q with
  | none =>
    rw [(P.top?_eq_none q).mp htop] at hb
    exact absurd hb (Multiset.notMem_zero b)
  | some a => exact ⟨a, rfl, P.top?_le q a htop b hb⟩

/-- Popping a top which passes a test lowers the number of elements that pass it by one. -/
theorem countP_pop (test : α → Prop) [DecidablePred test] {q : P.Carrier} {a : α}
    (htop : P.top? q = some a) (ha : test a) :
    (P.elems (P.pop q)).countP test + 1 = (P.elems q).countP test := by
  rw [← P.elems_pop q a htop, Multiset.countP_cons_of_pos _ ha]

/-- Lists in the order of their keys; an element is inserted before those of an equal key. -/
def sortedList {α : Type} {κ : Type*} [LinearOrder κ] (key : α → κ) : PriorityQueue α key where
  Carrier := { l : List α // l.Pairwise fun a b => key a ≤ key b }
  elems q := q.val
  empty := ⟨[], List.Pairwise.nil⟩
  push q a := ⟨q.val.orderedInsert (fun a b => key a ≤ key b) a, by
    have : Std.Total fun a b : α => key a ≤ key b := ⟨fun a b => le_total (key a) (key b)⟩
    have : IsTrans α fun a b => key a ≤ key b := ⟨fun _ _ _ => le_trans⟩
    exact q.property.orderedInsert a q.val⟩
  top? q := q.val.head?
  pop q := ⟨q.val.tail, q.property.tail⟩
  elems_empty := rfl
  elems_push q a := Multiset.coe_eq_coe.mpr (List.perm_orderedInsert _ a q.val)
  top?_eq_none q := by rw [List.head?_eq_none_iff, Multiset.coe_eq_zero]
  top?_le q a htop b hb := by
    obtain ⟨l, hl⟩ := q
    cases l with
    | nil => cases htop
    | cons c l =>
      cases htop
      rcases List.mem_cons.mp hb with rfl | hb
      · exact le_rfl
      · exact List.rel_of_pairwise_cons hl hb
  elems_pop q a htop := by
    obtain ⟨l, hl⟩ := q
    cases l with
    | nil => cases htop
    | cons c l =>
      cases htop
      rfl

end PriorityQueue

/-- Elements which have left a collection one by one in the order of their keys, none of them after an
element that was still to leave and came earlier in that order. -/
structure LeftInOrder {α κ : Type*} [LinearOrder κ] (key : α → κ) (left : List α) (rest : Multiset α) :
    Prop where
  sorted : left.Pairwise fun a b => key a ≤ key b
  le_rest : ∀ a ∈ left, ∀ b ∈ rest, key a ≤ key b

namespace LeftInOrder

variable {α κ : Type*} [LinearOrder κ] {key : α → κ} {left : List α} {rest : Multiset α}

/-- Nothing has left yet. -/
theorem nil (rest : Multiset α) : LeftInOrder key [] rest :=
  ⟨List.Pairwise.nil, fun _ h => absurd h List.not_mem_nil⟩

/-- An element of least key leaves next. -/
theorem leave (h : LeftInOrder key left rest) {a : α} (ha : a ∈ rest) (hleast : ∀ b ∈ rest, key a ≤ key b) :
    LeftInOrder key (left ++ [a]) rest where
  sorted := by
    apply List.pairwise_append.mpr ⟨h.sorted, List.pairwise_singleton _ a, _⟩
    intro b hb c hc
    rw [List.mem_singleton.mp hc]
    exact h.le_rest b hb a ha
  le_rest b hb c hc := by
    rcases List.mem_append.mp hb with hold | hnew
    · exact h.le_rest b hold c hc
    · rw [List.mem_singleton.mp hnew]
      exact hleast c hc

/-- The collection loses elements, or gets new ones whose keys are not below those that have left. -/
theorem change (h : LeftInOrder key left rest) {rest' : Multiset α}
    (hrest : ∀ b ∈ rest', b ∈ rest ∨ ∀ a ∈ left, key a ≤ key b) : LeftInOrder key left rest' where
  sorted := h.sorted
  le_rest a ha b hb := (hrest b hb).elim (h.le_rest a ha b) fun hlate => hlate a ha

end LeftInOrder

/-- A priority queue in which a pushed element does not take the top from one whose key is not greater,
as in a heap where an element only rises above those of strictly greater key. -/
structure SteadyQueue (α : Type*) {κ : Type*} [LinearOrder κ] (key : α → κ) extends
    PriorityQueue α key where
  top?_push : ∀ q a b, top? q = some a → key a ≤ key b → top? (push q b) = some a
