import Gpf.Library.PriorityQueue

/-!
# Binary heaps

The algorithms behind `std::priority_queue`: a vector read as a binary tree in which no element has a
smaller key than the one above it. A pushed element rises from the end while its key is strictly smaller
than that above it, and `pop` moves the last element to the root, from where it sinks to the bottom and
rises again. The standard leaves open which of several least elements is on top; ties fall as in libstdc++,
and nothing is proved that depends on them.
-/

namespace BinaryHeap

variable {α : Type} {κ : Type*} [LinearOrder κ] (key : α → κ) {n : ℕ}

/-- The place above `i` in the tree. -/
def parent (i : ℕ) : ℕ := (i - 1) / 2

/-- Every place but the root is below another. -/
theorem parent_lt {i : ℕ} (h : 0 < i) : parent i < i := by
  unfold parent
  omega

/-- Two places hold elements in the order of their keys, as far as both exist. -/
def Above (a : Vector α n) (i j : ℕ) : Prop := ∀ (hi : i < n) (hj : j < n), key a[i] ≤ key a[j]

/-- No element has a smaller key than the one above it. -/
def Ordered (a : Vector α n) : Prop := ∀ j, 0 < j → Above key a (parent j) j

/-- `std::push_heap`: the element at `i` rises as long as its key is smaller than that above it. -/
def siftUp : ℕ → Vector α n → (i : ℕ) → i < n → Vector α n
  | 0, a, _, _ => a
  | fuel + 1, a, i, hi =>
    if h : 0 < i then
      have hp : parent i < n := (parent_lt h).trans hi
      if key a[i] < key a[parent i] then siftUp fuel (a.swap (parent i) i) (parent i) hp else a
    else a

/-- The place below `i` whose element has the smaller key, the right one if both have the same. -/
def child (a : Vector α n) (i : ℕ) (hleft : 2 * i + 1 < n) : Fin n :=
  if hright : 2 * i + 2 < n then
    if key a[2 * i + 1] < key a[2 * i + 2] then ⟨2 * i + 1, hleft⟩ else ⟨2 * i + 2, hright⟩
  else ⟨2 * i + 1, hleft⟩

/-- `std::pop_heap`: the element at `i` sinks as long as anything is below it, and then rises. -/
def siftDown : ℕ → Vector α n → (i : ℕ) → i < n → Vector α n
  | 0, a, _, _ => a
  | fuel + 1, a, i, hi =>
    if hleft : 2 * i + 1 < n then
      let c := child key a i hleft
      siftDown fuel (a.swap i c) c c.isLt
    else siftUp key i a i hi

/-- Only the element at `i` may have a smaller key than the one above it. -/
structure UpReady (a : Vector α n) (i : ℕ) : Prop where
  rest : ∀ j, 0 < j → j ≠ i → Above key a (parent j) j
  past : 0 < i → ∀ j, 0 < j → parent j = i → Above key a (parent i) j

/-- All are in order when the element at `i` is left out. -/
structure DownReady (a : Vector α n) (i : ℕ) : Prop where
  rest : ∀ j, 0 < j → j ≠ i → parent j ≠ i → Above key a (parent j) j
  past : 0 < i → ∀ j, 0 < j → parent j = i → Above key a (parent i) j

variable {key}

/-- Exchanging the element with the one above it moves the defect up. -/
theorem UpReady.swap {a : Vector α n} {i : ℕ} (h : UpReady key a i) (hpos : 0 < i) (hi : i < n)
    (hp : parent i < n) (hlt : key a[i] < key a[parent i]) :
    UpReady key (a.swap (parent i) i) (parent i) := by
  have hup := parent_lt hpos
  constructor
  · intro j hj hne hpj hjn
    simp only [Vector.getElem_swap]
    by_cases hji : j = i
    · subst hji
      rw [if_pos rfl, if_neg hne, if_pos rfl]
      exact hlt.le
    · have hrest := h.rest j hj hji hpj hjn
      rw [if_neg hne, if_neg hji]
      by_cases hpar : parent j = i
      · -- what was below the rising element is now below the one that it has passed
        rw [if_neg (by omega), if_pos hpar]
        exact h.past hpos j hj hpar hp hjn
      · by_cases hsibling : parent j = parent i
        · simp only [hsibling] at hrest
          rw [if_pos hsibling]
          exact hlt.le.trans hrest
        · rw [if_neg hsibling, if_neg hpar]
          exact hrest
  · intro hpp j hj hpar hppn hjn
    have hppup := parent_lt hpp
    have hjup := parent_lt hj
    have hgrand := h.rest (parent i) hpp hup.ne hppn hp
    simp only [Vector.getElem_swap]
    rw [if_neg hppup.ne, if_neg (hppup.trans hup).ne, if_neg (hpar ▸ hjup.ne')]
    by_cases hji : j = i
    · rw [if_pos hji]
      exact hgrand
    · have hrest := h.rest j hj hji (hpar ▸ hp) hjn
      simp only [hpar] at hrest
      rw [if_neg hji]
      exact hgrand.trans hrest

/-- A rising element restores the order. -/
theorem siftUp_ordered {fuel : ℕ} {a : Vector α n} {i : ℕ} (hi : i < n) (hfuel : i ≤ fuel)
    (h : UpReady key a i) : Ordered key (siftUp key fuel a i hi) := by
  induction fuel generalizing a i with
  | zero =>
    intro j hj
    exact h.rest j hj (by omega)
  | succ fuel ih =>
    rw [siftUp]
    by_cases hpos : 0 < i
    · have hup := parent_lt hpos
      have hp : parent i < n := hup.trans hi
      rw [dif_pos hpos]
      by_cases hlt : key a[i] < key a[parent i]
      · rw [if_pos hlt]
        exact ih hp (by omega) (h.swap hpos hi hp hlt)
      · rw [if_neg hlt]
        intro j hj
        by_cases hji : j = i
        · subst hji
          exact fun _ _ => not_lt.mp hlt
        · exact h.rest j hj hji
    · rw [dif_neg hpos]
      intro j hj
      exact h.rest j hj (by omega)

variable (key) in
/-- A rising element changes places only. -/
theorem siftUp_perm (fuel : ℕ) (a : Vector α n) (i : ℕ) (hi : i < n) :
    (siftUp key fuel a i hi).toList.Perm a.toList := by
  induction fuel generalizing a i with
  | zero => exact .refl _
  | succ fuel ih =>
    rw [siftUp]
    by_cases hpos : 0 < i
    · have hp : parent i < n := (parent_lt hpos).trans hi
      rw [dif_pos hpos]
      by_cases hlt : key a[i] < key a[parent i]
      · rw [if_pos hlt]
        exact (ih _ _ hp).trans (Vector.swap_perm hp hi).toList
      · rw [if_neg hlt]
    · rw [dif_neg hpos]

/-- A rising element does not pass a root whose key is not greater. -/
theorem siftUp_root (fuel : ℕ) {a : Vector α n} {i : ℕ} (hi : i < n) (hn : 0 < n)
    (h : key a[0] ≤ key a[i]) : (siftUp key fuel a i hi)[0] = a[0] := by
  induction fuel generalizing a i with
  | zero => rfl
  | succ fuel ih =>
    rw [siftUp]
    by_cases hpos : 0 < i
    · have hp : parent i < n := (parent_lt hpos).trans hi
      rw [dif_pos hpos]
      by_cases hlt : key a[i] < key a[parent i]
      · have hne : parent i ≠ 0 := by
          intro hroot
          simp only [hroot] at hlt
          exact absurd hlt (not_lt.mpr h)
        have hsame : (a.swap (parent i) i)[0] = a[0] := Vector.getElem_swap_of_ne hne.symm hpos.ne
        rw [if_pos hlt, ih hp, hsame]
        rw [hsame, Vector.getElem_swap_left]
        exact h
      · rw [if_neg hlt]
    · rw [dif_neg hpos]

variable (key) in
/-- The chosen place is below `i`. -/
theorem parent_child (a : Vector α n) {i : ℕ} (hleft : 2 * i + 1 < n) :
    parent (child key a i hleft) = i ∧ i < child key a i hleft := by
  unfold parent child
  grind

/-- The chosen element has the least key of those right below `i`. -/
theorem child_least {a : Vector α n} {i : ℕ} (hleft : 2 * i + 1 < n) {j : ℕ} (hj : 0 < j)
    (hpar : parent j = i) (hjn : j < n) : key a[child key a i hleft] ≤ key a[j] := by
  unfold parent at hpar
  unfold child
  grind

/-- Exchanging the element with the least one below it moves the defect down. -/
theorem DownReady.swap {a : Vector α n} {i c : ℕ} (h : DownReady key a i) (hi : i < n) (hc : c < n)
    (hdown : i < c) (hpar : parent c = i)
    (hleast : ∀ j, 0 < j → parent j = i → ∀ hjn : j < n, key a[c] ≤ key a[j]) :
    DownReady key (a.swap i c) c := by
  constructor
  · intro j hj hne hnep hpj hjn
    have hjup := parent_lt hj
    simp only [Vector.getElem_swap]
    by_cases hji : parent j = i
    · have hne' : j ≠ i := by omega
      rw [if_pos hji, if_neg hne', if_neg hne]
      exact hleast j hj hji hjn
    · rw [if_neg hji, if_neg hnep]
      by_cases hroot : j = i
      · -- the one that has risen still comes below what is above `i`
        subst hroot
        rw [if_pos rfl]
        exact h.past hj c (hj.trans hdown) hpar hpj hc
      · rw [if_neg hroot, if_neg hne]
        exact h.rest j hj hroot hji hpj hjn
  · intro hpos j hj hpc hpcn hjn
    have hjup := parent_lt hj
    have hrest := h.rest j hj (by omega) (by omega) (by omega) hjn
    simp only [hpc] at hrest
    simp only [Vector.getElem_swap]
    rw [if_pos hpar, if_neg (by omega), if_neg (by omega)]
    exact hrest

/-- An element with nothing below it may rise. -/
theorem DownReady.upReady {a : Vector α n} {i : ℕ} (h : DownReady key a i) (hleft : ¬ 2 * i + 1 < n) :
    UpReady key a i := by
  have hbelow : ∀ j, 0 < j → parent j = i → ¬ j < n := by
    intro j hj hpar
    unfold parent at hpar
    omega
  constructor
  · intro j hj hne hpj hjn
    exact h.rest j hj hne (fun hpar => hbelow j hj hpar hjn) hpj hjn
  · intro hpos j hj hpar hpn hjn
    exact absurd hjn (hbelow j hj hpar)

/-- An element that sinks and then rises restores the order. -/
theorem siftDown_ordered {fuel : ℕ} {a : Vector α n} {i : ℕ} (hi : i < n) (hfuel : n ≤ i + fuel)
    (h : DownReady key a i) : Ordered key (siftDown key fuel a i hi) := by
  induction fuel generalizing a i with
  | zero => omega
  | succ fuel ih =>
    rw [siftDown]
    by_cases hleft : 2 * i + 1 < n
    · obtain ⟨hpar, hdown⟩ := parent_child key a hleft
      rw [dif_pos hleft]
      apply ih
      · omega
      · exact h.swap hi _ hdown hpar (fun j hj hpj hjn => child_least hleft hj hpj hjn)
    · rw [dif_neg hleft]
      exact siftUp_ordered hi le_rfl (h.upReady hleft)

/-- An element that sinks and then rises changes places only. -/
theorem siftDown_perm (fuel : ℕ) (a : Vector α n) (i : ℕ) (hi : i < n) :
    (siftDown key fuel a i hi).toList.Perm a.toList := by
  induction fuel generalizing a i with
  | zero => exact .refl _
  | succ fuel ih =>
    rw [siftDown]
    by_cases hleft : 2 * i + 1 < n
    · rw [dif_pos hleft]
      exact (ih _ _ _).trans (Vector.swap_perm hi _).toList
    · rw [dif_neg hleft]
      exact siftUp_perm key i a i hi

/-- In an ordered tree the root has the least key. -/
theorem Ordered.root_le {a : Vector α n} (h : Ordered key a) (hn : 0 < n) (i : ℕ) (hi : i < n) :
    key a[0] ≤ key a[i] := by
  induction i using Nat.strong_induction_on with
  | h i ih =>
    by_cases hpos : 0 < i
    · have hup := parent_lt hpos
      exact (ih (parent i) hup (hup.trans hi)).trans (h i hpos (hup.trans hi) hi)
    · have hzero : i = 0 := by omega
      subst hzero
      exact le_rfl

end BinaryHeap

/-- A vector whose elements are in the order of a binary heap. -/
structure BinaryHeap {α : Type} {κ : Type*} [LinearOrder κ] (key : α → κ) where
  size : ℕ
  entries : Vector α size
  ordered : BinaryHeap.Ordered key entries

namespace BinaryHeap

variable {α : Type} {κ : Type*} [LinearOrder κ] {key : α → κ}

/-- The heap without elements. -/
def empty : BinaryHeap key where
  size := 0
  entries := #v[]
  ordered _ _ _ hj := absurd hj (Nat.not_lt_zero _)

/-- A pushed element is the only one that may be out of order. -/
theorem upReady_push (q : BinaryHeap key) (x : α) : UpReady key (q.entries.push x) q.size := by
  constructor
  · intro j hj hne hpj hjn
    have hup := parent_lt hj
    have hold := q.ordered j hj (by omega) (by omega)
    grind
  · intro hpos j hj hpar hpn hjn
    have hup := parent_lt hj
    omega

/-- `priority_queue::push`. -/
def push (q : BinaryHeap key) (x : α) : BinaryHeap key where
  size := q.size + 1
  entries := siftUp key q.size (q.entries.push x) q.size (Nat.lt_succ_self _)
  ordered := siftUp_ordered _ le_rfl (upReady_push q x)

/-- `priority_queue::top`. -/
def top? (q : BinaryHeap key) : Option α := q.entries[0]?

/-- The last element takes the place of the root and sinks. -/
def popEntries (key : α → κ) {n : ℕ} (a : Vector α (n + 1)) : Vector α n :=
  if hn : 0 < n then siftDown key n (a.swap 0 n).pop 0 hn else (a.swap 0 n).pop

/-- What is left is in order. -/
theorem popEntries_ordered {n : ℕ} {a : Vector α (n + 1)} (h : Ordered key a) :
    Ordered key (popEntries key a) := by
  unfold popEntries
  by_cases hn : 0 < n
  · rw [dif_pos hn]
    apply siftDown_ordered hn (by omega)
    constructor
    · intro j hj _ hne hpj hjn
      have hold := h j hj (by omega) (by omega)
      rw [Vector.getElem_pop', Vector.getElem_pop', Vector.getElem_swap_of_ne hne (by omega),
        Vector.getElem_swap_of_ne (by omega) (by omega)]
      exact hold
    · intro hpos
      exact absurd hpos (lt_irrefl 0)
  · rw [dif_neg hn]
    intro j hj _ hjn
    exact absurd (hj.trans hjn) hn

/-- What is left, together with the root, is what was there. -/
theorem popEntries_perm (key : α → κ) {n : ℕ} (a : Vector α (n + 1)) :
    (a[0] :: (popEntries key a).toList).Perm a.toList := by
  have hlast : (a.swap 0 n).toList = (a.swap 0 n).pop.toList ++ [a[0]] := by
    have hback : (a.swap 0 n).back = a[0] := by
      rw [Vector.back_eq_getElem]
      exact Vector.getElem_swap_right _ _
    have hpush := (a.swap 0 n).push_pop_back
    rw [hback] at hpush
    exact (congrArg Vector.toList hpush).symm.trans Vector.toList_push
  have hperm : (a[0] :: (a.swap 0 n).pop.toList).Perm a.toList := by
    have hswap : (a.swap 0 n).Perm a := Vector.swap_perm _ _
    have hlist := hswap.toList
    rw [hlast] at hlist
    exact (List.perm_append_singleton a[0] _).symm.trans hlist
  unfold popEntries
  by_cases hn : 0 < n
  · rw [dif_pos hn]
    exact ((siftDown_perm n _ 0 hn).cons a[0]).trans hperm
  · rw [dif_neg hn]
    exact hperm

/-- `priority_queue::pop`. -/
def pop : BinaryHeap key → BinaryHeap key
  | ⟨0, a, h⟩ => ⟨0, a, h⟩
  | ⟨_ + 1, a, h⟩ => ⟨_, popEntries key a, popEntries_ordered h⟩

/-- Of four elements with the same key the third comes out after the first. -/
example : (((((.empty : BinaryHeap fun _ : Char => (0 : ℕ)).push 'a').push 'b').push 'c').push 'd').pop.top? =
    some 'c' := by decide

end BinaryHeap

namespace SteadyQueue

/-- Binary heaps are steady. -/
def binaryHeap {α : Type} {κ : Type*} [LinearOrder κ] (key : α → κ) : SteadyQueue α key where
  Carrier := BinaryHeap key
  elems q := q.entries.toList
  empty := .empty
  push := .push
  top? q := q.top?
  pop := .pop
  elems_empty := rfl
  elems_push q x := by
    have hperm := BinaryHeap.siftUp_perm key q.size (q.entries.push x) q.size (Nat.lt_succ_self _)
    rw [Vector.toList_push] at hperm
    exact Multiset.coe_eq_coe.mpr (hperm.trans (List.perm_append_singleton x _))
  top?_eq_none q := by
    obtain ⟨size, a, h⟩ := q
    cases size with
    | zero => simp [BinaryHeap.top?]
    | succ n => simp [BinaryHeap.top?]
  top?_le q x htop y hy := by
    obtain ⟨hn, rfl⟩ := Vector.getElem?_eq_some_iff.mp htop
    obtain ⟨i, hi, rfl⟩ := Vector.mem_iff_getElem.mp (Vector.mem_toList_iff.mp hy)
    exact q.ordered.root_le hn i hi
  elems_pop q x htop := by
    obtain ⟨size, a, h⟩ := q
    cases size with
    | zero => simp [BinaryHeap.top?] at htop
    | succ n =>
      have hx : a[0] = x := by simpa [BinaryHeap.top?] using htop
      rw [← hx]
      exact Multiset.coe_eq_coe.mpr (BinaryHeap.popEntries_perm key a)
  top?_push q x y htop hle := by
    obtain ⟨hn, rfl⟩ := Vector.getElem?_eq_some_iff.mp htop
    apply Vector.getElem?_eq_some_iff.mpr
    refine ⟨Nat.succ_pos _, ?_⟩
    have hnot : key (q.entries.push y)[0] ≤ key (q.entries.push y)[q.size] := by
      rw [Vector.getElem_push_lt hn, Vector.getElem_push_eq]
      exact hle
    have hroot := BinaryHeap.siftUp_root q.size (Nat.lt_succ_self q.size) (Nat.succ_pos _) hnot
    exact hroot.trans (Vector.getElem_push_lt hn)

end SteadyQueue
