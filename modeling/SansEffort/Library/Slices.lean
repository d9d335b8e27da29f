import Mathlib.Data.List.Basic
import Mathlib.Data.List.Perm.Basic
import Mathlib.Order.Lattice

/-!
# Slices

Binary search over a sorted list and removal by swapping with the last element: the two
slice operations whose result is only meaningful under an assumption on the slice. Both
searches halve an interval of indices. On a sorted list they find what a linear scan finds,
and only there.
-/

namespace Slice

variable {α κ : Type*}

/-- The search of `partitionPoint` in the indices from `lo` up to `hi`. -/
def bisect (p : α → Bool) (xs : List α) : Nat → Nat → Nat → Nat
  | 0, lo, _ => lo
  | fuel + 1, lo, hi =>
    if lo < hi then
      let mid := lo + (hi - lo) / 2
      if (xs[mid]?).any p then bisect p xs fuel (mid + 1) hi else bisect p xs fuel lo mid
    else lo

/-- Where the elements satisfying `p` end, in a list that has them all in front. -/
def partitionPoint (p : α → Bool) (xs : List α) : Nat :=
  bisect p xs xs.length 0 xs.length

/-- The first `n` elements satisfy `p` and the others do not. -/
def Partitioned (p : α → Bool) (xs : List α) (n : Nat) : Prop :=
  n ≤ xs.length ∧ ∀ i x, xs[i]? = some x → (p x = true ↔ i < n)

theorem bisect_eq (p : α → Bool) (xs : List α) (n : Nat) (parts : Partitioned p xs n)
    (fuel lo hi : Nat) (low : lo ≤ n) (high : n ≤ hi) (inside : hi ≤ xs.length)
    (enough : hi - lo ≤ fuel) : bisect p xs fuel lo hi = n := by
  induction fuel generalizing lo hi with
  | zero =>
    have : lo = n := by omega
    exact this
  | succ fuel ih =>
    simp only [bisect]
    split
    next nonempty =>
      have bound : lo + (hi - lo) / 2 < xs.length := by omega
      have here := parts.2 _ _ (List.getElem?_eq_getElem bound)
      rw [List.getElem?_eq_getElem bound, Option.any_some]
      split
      next holds =>
        have := here.mp holds
        exact ih _ _ (by omega) high inside (by omega)
      next fails =>
        have : n ≤ lo + (hi - lo) / 2 := by
          by_contra above
          exact fails (here.mpr (by omega))
        exact ih _ _ low this (by omega) (by omega)
    next empty => omega

theorem partitionPoint_eq (p : α → Bool) (xs : List α) (n : Nat) (parts : Partitioned p xs n) :
    partitionPoint p xs = n :=
  bisect_eq p xs n parts _ _ _ (Nat.zero_le n) parts.1 (Nat.le_refl _) (Nat.le_refl _)

/-- A list in which `p` only ever turns from true to false is partitioned by it. -/
theorem partitioned_takeWhile (p : α → Bool) (xs : List α)
    (falling : xs.Pairwise fun a b => p b = true → p a = true) :
    Partitioned p xs (xs.takeWhile p).length := by
  induction xs with
  | nil => exact ⟨Nat.le_refl _, by simp⟩
  | cons x xs ih =>
    obtain ⟨first, rest⟩ := List.pairwise_cons.mp falling
    obtain ⟨bound, parts⟩ := ih rest
    cases holds : p x with
    | true =>
      simp only [List.takeWhile_cons, holds, if_true, List.length_cons]
      refine ⟨Nat.succ_le_succ bound, ?_⟩
      intro i y found
      cases i with
      | zero => simp_all
      | succ i =>
        rw [List.getElem?_cons_succ] at found
        simpa using parts i y found
    | false =>
      simp only [List.takeWhile_cons, holds]
      refine ⟨Nat.zero_le _, ?_⟩
      intro i y found
      cases i with
      | zero => simp_all
      | succ i =>
        rw [List.getElem?_cons_succ] at found
        have := first y (List.mem_of_getElem? found)
        simp_all

section Sorted

variable [LinearOrder κ] (key : α → κ)

/-- Keys strictly increase along the list. -/
abbrev Sorted (xs : List α) : Prop := xs.Pairwise fun a b => key a < key b

/-- The index of the element whose key is `k`, if there is one. -/
def binarySearchByKey (k : κ) (xs : List α) : Option Nat :=
  let place := partitionPoint (fun x => decide (key x < k)) xs
  if (xs[place]?).any (fun x => decide (key x = k)) then some place else none

variable {key}

theorem partitionPoint_sorted (k : κ) (xs : List α) (sorted : Sorted key xs) :
    partitionPoint (fun x => decide (key x < k)) xs =
      (xs.takeWhile fun x => decide (key x < k)).length := by
  apply partitionPoint_eq
  apply partitioned_takeWhile
  refine sorted.imp ?_
  intro a b less above
  simp only [decide_eq_true_eq] at above ⊢
  exact lt_trans less above

theorem sorted_getElem_inj {xs : List α} (sorted : Sorted key xs) {i j : Nat} {x y : α}
    (left : xs[i]? = some x) (right : xs[j]? = some y) (same : key x = key y) : i = j := by
  obtain ⟨boundI, rfl⟩ := List.getElem?_eq_some_iff.mp left
  obtain ⟨boundJ, rfl⟩ := List.getElem?_eq_some_iff.mp right
  rcases Nat.lt_trichotomy i j with less | equal | greater
  · exact absurd same (List.pairwise_iff_getElem.mp sorted i j boundI boundJ less).ne
  · exact equal
  · exact absurd same (List.pairwise_iff_getElem.mp sorted j i boundJ boundI greater).ne'

/-- On a sorted list, binary search finds exactly the element with the key asked for. -/
theorem binarySearchByKey_eq_some_iff (k : κ) (xs : List α) (sorted : Sorted key xs)
    (place : Nat) :
    binarySearchByKey key k xs = some place ↔ ∃ x, xs[place]? = some x ∧ key x = k := by
  have falling : xs.Pairwise fun a b =>
      decide (key b < k) = true → decide (key a < k) = true := by
    refine sorted.imp ?_
    intro a b less above
    simp only [decide_eq_true_eq] at above ⊢
    exact lt_trans less above
  obtain ⟨_, parts⟩ := partitioned_takeWhile _ xs falling
  unfold binarySearchByKey
  simp only [partitionPoint_sorted k xs sorted]
  constructor
  · intro found
    split at found
    next hit =>
      simp only [Option.some.injEq] at found
      subst found
      simpa only [Option.any_eq_true, decide_eq_true_eq] using hit
    · cases found
  -- what is below the key stops at the element that has it
  · rintro ⟨x, found, rfl⟩
    have stop : place = (xs.takeWhile fun y => decide (key y < key x)).length := by
      apply Nat.le_antisymm
      · by_contra above
        have bound : (xs.takeWhile fun y => decide (key y < key x)).length < xs.length := by
          have := (List.getElem?_eq_some_iff.mp found).1
          omega
        have element := List.getElem?_eq_getElem bound
        have below := List.pairwise_iff_getElem.mp sorted _ place bound
          (List.getElem?_eq_some_iff.mp found).1 (by omega)
        rw [(List.getElem?_eq_some_iff.mp found).2] at below
        have := (parts _ _ element).mp (by simpa using below)
        omega
      · by_contra below
        have := (parts place x found).mpr (by omega)
        simp only [decide_eq_true_eq, lt_self_iff_false] at this
    rw [← stop, found]
    simp

/-- Inserting a new key at its partition point keeps the list sorted. -/
theorem sorted_insertIdx (y : α) (xs : List α) (sorted : Sorted key xs)
    (absent : ∀ x ∈ xs, key x ≠ key y) :
    Sorted key (xs.insertIdx (xs.takeWhile fun x => decide (key x < key y)).length y) := by
  induction xs with
  | nil => simp
  | cons x xs ih =>
    obtain ⟨first, rest⟩ := List.pairwise_cons.mp sorted
    have fresh : ∀ z ∈ xs, key z ≠ key y := fun z member => absent z (by simp [member])
    by_cases less : key x < key y
    · simp only [List.takeWhile_cons, less, decide_true, if_true, List.length_cons,
        List.insertIdx_succ_cons]
      refine List.pairwise_cons.mpr ⟨?_, ih rest fresh⟩
      intro z member
      rcases List.eq_or_mem_of_mem_insertIdx member with rfl | old
      · exact less
      · exact first z old
    · have above : key y < key x := lt_of_le_of_ne (not_lt.mp less) (absent x (by simp)).symm
      simp only [List.takeWhile_cons, less, decide_false, Bool.false_eq_true, if_false,
        List.length_nil, List.insertIdx_zero]
      refine List.pairwise_cons.mpr ⟨?_, sorted⟩
      intro z member
      rcases List.mem_cons.mp member with rfl | old
      · exact above
      · exact lt_trans above (first z old)

end Sorted

/-- Remove the element at `place`, moving the last one into its place. -/
def swapRemove (xs : List α) (place : Nat) : List α :=
  match xs.getLast? with
  | none => []
  | some last => (xs.set place last).dropLast

theorem swapRemove_perm (xs : List α) (place : Nat) (x : α) (found : xs[place]? = some x) :
    (x :: swapRemove xs place).Perm xs := by
  obtain ⟨bound, rfl⟩ := List.getElem?_eq_some_iff.mp found
  have nonempty : xs ≠ [] := by
    rintro rfl
    simp at bound
  obtain ⟨ys, last, rfl⟩ := (List.eq_nil_or_concat' xs).resolve_left nonempty
  simp only [swapRemove, List.getLast?_concat]
  by_cases inner : place < ys.length
  · rw [List.set_append_left _ _ inner, List.dropLast_concat, List.getElem_append_left inner]
    have split := List.set_eq_take_append_cons_drop (l := ys) (i := place) (a := last)
    rw [if_pos inner] at split
    have whole : ys = ys.take place ++ ys[place] :: ys.drop (place + 1) := by simp
    rw [split]
    calc (ys[place] :: (ys.take place ++ last :: ys.drop (place + 1))).Perm
          (last :: (ys.take place ++ ys[place] :: ys.drop (place + 1))) := by
            refine (List.perm_middle.cons _).trans ((List.Perm.swap _ _ _).trans ?_)
            exact (List.perm_middle.symm).cons _
      _ = last :: ys := by rw [← whole]
      (last :: ys).Perm (ys ++ [last]) := (List.perm_append_singleton _ _).symm
  · have last_place : place = ys.length := by
      simp only [List.length_append, List.length_cons, List.length_nil] at bound
      omega
    subst last_place
    have same : (ys ++ [last]).set ys.length last = ys ++ [last] := by simp
    rw [same, List.dropLast_concat]
    simpa using (List.perm_append_singleton last ys).symm

end Slice
