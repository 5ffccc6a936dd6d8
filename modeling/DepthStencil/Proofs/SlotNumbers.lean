import DepthStencil.Proofs.Identifiers
import Mathlib.Data.Finset.Sort
import Mathlib.Data.Fintype.EquivFin
import Mathlib.Data.Nat.Find

/-! # Slots as a finite set of numbers

Apart from the values that are kept in them, slots are a finite set of natural numbers: the numbers
in use (`Slots.numbers`).  A new value goes to the least number outside the set.  Giving a number up
takes it out of the set, and does nothing if it was not in use.

`Slots.act` says what an operation comes to on slots, and `Slots.Operation.onNumbers` what it comes
to on a set.  One operation has the same reply and leads to the same set on both sides
(`Slots.act_numbers`), and so have any operations one after another
(`Slots.slots_refine_numbers`). -/

namespace DepthStencil

/-- The least number outside a finite set. -/
def leastOutside (numbers : Finset Nat) : Nat := Nat.find (Infinite.exists_notMem_finset numbers)

theorem isLeast_leastOutside (numbers : Finset Nat) :
    IsLeast {n | n ∉ numbers} (leastOutside numbers) := by
  constructor
  · exact Nat.find_spec (Infinite.exists_notMem_finset numbers)
  · intro n hn
    exact Nat.find_min' (Infinite.exists_notMem_finset numbers) hn

namespace Slots

variable {α σ : Type}

/-! ### Operations -/

/-- What can be done with slots. -/
inductive Operation (α : Type) where
  /-- Puts a value at a number of the slots' choice. -/
  | insert (x : α)
  /-- Gives a number up. -/
  | erase (i : Nat)
  | contains (i : Nat)
  | size
  | isEmpty
  | keys
deriving DecidableEq, Repr

/-- What an operation gives back. -/
inductive Reply where
  | done
  | truth (b : Bool)
  | number (i : Nat)
  | numbers (is : List Nat)
deriving DecidableEq, Repr

/-- Carries out an operation.  The reply to a new value is the number it was put at. -/
def act (s : Slots α) : Operation α → Reply × Slots α
  | .insert x => (.number s.firstFree, s.insert x)
  | .erase i => (.done, s.erase i)
  | .contains i => (.truth (s.contains i), s)
  | .size => (.number s.size, s)
  | .isEmpty => (.truth s.isEmpty, s)
  | .keys => (.numbers s.keys, s)

/-- What an operation comes to on a finite set of numbers. -/
def Operation.onNumbers (numbers : Finset Nat) : Operation α → Reply × Finset Nat
  | insert _ => (.number (leastOutside numbers), Insert.insert (leastOutside numbers) numbers)
  | erase i => (.done, numbers.erase i)
  | contains i => (.truth (i ∈ numbers), numbers)
  | size => (.number numbers.card, numbers)
  | isEmpty => (.truth (numbers = ∅), numbers)
  | keys => (.numbers (numbers.sort (· ≤ ·)), numbers)

/-- The replies to operations that are carried out one after another. -/
def replies (act : σ → Operation α → Reply × σ) : σ → List (Operation α) → List Reply
  | _, [] => []
  | s, op :: ops => (act s op).1 :: replies act (act s op).2 ops

/-! ### Numbers in use -/

/-- The numbers in use. -/
def numbers (s : Slots α) : Finset Nat := s.keys.toFinset

theorem mem_numbers {s : Slots α} {i : Nat} : i ∈ s.numbers ↔ s.contains i = true := by
  rw [numbers, List.mem_toFinset, mem_keys]

theorem numbers_empty : (∅ : Slots α).numbers = ∅ := rfl

theorem numbers_insert (s : Slots α) (x : α) :
    (s.insert x).numbers = Insert.insert s.firstFree s.numbers := by
  ext i
  rw [Finset.mem_insert, mem_numbers, mem_numbers, contains_insert]
  by_cases hi : i = s.firstFree
  · simp [hi]
  · simp [hi]

theorem numbers_erase (s : Slots α) (i : Nat) : (s.erase i).numbers = s.numbers.erase i := by
  ext j
  rw [Finset.mem_erase, mem_numbers, mem_numbers, contains_erase]
  by_cases hj : j = i
  · simp [hj]
  · simp [hj]

/-- All numbers below the lowest free one are in use, so it is the least that is not. -/
theorem firstFree_eq_leastOutside (s : Slots α) : s.firstFree = leastOutside s.numbers := by
  refine IsLeast.unique ⟨?_, ?_⟩ (isLeast_leastOutside s.numbers)
  · intro hmem
    rw [mem_numbers, contains, get?_firstFree] at hmem
    exact absurd hmem (by simp)
  · intro n hn
    by_contra hlt
    exact hn (mem_numbers.mpr (contains_of_lt_firstFree (Nat.lt_of_not_le hlt)))

theorem size_eq_card (s : Slots α) : s.size = s.numbers.card := by
  rw [size_eq_length_keys, numbers, List.toFinset_card_of_nodup s.keys_nodup]

theorem isEmpty_eq_decide (s : Slots α) : s.isEmpty = decide (s.numbers = ∅) := by
  have hsize : s.isEmpty = true ↔ s.size = 0 := by simp [isEmpty, size]
  rw [Bool.eq_iff_iff, decide_eq_true_eq, hsize, size_eq_card, Finset.card_eq_zero]

theorem keys_eq_sort (s : Slots α) : s.keys = s.numbers.sort (· ≤ ·) := by
  refine ((List.toFinset_sort (· ≤ ·) s.keys_nodup).mpr ?_).symm
  exact s.keys_pairwise.imp fun h => Nat.le_of_lt h

/-! ### Runs -/

/-- An operation has the same reply on slots and on the numbers in use, and leads to the same
numbers in use. -/
theorem act_numbers (s : Slots α) (op : Operation α) :
    op.onNumbers s.numbers = ((s.act op).1, (s.act op).2.numbers) := by
  cases op with
  | insert x => rw [Operation.onNumbers, act, ← firstFree_eq_leastOutside, numbers_insert]
  | erase i => rw [Operation.onNumbers, act, numbers_erase]
  | contains i =>
      have hmem : decide (i ∈ s.numbers) = s.contains i := by
        rw [Bool.eq_iff_iff, decide_eq_true_eq, mem_numbers]
      rw [Operation.onNumbers, act, hmem]
  | size => rw [Operation.onNumbers, act, size_eq_card]
  | isEmpty => rw [Operation.onNumbers, act, isEmpty_eq_decide]
  | keys => rw [Operation.onNumbers, act, keys_eq_sort]

theorem replies_numbers (s : Slots α) (ops : List (Operation α)) :
    replies Operation.onNumbers s.numbers ops = replies act s ops := by
  induction ops generalizing s with
  | nil => rfl
  | cons op ops ih => rw [replies, replies, act_numbers, ih]

/-- Slots that start out empty behave as a finite set of numbers.  A new value goes to the least
number outside the set and adds it, giving a number up takes it out, and the questions are about the
set: whether a number is in it, how many there are, whether there is any, and which ones in
ascending order. -/
theorem slots_refine_numbers (ops : List (Operation α)) :
    replies act (∅ : Slots α) ops = replies Operation.onNumbers ∅ ops := by
  rw [← numbers_empty (α := α), replies_numbers]

/-- A number that was given up is taken again before any greater one, whether another one was given
up twice or never in use. -/
example : replies act (∅ : Slots Unit)
    [.insert (), .insert (), .insert (), .erase 7, .erase 1, .erase 1, .size, .insert (),
      .insert (), .keys] =
    [.number 0, .number 1, .number 2, .done, .done, .done, .number 2, .number 1, .number 3,
      .numbers [0, 1, 2, 3]] := by
  decide

end Slots

end DepthStencil
