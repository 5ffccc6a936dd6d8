/-! # Slots

`Slots α` keeps values at small natural numbers.  A new value goes to the lowest free number
(`Slots.firstFree`), so numbers are used again after their value is erased.

Seen through `get?`, `insert` defines one number, `erase` undefines one, and no other changes. -/

namespace DepthStencil

/-- Values at natural numbers, with gaps. -/
structure Slots (α : Type) where
  entries : List (Option α)
deriving DecidableEq, Repr

namespace Slots

variable {α : Type}

instance : EmptyCollection (Slots α) := ⟨⟨[]⟩⟩

/-- The value at a number. -/
def get? (s : Slots α) (i : Nat) : Option α := s.entries[i]?.join

/-- Whether there is a value at the number. -/
def contains (s : Slots α) (i : Nat) : Bool := (s.get? i).isSome

/-- The lowest number without a value. -/
def firstFree (s : Slots α) : Nat := s.entries.findIdx Option.isNone

/-- Puts a value at the lowest free number. -/
def insert (s : Slots α) (x : α) : Slots α :=
  if s.firstFree < s.entries.length then ⟨s.entries.set s.firstFree (some x)⟩
  else ⟨s.entries ++ [some x]⟩

/-- Frees a number. -/
def erase (s : Slots α) (i : Nat) : Slots α := ⟨s.entries.set i none⟩

/-- The numbers that have a value, in ascending order. -/
def keys (s : Slots α) : List Nat :=
  s.entries.zipIdx.filterMap fun (entry, i) => if entry.isSome then some i else none

/-- The number of values. -/
def size (s : Slots α) : Nat := s.entries.countP Option.isSome

/-- Whether there is no value at all. -/
def isEmpty (s : Slots α) : Bool := !s.entries.any Option.isSome

/-! ### Through `get?` -/

theorem get?_of_length_le {s : Slots α} {i : Nat} (h : s.entries.length ≤ i) : s.get? i = none := by
  simp [get?, List.getElem?_eq_none h]

theorem firstFree_le (s : Slots α) : s.firstFree ≤ s.entries.length := List.findIdx_le_length

theorem firstFree_eq_length {s : Slots α} (h : ¬ s.firstFree < s.entries.length) :
    s.firstFree = s.entries.length := Nat.le_antisymm s.firstFree_le (Nat.le_of_not_lt h)

theorem get?_firstFree (s : Slots α) : s.get? s.firstFree = none := by
  rcases Nat.lt_or_ge s.firstFree s.entries.length with h | h
  · have hfree : s.entries[s.firstFree].isNone = true := List.findIdx_getElem (w := h)
    simpa [get?, h] using hfree
  · exact get?_of_length_le h

theorem contains_of_lt_firstFree {s : Slots α} {i : Nat} (h : i < s.firstFree) :
    s.contains i = true := by
  have hlen : i < s.entries.length := Nat.lt_of_lt_of_le h s.firstFree_le
  have htaken := List.not_of_lt_findIdx h
  cases he : s.entries[i] <;> simp_all [contains, get?]

@[simp] theorem get?_insert (s : Slots α) (x : α) (i : Nat) :
    (s.insert x).get? i = if i = s.firstFree then some x else s.get? i := by
  unfold insert
  split
  · rename_i h
    by_cases hi : i = s.firstFree
    · subst hi; simp [get?, h]
    · simp [get?, hi, List.getElem?_set_ne (Ne.symm hi)]
  · rename_i h
    have hfree := firstFree_eq_length h
    by_cases hi : i = s.firstFree
    · subst hi; simp [get?, hfree]
    · rcases Nat.lt_or_ge i s.entries.length with hlt | hge
      · simp [get?, hi, List.getElem?_append_left hlt]
      · have hlen : (s.entries ++ [some x]).length ≤ i := by
          rw [List.length_append, List.length_singleton]; omega
        rw [if_neg hi, get?_of_length_le hge]
        exact get?_of_length_le hlen

@[simp] theorem get?_erase (s : Slots α) (i j : Nat) :
    (s.erase i).get? j = if j = i then none else s.get? j := by
  by_cases h : j = i
  · subst h
    by_cases hj : j < s.entries.length <;> simp [erase, get?, hj]
  · simp [erase, get?, h, List.getElem?_set_ne (Ne.symm h)]

theorem contains_insert (s : Slots α) (x : α) (i : Nat) :
    (s.insert x).contains i = if i = s.firstFree then true else s.contains i := by
  rw [contains, get?_insert]
  split <;> rfl

theorem contains_erase (s : Slots α) (i j : Nat) :
    (s.erase i).contains j = if j = i then false else s.contains j := by
  rw [contains, get?_erase]
  split <;> rfl

/-- There is an entry for every number that was ever used. -/
theorem length_insert (s : Slots α) (x : α) :
    (s.insert x).entries.length = max s.entries.length (s.firstFree + 1) := by
  unfold insert
  split
  · rename_i h
    rw [List.length_set, Nat.max_eq_left h]
  · rename_i h
    rw [List.length_append, List.length_singleton, firstFree_eq_length h,
      Nat.max_eq_right (Nat.le_succ _)]

/-- Another entry is only made when no number below the end is free. -/
theorem length_insert_le (s : Slots α) (x : α) :
    (s.insert x).entries.length ≤ max s.entries.length (s.insert x).size := by
  unfold insert
  split
  · rw [List.length_set]
    exact Nat.le_max_left _ _
  · rename_i h
    have hused : ∀ entry ∈ s.entries, Option.isSome entry = true := by
      intro entry hentry
      have hnot := List.findIdx_eq_length.mp (firstFree_eq_length h) entry hentry
      simpa using hnot
    have hsize : (s.entries ++ [some x]).countP Option.isSome = (s.entries ++ [some x]).length := by
      rw [List.countP_append, List.countP_eq_length.mpr hused, List.length_append]
      rfl
    exact Nat.le_trans (Nat.le_of_eq hsize.symm) (Nat.le_max_right _ _)

end Slots

end DepthStencil
