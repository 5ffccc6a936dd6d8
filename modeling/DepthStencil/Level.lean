import DepthStencil.Aspect

/-! # Levels of use

The tracked state of an aspect is the *level* of use it is ready for.  Levels are ordered by what
they permit: an aspect at a level serves every use that asks for that level or a lower one.

* `undefined`: contents and layout are unknown, and a move away from it may drop the contents;
* `readOnly`: the aspect may be sampled and tested;
* `writable`: the aspect may also be written as an attachment. -/

namespace DepthStencil

/-- What an aspect is ready for. -/
inductive Level where
  | undefined
  | readOnly
  | writable
deriving DecidableEq, Repr

namespace Level

/-- The place of a level in the order of permission. -/
def rank : Level → Nat
  | undefined => 0
  | readOnly => 1
  | writable => 2

instance : LE Level := ⟨fun l m => l.rank ≤ m.rank⟩

instance (l m : Level) : Decidable (l ≤ m) := inferInstanceAs (Decidable (l.rank ≤ m.rank))

instance : Max Level := ⟨fun l m => if l ≤ m then m else l⟩

instance : Inhabited Level := ⟨undefined⟩

/-- Whether anything is known of the aspect. -/
def isDefined : Level → Bool
  | undefined => false
  | readOnly => true
  | writable => true

/-- Whether the aspect may be written. -/
def isWritable : Level → Bool
  | undefined => false
  | readOnly => false
  | writable => true

/-- Whether a move between two levels gives up writing. -/
def relaxes (before after : Level) : Bool := before.isWritable && !after.isWritable

/-- The name of the level in descriptions. -/
def name : Level → String
  | undefined => "Undefined"
  | readOnly => "ReadOnly"
  | writable => "Writable"

theorem le_refl (l : Level) : l ≤ l := Nat.le_refl l.rank

theorem le_trans {l m n : Level} (h : l ≤ m) (h' : m ≤ n) : l ≤ n := Nat.le_trans h h'

theorem le_total (l m : Level) : l ≤ m ∨ m ≤ l := Nat.le_total l.rank m.rank

theorem eq_of_le_of_le {l m : Level} (h : l ≤ m) (h' : m ≤ l) : l = m := by
  revert h h'; cases l <;> cases m <;> decide

theorem eq_writable_of_le {l : Level} (h : writable ≤ l) : l = writable := by
  revert h; cases l <;> decide

theorem max_le_iff {l m n : Level} : max l m ≤ n ↔ l ≤ n ∧ m ≤ n := by
  revert n; cases l <;> cases m <;> intro n <;> cases n <;> decide

theorem max_eq_left {l m : Level} (h : m ≤ l) : max l m = l := by
  revert h; cases l <;> cases m <;> decide

/-- The maximum of some levels is the least one above all of them. -/
theorem foldl_max_le_iff {ls : List Level} {l m : Level} :
    ls.foldl max l ≤ m ↔ l ≤ m ∧ ∀ k ∈ ls, k ≤ m := by
  induction ls generalizing l with
  | nil => simp
  | cons k ls ih => rw [List.foldl_cons, ih, max_le_iff, List.forall_mem_cons, and_assoc]

theorem relaxes_eq_false_of_le {l m : Level} (h : l ≤ m) : l.relaxes m = false := by
  revert h; cases l <;> cases m <;> decide

end Level

end DepthStencil
