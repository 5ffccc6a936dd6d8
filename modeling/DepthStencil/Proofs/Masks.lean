import DepthStencil.History

/-! # Containment of masks and accesses

A mask contains another one when it has all of its bits (`Mask.contains_iff`), so a union contains
whatever one of its parts contains.  For a single bit the converse holds as well
(`Mask.contains_bit_or`), which is what decides whether a union of dependencies makes attachment
writes available (`Mask.contains_depthStencilWrite_or`). -/

namespace DepthStencil

/-! ### Masks -/

namespace Mask

theorem contains_iff {m n : Mask} : m.contains n = true ↔
    ∀ i, n.toBitVec.getLsbD i = true → m.toBitVec.getLsbD i = true := by
  unfold contains
  rw [beq_iff_eq, ← UInt64.toBitVec_inj, UInt64.toBitVec_and]
  constructor
  · intro h i hi
    rw [← h, BitVec.getLsbD_and, Bool.and_eq_true] at hi
    exact hi.1
  · intro h
    apply BitVec.eq_of_getLsbD_eq
    intro i _
    rw [BitVec.getLsbD_and]
    cases hi : n.toBitVec.getLsbD i with
    | false => exact Bool.and_false _
    | true => rw [h i hi]; rfl

theorem contains_refl (m : Mask) : m.contains m = true := contains_iff.mpr fun _ h => h

theorem contains_or_left {m n : Mask} (k : Mask) (h : m.contains n = true) :
    Mask.contains (m ||| k) n = true := by
  rw [contains_iff] at h ⊢
  intro i hi
  rw [UInt64.toBitVec_or, BitVec.getLsbD_or, h i hi, Bool.true_or]

theorem contains_or_right {m n : Mask} (k : Mask) (h : m.contains n = true) :
    Mask.contains (k ||| m) n = true := by
  rw [UInt64.or_comm]
  exact contains_or_left k h

/-- A single bit is contained in a mask if it is set there. -/
theorem contains_bit {s : Mask} {k : Nat} (hk : k < 64) (hs : s.toBitVec = BitVec.twoPow 64 k)
    {m : Mask} : m.contains s = true ↔ m.toBitVec.getLsbD k = true := by
  rw [contains_iff]
  constructor
  · intro h
    exact h k (by simp [hs, hk])
  · intro h i hi
    rw [hs, BitVec.getLsbD_twoPow] at hi
    simp only [Bool.and_eq_true, decide_eq_true_eq] at hi
    rwa [← hi.2]

theorem contains_bit_or {s : Mask} {k : Nat} (hk : k < 64)
    (hs : s.toBitVec = BitVec.twoPow 64 k) (m n : Mask) :
    Mask.contains (m ||| n) s = true ↔ m.contains s = true ∨ n.contains s = true := by
  simp only [contains_bit hk hs, UInt64.toBitVec_or, BitVec.getLsbD_or, Bool.or_eq_true]

/-- The attachment write is a single bit. -/
theorem contains_depthStencilWrite_or (m n : Mask) :
    Mask.contains (m ||| n) AccessKind.depthStencilWrite = true ↔
      m.contains AccessKind.depthStencilWrite = true ∨
        n.contains AccessKind.depthStencilWrite = true :=
  contains_bit_or (k := 10) (by decide) (by decide) m n

end Mask

/-! ### Accesses -/

namespace Access

theorem or_comm (a b : Access) : a ||| b = b ||| a :=
  Access.ext (UInt64.or_comm a.stages b.stages) (UInt64.or_comm a.kinds b.kinds)

theorem or_assoc (a b c : Access) : a ||| b ||| c = a ||| (b ||| c) :=
  Access.ext (UInt64.or_assoc a.stages b.stages c.stages) (UInt64.or_assoc a.kinds b.kinds c.kinds)

@[simp] theorem or_none (a : Access) : a ||| none = a := Access.ext UInt64.or_zero UInt64.or_zero

@[simp] theorem none_or (a : Access) : none ||| a = a := by rw [or_comm, or_none]

theorem contains_refl (a : Access) : a.contains a = true := by
  rw [contains, Mask.contains_refl, Mask.contains_refl]; rfl

theorem contains_or_left {a b : Access} (c : Access) (h : a.contains b = true) :
    (a ||| c).contains b = true := by
  unfold contains at h ⊢
  rw [Bool.and_eq_true] at h ⊢
  exact ⟨Mask.contains_or_left c.stages h.1, Mask.contains_or_left c.kinds h.2⟩

theorem contains_or_right {a b : Access} (c : Access) (h : a.contains b = true) :
    (c ||| a).contains b = true := by
  rw [or_comm]
  exact contains_or_left c h

end Access

namespace Dependency

theorem or_comm (d e : Dependency) : d ||| e = e ||| d :=
  Dependency.ext (Access.or_comm d.src e.src) (Access.or_comm d.dst e.dst)

@[simp] theorem or_empty (d : Dependency) : d ||| empty = d :=
  Dependency.ext (Access.or_none d.src) (Access.or_none d.dst)

@[simp] theorem empty_or (d : Dependency) : empty ||| d = d := by rw [or_comm, or_empty]

end Dependency

end DepthStencil
