/-! # Aspects of a depth-stencil image

A depth-stencil image has up to two planes of data, its *aspects*.  Whatever is tracked is
tracked for each aspect on its own, so most values of this library come in pairs.

* `Aspect`: depth or stencil, with the bit that names it in a barrier.
* `PerAspect α`: a value for each aspect.  It is read with `get` and built with `ofFn`, and two
  pairs are equal as soon as they agree at each aspect (`PerAspect.ext_get`). -/

namespace DepthStencil

/-- One of the two planes of a depth-stencil image. -/
inductive Aspect where
  | depth
  | stencil
deriving DecidableEq, Repr

namespace Aspect

/-- Both aspects, depth first. -/
def all : List Aspect := [depth, stencil]

/-- The aspect that may share the image with this one. -/
def other : Aspect → Aspect
  | depth => stencil
  | stencil => depth

/-- The bit that names the aspect in the aspect mask of a barrier. -/
def flag : Aspect → UInt32
  | depth => 0x2
  | stencil => 0x4

/-- The name of the aspect in messages. -/
def name : Aspect → String
  | depth => "depth"
  | stencil => "stencil"

theorem mem_all (a : Aspect) : a ∈ all := by cases a <;> simp [all]

end Aspect

/-- A value for each of the two aspects. -/
@[ext] structure PerAspect (α : Type) where
  depth : α
  stencil : α
deriving DecidableEq, Repr

namespace PerAspect

variable {α β : Type}

/-- The value at an aspect. -/
def get (p : PerAspect α) : Aspect → α
  | .depth => p.depth
  | .stencil => p.stencil

/-- The pair whose value at each aspect is given by `f`. -/
def ofFn (f : Aspect → α) : PerAspect α := ⟨f .depth, f .stencil⟩

/-- The pair with the same value at both aspects. -/
def both (x : α) : PerAspect α := ⟨x, x⟩

/-- Applies `f` to the value at each aspect. -/
def map (f : α → β) (p : PerAspect α) : PerAspect β := ofFn fun a => f (p.get a)

/-- The number of aspects whose value satisfies `q`. -/
def count (q : α → Bool) (p : PerAspect α) : Nat := Aspect.all.countP fun a => q (p.get a)

/-- Whether some aspect is marked. -/
def any (p : PerAspect Bool) : Bool := p.depth || p.stencil

/-- The aspects marked in `p` or in `q`. -/
def union (p q : PerAspect Bool) : PerAspect Bool := ofFn fun a => p.get a || q.get a

instance [Inhabited α] : Inhabited (PerAspect α) := ⟨both default⟩

@[simp] theorem get_ofFn (f : Aspect → α) (a : Aspect) : (ofFn f).get a = f a := by
  cases a <;> rfl

@[simp] theorem get_both (x : α) (a : Aspect) : (both x).get a = x := by cases a <;> rfl

@[simp] theorem get_map (f : α → β) (p : PerAspect α) (a : Aspect) :
    (p.map f).get a = f (p.get a) := by simp [map]

@[simp] theorem get_union (p q : PerAspect Bool) (a : Aspect) :
    (p.union q).get a = (p.get a || q.get a) := by simp [union]

theorem any_of_get {p : PerAspect Bool} {a : Aspect} (h : p.get a = true) : p.any = true := by
  cases a with
  | depth => exact Bool.or_eq_true_iff.mpr (.inl h)
  | stencil => exact Bool.or_eq_true_iff.mpr (.inr h)

theorem count_eq (q : α → Bool) (p : PerAspect α) :
    p.count q = (if q (p.get .depth) then 1 else 0) + if q (p.get .stencil) then 1 else 0 := by
  simp only [count, Aspect.all, List.countP_cons, List.countP_nil]
  omega

theorem ext_get {p q : PerAspect α} (h : ∀ a, p.get a = q.get a) : p = q :=
  PerAspect.ext (h .depth) (h .stencil)

end PerAspect

end DepthStencil
