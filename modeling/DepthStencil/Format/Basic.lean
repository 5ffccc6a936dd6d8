import DepthStencil.Aspect

/-! # Depth-stencil formats

* `PlaneSet`: which aspects an image has.  At least one, so there are three sets.
* `Format`: the seven image formats with a depth or a stencil plane, with the numbers under which
  the two graphics interfaces know them (`Format.code`, `Format.ofDxgi?`). -/

namespace DepthStencil

/-! ### Sets of planes -/

/-- A nonempty set of aspects. -/
inductive PlaneSet where
  | depthOnly
  | stencilOnly
  | depthStencil
deriving DecidableEq, Repr

namespace PlaneSet

/-- Whether the aspect is in the set. -/
def has : PlaneSet → Aspect → Bool
  | depthOnly, .depth => true
  | depthOnly, .stencil => false
  | stencilOnly, .depth => false
  | stencilOnly, .stencil => true
  | depthStencil, _ => true

/-- The set whose only member is the aspect. -/
def single : Aspect → PlaneSet
  | .depth => depthOnly
  | .stencil => stencilOnly

/-- Which aspects are in the set. -/
def presence (s : PlaneSet) : PerAspect Bool := .ofFn s.has

/-- The members in the order in which their planes are numbered. -/
def planes (s : PlaneSet) : List Aspect := Aspect.all.filter s.has

/-- The aspect mask of a barrier on the whole set. -/
def flags : PlaneSet → UInt32
  | depthOnly => Aspect.depth.flag
  | stencilOnly => Aspect.stencil.flag
  | depthStencil => Aspect.depth.flag ||| Aspect.stencil.flag

/-- The values at the members, and `none` elsewhere. -/
def restrict {α : Type} (s : PlaneSet) (p : PerAspect α) : PerAspect (Option α) :=
  .ofFn fun a => if s.has a then some (p.get a) else none

/-- The first marked aspect outside the set. -/
def firstOutside? (s : PlaneSet) (marked : PerAspect Bool) : Option Aspect :=
  Aspect.all.find? fun a => marked.get a && !s.has a

@[simp] theorem has_single (a b : Aspect) : (single a).has b = decide (a = b) := by
  cases a <;> cases b <;> rfl

theorem mem_planes (s : PlaneSet) (a : Aspect) : a ∈ s.planes ↔ s.has a = true := by
  simp [planes, Aspect.mem_all]

end PlaneSet

/-! ### Formats -/

/-- The image formats with a depth or a stencil plane. -/
inductive Format where
  | d16
  | x8d24
  | d32
  | s8
  | d16s8
  | d24s8
  | d32s8
deriving DecidableEq, Repr

namespace Format

/-- All formats, in the order of their codes. -/
def all : List Format := [d16, x8d24, d32, s8, d16s8, d24s8, d32s8]

/-- The number of the format among all image formats. -/
def code : Format → Int
  | d16 => 124
  | x8d24 => 125
  | d32 => 126
  | s8 => 127
  | d16s8 => 128
  | d24s8 => 129
  | d32s8 => 130

/-- The name of the format. -/
def name : Format → String
  | d16 => "D16_UNORM"
  | x8d24 => "X8_D24_UNORM_PACK32"
  | d32 => "D32_SFLOAT"
  | s8 => "S8_UINT"
  | d16s8 => "D16_UNORM_S8_UINT"
  | d24s8 => "D24_UNORM_S8_UINT"
  | d32s8 => "D32_SFLOAT_S8_UINT"

/-- The aspects of an image of this format. -/
def planeSet : Format → PlaneSet
  | d16 | x8d24 | d32 => .depthOnly
  | s8 => .stencilOnly
  | d16s8 | d24s8 | d32s8 => .depthStencil

/-- The depth-stencil format with a code, if the code is one of theirs. -/
def ofCode? (c : Int) : Option Format := all.find? fun f => f.code = c

/-- The format behind a depth-stencil texture in the numbering of DXGI.  A typeless format stands
for the depth format of the same memory layout. -/
def ofDxgi? (c : UInt32) : Option Format :=
  if c = 19 ∨ c = 20 then some d32s8
  else if c = 39 ∨ c = 40 then some d32
  else if c = 44 ∨ c = 45 then some d24s8
  else if c = 53 ∨ c = 55 then some d16
  else none

@[simp] theorem ofCode?_code (f : Format) : ofCode? f.code = some f := by cases f <;> rfl

theorem code_of_ofCode? {c : Int} {f : Format} (h : ofCode? c = some f) : f.code = c := by
  simpa using List.find?_some h

end Format

end DepthStencil
