import DepthStencil.Format.Basic

/-! # Subresource numbering

The subresources of an image are numbered plane after plane: mip levels within an array layer,
layers within a plane, and the depth plane before the stencil plane.  All subresources of a plane
share the level of its aspect.

A plane may hold up to `(2 ^ 32 - 1) ^ 2` subresources, which fits a 64-bit word.  Sums and
products that would not fit stay at the greatest word. -/

namespace DepthStencil.Subresource

/-- The number that stands for all subresources. -/
def all : UInt32 := 0xffffffff

/-- The greatest 64-bit word. -/
def maxWord : Nat := 0xffffffffffffffff

/-- The sum of two words, or the greatest word if that is less. -/
def boundedAdd (m n : UInt64) : UInt64 := .ofNat (min (m.toNat + n.toNat) maxWord)

/-- The product of two words, or the greatest word if that is less. -/
def boundedMul (m n : UInt64) : UInt64 := .ofNat (min (m.toNat * n.toNat) maxWord)

/-- The number of subresources in a plane. -/
def perPlane (mipLevels arrayLayers : UInt32) : UInt64 := mipLevels.toUInt64 * arrayLayers.toUInt64

/-- The aspect that a subresource belongs to, in planes of `size` subresources each. -/
def aspect? (planes : PlaneSet) (size : UInt64) (subresource : UInt32) : Option Aspect :=
  if size = 0 then none else planes.planes[(subresource.toUInt64 / size).toNat]?

/-- The number just past a run of `count` subresources.  A run of `all` has no end. -/
def runEnd (first count : UInt32) : UInt64 :=
  if count = all then .ofNat maxWord else first.toUInt64 + count.toUInt64

/-- Whether a run of subresources takes in the whole plane with the given number. -/
def runCovers (size : UInt64) (first count : UInt32) (plane : Nat) : Bool :=
  let start := boundedMul (.ofNat plane) size
  first.toUInt64 ≤ start && boundedAdd start size ≤ runEnd first count

/-- The aspects whose planes a run of subresources takes in as a whole. -/
def wholePlanes (planes : PlaneSet) (size : UInt64) (first count : UInt32) : PerAspect Bool :=
  .ofFn fun a => planes.has a && runCovers size first count (planes.planes.idxOf a)

end DepthStencil.Subresource
