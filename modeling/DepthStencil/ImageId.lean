/-! # Image identifiers

A tracked image is named by the slot it is kept in and by the generation of that slot.  The
generation goes up whenever the slot is given up, so an identifier kept too long names nothing
instead of the next image in the same slot.  It starts over after all 32-bit numbers. -/

namespace DepthStencil

/-- Names a tracked image. -/
structure ImageId where
  index : Nat
  generation : UInt32
deriving DecidableEq, Repr

/-- The text of an identifier. -/
def ImageId.text (id : ImageId) : String :=
  "#" ++ id.index.repr ++ "v" ++ id.generation.toNat.repr

end DepthStencil
