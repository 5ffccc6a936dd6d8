import DepthStencil.Hex
import DepthStencil.Level

/-! # Resource states

Direct3D describes what a subresource is used for by a set of flags (`ResourceStates`).  Three
kinds of set are meaningful for a depth-stencil texture: none of the flags, the depth-write flag on
its own, and any choice of the flags for reading. -/

namespace DepthStencil

/-- A set of resource state flags. -/
abbrev ResourceStates := UInt32

namespace ResourceStates

/-- The flags with a name, from the lowest bit up. -/
def flagNames : List String :=
  ["VERTEX_AND_CONSTANT_BUFFER", "INDEX_BUFFER", "RENDER_TARGET", "UNORDERED_ACCESS",
    "DEPTH_WRITE", "DEPTH_READ", "NON_PIXEL_SHADER_RESOURCE", "PIXEL_SHADER_RESOURCE",
    "STREAM_OUT", "INDIRECT_ARGUMENT", "COPY_DEST", "COPY_SOURCE", "RESOLVE_DEST",
    "RESOLVE_SOURCE"]

def depthWrite : ResourceStates := 0x10
def depthRead : ResourceStates := 0x20
def nonPixelShader : ResourceStates := 0x40
def pixelShader : ResourceStates := 0x80
def copySource : ResourceStates := 0x800
def resolveSource : ResourceStates := 0x2000

/-- The flags for reading that a depth-stencil texture may combine. -/
def reads : ResourceStates :=
  depthRead ||| nonPixelShader ||| pixelShader ||| copySource ||| resolveSource

/-- The level of an aspect whose subresources are in the given states, if they have one. -/
def level? (states : ResourceStates) : Option Level :=
  if states = 0 then some .readOnly
  else if states = depthWrite then some .writable
  else if reads &&& states = states then some .readOnly
  else none

/-! ### Text -/

/-- The names of the flags that are set, in ascending order of their bits. -/
def setNames (states : ResourceStates) : List String :=
  flagNames.zipIdx.filterMap fun (name, bit) =>
    if states.toNat.testBit bit then some name else none

/-- The part of the set that has no names. -/
def unnamed (states : ResourceStates) : Nat :=
  states.toNat >>> flagNames.length <<< flagNames.length

/-- The set as text: the names that are set, then the bits without a name as one number. -/
def text (states : ResourceStates) : String :=
  let rest := if states.unnamed ≠ 0 ∨ states = 0 then [hex states.unnamed] else []
  "ResourceStates(" ++ " | ".intercalate (states.setNames ++ rest) ++ ")"

end ResourceStates

end DepthStencil
