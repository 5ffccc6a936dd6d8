import DepthStencil.Format.Names
import DepthStencil.ImageId
import DepthStencil.ResourceState

/-! # Rejections

A tracker rejects a call for one of five reasons (`Rejection`).  `Rejection.message` words them. -/

namespace DepthStencil

/-- Why a call was rejected. -/
inductive Rejection where
  /-- The identifier names no tracked image. -/
  | untracked (id : ImageId)
  /-- The format has neither a depth nor a stencil plane. -/
  | notDepthStencil (format : Int)
  /-- The command names an aspect that the image lacks. -/
  | missingAspect (id : ImageId) (aspect : Aspect)
  /-- The subresource lies past the last plane of the image. -/
  | subresourceOutOfRange (id : ImageId) (subresource : UInt32)
  /-- No level of a depth-stencil aspect belongs to the resource states. -/
  | unsupportedStates (states : ResourceStates)
deriving DecidableEq, Repr

/-- The message that reports a rejection. -/
def Rejection.message : Rejection → String
  | untracked id => "resource " ++ id.text ++ " is not tracked"
  | notDepthStencil format => formatText format ++ " is not a depth-stencil format"
  | missingAspect id aspect => "resource " ++ id.text ++ " has no " ++ aspect.name ++ " aspect"
  | subresourceOutOfRange id subresource =>
    "subresource " ++ subresource.toNat.repr ++ " is out of range for resource " ++ id.text
  | unsupportedStates states =>
    "resource state " ++ states.text ++ " has no depth-stencil layout"

end DepthStencil
