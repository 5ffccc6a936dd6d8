import DepthStencil.Rejection
import DepthStencil.TrackedImage.Basic

/-! # Accepting commands

Before a command is recorded against an image it is checked against the aspects of that image and
brought into a normal form (`TrackedImage.accept`).

* A draw loses its uses of aspects that the image lacks.
* A clear, discard or transition that names such an aspect is rejected, depth first.
* A clear or discard that names no aspect, and a clear that reaches no texel, touch nothing.
* The rectangle of a clear is cut to the image. -/

namespace DepthStencil

/-- A command in normal form. -/
structure Accepted where
  command : Command
  /-- Whether the command is a clear that reaches every texel. -/
  coversImage : Bool
deriving DecidableEq, Repr

namespace TrackedImage

/-- The normal form of a clear of some aspects, or `none` if it reaches no texel. -/
def acceptClear (image : TrackedImage) (aspects : PerAspect Bool) (rect : Option Rect) :
    Option Accepted :=
  match rect with
  | none => some ⟨.clear aspects none, true⟩
  | some r => (r.clip? image.extent).map fun clipped =>
    ⟨.clear aspects (some clipped), clipped.covers image.extent⟩

/-- The normal form of a command that names only aspects of the image, or `none` if the command
touches nothing. -/
def normalize (image : TrackedImage) : Command → Option Accepted
  | .draw uses => some ⟨.draw (.ofFn fun a => (uses.get a).mask (image.has a)), false⟩
  | .clear aspects rect => if aspects.any then image.acceptClear aspects rect else none
  | .discard aspects => if aspects.any then some ⟨.discard aspects, false⟩ else none
  | .transition targets => some ⟨.transition targets, false⟩

/-- The aspect for which a command is rejected, if any.  Draws may name any aspect. -/
def missing? (image : TrackedImage) : Command → Option Aspect
  | .draw _ => none
  | command => image.planeSet.firstOutside? command.named

/-- Checks a command against the image tracked as `id` and brings it into normal form. -/
def accept (image : TrackedImage) (id : ImageId) (command : Command) :
    Except Rejection (Option Accepted) :=
  match image.missing? command with
  | some a => .error (.missingAspect id a)
  | none => .ok (image.normalize command)

end TrackedImage

end DepthStencil
