import DepthStencil.ImageLayout

/-! # Policies

A `Policy` fixes how a tracker lays levels out and when it relaxes them.  Write layouts never relax
unasked: an aspect stays writable until a transition says otherwise, or until the recording is
finished and the policy wants writable aspects back at the resting level. -/

namespace DepthStencil

/-- The choices a tracker is made with. -/
structure Policy where
  /-- How levels map onto layouts. -/
  scheme : LayoutScheme := .shared
  /-- Whether finishing a recording relaxes writable aspects. -/
  relaxOnFinish : Bool := true
  /-- The level at which aspects rest between recordings. -/
  resting : Level := .readOnly
  /-- Whether a clear of the whole image may drop the contents of the cleared aspects. -/
  discardOnFullClear : Bool := true
deriving DecidableEq, Repr

namespace Policy

instance : Inhabited Policy := ⟨{}⟩

/-- The policy for a device, by its feature word for separate layouts.  Only 1 means supported. -/
def ofFeature (separateLayouts : UInt32) : Policy :=
  { scheme := if separateLayouts = 1 then .separate else .shared }

/-- The target of an aspect at the end of a recording. -/
def restTarget (policy : Policy) (level : Option Level) : Option Level :=
  if level = some .writable then some policy.resting else none

/-- The targets that bring an image to rest at the end of a recording, or `none` if nothing has to
move.  Aspects the format lacks are `none` in `levels`. -/
def restTargets? (policy : Policy) (levels : PerAspect (Option Level)) :
    Option (PerAspect (Option Level)) :=
  let targets := levels.map policy.restTarget
  if policy.relaxOnFinish && policy.resting ≠ .writable && (targets.map Option.isSome).any then
    some targets
  else none

end Policy

end DepthStencil
