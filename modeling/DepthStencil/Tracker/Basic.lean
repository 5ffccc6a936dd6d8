import DepthStencil.Pass
import DepthStencil.Policy
import DepthStencil.Registry
import DepthStencil.Rejection

/-! # Trackers

A `Tracker` follows the layouts of depth-stencil images through the recording of commands.  It
holds a policy, the registry of images, the render pass that is open, if any, and counters.

An operation that may be rejected returns its outcome together with the tracker afterwards
(`Outcome`), so that what a rejected operation leaves behind can be seen. -/

namespace DepthStencil

/-- Counters over the life of a tracker. -/
structure Stats where
  /-- The requests handed to the caller. -/
  transitions : Nat := 0
  /-- The image barriers in those requests. -/
  imageBarriers : Nat := 0
  /-- The passes begun. -/
  passes : Nat := 0
  /-- The passes that ended because a command on the same image needed other layouts. -/
  splits : Nat := 0
  /-- The commands recorded into a pass that was already open. -/
  folded : Nat := 0
  /-- The aspects that gave up writing. -/
  decays : Nat := 0
deriving DecidableEq, Repr

/-- The state of a recording. -/
structure Tracker where
  policy : Policy
  registry : Registry
  pass? : Option Pass
  stats : Stats
deriving DecidableEq, Repr

/-- What an operation that may be rejected comes to, and the tracker afterwards. -/
abbrev Outcome (α : Type) := Except Rejection α × Tracker

namespace Tracker

/-- A tracker without images. -/
def empty (policy : Policy) : Tracker := ⟨policy, ∅, none, {}⟩

/-- What is believed of an image. -/
def image? (t : Tracker) (id : ImageId) : Option TrackedImage := t.registry.get? id

/-- What is believed of an image, or the rejection of an identifier that names none. -/
def lookup (t : Tracker) (id : ImageId) : Except Rejection TrackedImage :=
  match t.image? id with
  | some image => .ok image
  | none => .error (.untracked id)

/-- Ends the open pass. -/
def closePass (t : Tracker) : Tracker :=
  match t.pass? with
  | none => t
  | some p =>
    { t with registry := t.registry.modify p.image TrackedImage.endPass, pass? := none }

/-- Ends the open pass if it is one on the given image. -/
def closePassOn (t : Tracker) (id : ImageId) : Tracker :=
  if Pass.isOpenOn t.pass? id then t.closePass else t

/-! ### Registration -/

/-- Starts tracking an image. -/
def register (t : Tracker) (info : Registration) : Outcome ImageId :=
  match Format.ofCode? info.format with
  | none => (.error (.notDepthStencil info.format), t)
  | some format =>
    (.ok t.registry.nextId, { t with registry := t.registry.insert (.ofRegistration info format) })

/-- Stops tracking an image and ends the pass open on it. -/
def unregister (t : Tracker) (id : ImageId) : Outcome TrackedImage :=
  let t := t.closePassOn id
  match t.lookup id with
  | .error e => (.error e, t)
  | .ok image => (.ok image, { t with registry := t.registry.erase id })

/-- Overwrites the levels believed of an image and ends the pass open on it. -/
def seed (t : Tracker) (id : ImageId) (levels : PerAspect Level) : Outcome Unit :=
  let t := t.closePassOn id
  match t.lookup id with
  | .error e => (.error e, t)
  | .ok _ => (.ok (), { t with registry := t.registry.modify id fun image => image.seed levels })

end Tracker

end DepthStencil
