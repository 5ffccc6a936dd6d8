import DepthStencil.Command
import DepthStencil.History
import DepthStencil.Subresource

/-! # Tracked images

`TrackedImage` is what is believed of one image: the level and the history of each aspect, and which
aspects the open render pass has written.  An aspect that the format lacks stays undefined and has
no history, whatever is claimed of it (`TrackedImage.seed`). -/

namespace DepthStencil

/-- An image as it enters tracking. -/
structure Registration where
  handle : UInt64
  /-- The number of the format. -/
  format : Int
  extent : Extent
  mipLevels : UInt32 := 1
  arrayLayers : UInt32 := 1
  /-- The level each aspect is known to be at. -/
  initial : PerAspect Level := .both .undefined
deriving DecidableEq, Repr

/-- What is believed of one image. -/
structure TrackedImage where
  handle : UInt64
  format : Format
  extent : Extent
  mipLevels : UInt32
  arrayLayers : UInt32
  levels : PerAspect Level
  histories : PerAspect History
  /-- The aspects written inside the pass open on the image. -/
  pendingWrites : PerAspect Bool
deriving DecidableEq, Repr

namespace TrackedImage

/-- The aspects of the image. -/
def planeSet (image : TrackedImage) : PlaneSet := image.format.planeSet

/-- Whether the image has an aspect. -/
def has (image : TrackedImage) (a : Aspect) : Bool := image.planeSet.has a

/-- The levels of the aspects the image has. -/
def presentLevels (image : TrackedImage) : PerAspect (Option Level) :=
  image.planeSet.restrict image.levels

/-- Believes the given levels from now on.  No access is pending or on record. -/
def seed (image : TrackedImage) (levels : PerAspect Level) : TrackedImage :=
  let known := .ofFn fun a => if image.has a then levels.get a else .undefined
  { image with
    levels := known
    histories := known.map History.ofLevel
    pendingWrites := .both false }

/-- The record of an image of a depth-stencil format.  Counts of zero stand for one. -/
def ofRegistration (info : Registration) (format : Format) : TrackedImage :=
  seed
    { handle := info.handle
      format
      extent := info.extent
      mipLevels := max info.mipLevels 1
      arrayLayers := max info.arrayLayers 1
      levels := .both .undefined
      histories := .both .empty
      pendingWrites := .both false }
    info.initial

/-- Adds to the aspects written inside the open pass. -/
def markWritten (image : TrackedImage) (writes : PerAspect Bool) : TrackedImage :=
  { image with pendingWrites := image.pendingWrites.union writes }

/-- Forgets what the open pass has written, as when it ends. -/
def endPass (image : TrackedImage) : TrackedImage := { image with pendingWrites := .both false }

/-! ### Subresources -/

/-- The number of subresources in each plane. -/
def subresourcesPerPlane (image : TrackedImage) : UInt64 :=
  Subresource.perPlane image.mipLevels image.arrayLayers

/-- The aspect that a subresource belongs to. -/
def subresourceAspect? (image : TrackedImage) (subresource : UInt32) : Option Aspect :=
  Subresource.aspect? image.planeSet image.subresourcesPerPlane subresource

/-- The aspects whose planes a run of subresources takes in as a whole. -/
def wholePlanes (image : TrackedImage) (first count : UInt32) : PerAspect Bool :=
  Subresource.wholePlanes image.planeSet image.subresourcesPerPlane first count

end TrackedImage

end DepthStencil
