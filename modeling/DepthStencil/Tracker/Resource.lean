import DepthStencil.Pipeline
import DepthStencil.Tracker.Record

/-! # Operations in the terms of Direct3D

Direct3D speaks of subresources, resource states, views and pipeline states.  The operations here
bring those into the terms of aspects and levels and record the command that results. -/

namespace DepthStencil.Tracker

/-- The aspects that a subresource number speaks of. -/
def subresourceAspects (t : Tracker) (id : ImageId) (subresource : UInt32) :
    Except Rejection (PerAspect Bool) :=
  match t.lookup id with
  | .error e => .error e
  | .ok image =>
    if subresource = Subresource.all then .ok image.planeSet.presence
    else match image.subresourceAspect? subresource with
      | some aspect => .ok (.ofFn fun a => a = aspect)
      | none => .error (.subresourceOutOfRange id subresource)

/-- Moves a subresource, and with it the whole plane, into resource states. -/
def resourceBarrier (t : Tracker) (id : ImageId) (subresource : UInt32)
    (states : ResourceStates) : Outcome (Option Request) :=
  match states.level? with
  | none => (.error (.unsupportedStates states), t)
  | some level =>
    match t.subresourceAspects id subresource with
    | .error e => (.error e, t)
    | .ok aspects =>
      t.record id (.transition (aspects.map fun marked => if marked then some level else none))

/-- Clears the marked aspects within each rectangle in turn. -/
def clearEach (id : ImageId) (aspects : PerAspect Bool) :
    List (Option Rect) → Tracker → Outcome (List Request)
  | [], t => (.ok [], t)
  | rect :: rects, t =>
    match t.record id (.clear aspects rect) with
    | (.error e, t) => (.error e, t)
    | (.ok request?, t) =>
      match clearEach id aspects rects t with
      | (.error e, t) => (.error e, t)
      | (.ok requests, t) => (.ok (request?.toList ++ requests), t)

/-- Clears the aspects of a view named by `flags`, everywhere if there are no rectangles.  Flags
for aspects that the image lacks are ignored. -/
def clearView (t : Tracker) (id : ImageId) (flags : ViewFlags) (rects : List Rect) :
    Outcome (List Request) :=
  match t.lookup id with
  | .error e => (.error e, t)
  | .ok image =>
    let aspects := .ofFn fun a => flags.names a && image.has a
    clearEach id aspects (if rects.isEmpty then [none] else rects.map some) t

/-- Discards a run of subresources.  Only a plane that lies in the run as a whole loses its
contents, and none does if the discard is limited to rectangles. -/
def discardSubresources (t : Tracker) (id : ImageId) (first count : UInt32) (hasRects : Bool) :
    Outcome (Option Request) :=
  match t.lookup id with
  | .error e => (.error e, t)
  | .ok image =>
    let aspects := image.wholePlanes first count
    if hasRects || !aspects.any then (.ok none, t) else t.record id (.discard aspects)

/-- Draws with a pipeline state through a view. -/
def drawPipeline (t : Tracker) (id : ImageId) (pipeline : PipelineState) (view : ViewFlags) :
    Outcome (Option Request) :=
  t.record id (.draw (pipeline.uses view))

end DepthStencil.Tracker
