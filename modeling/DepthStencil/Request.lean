import DepthStencil.Command
import DepthStencil.ImageLayout
import DepthStencil.ImageId

/-! # Transition requests

Changes of level become changes of layout (`LayoutScheme.steps`).  With separate layouts each
changed aspect makes a step of its own, and with a shared layout all aspects move in one step.  No
step leads into the undefined layout, since forgetting an aspect costs nothing, and no step leads
from a layout to itself.

A step whose old layout is undefined drops the contents of its aspects.  A shared layout may do so
only if every aspect of the image is willing to lose its contents.

A `Request` asks the caller to record the image barriers of such steps before a command. -/

namespace DepthStencil

/-! ### Steps between layouts -/

/-- A change of layout of some aspects of an image. -/
structure LayoutStep where
  planes : PlaneSet
  oldLayout : ImageLayout
  newLayout : ImageLayout
deriving DecidableEq, Repr

/-- The step between two layouts, if one is needed. -/
def LayoutStep.between? (planes : PlaneSet) (old new : ImageLayout) : Option LayoutStep :=
  if new = .undefined ∨ old = new then none else some ⟨planes, old, new⟩

/-- The step of one aspect with a layout of its own. -/
def Change.step? (c : Change) (a : Aspect) : Option LayoutStep :=
  LayoutStep.between? (.single a) (if c.discards then .undefined else c.source.layout a)
    (c.target.layout a)

/-- Whether an aspect is willing to lose its contents in a move it is part of. -/
def Level.yields (level : Level) : Option Change → Bool
  | some c => c.discards
  | none => !level.isDefined

/-- The step of a layout shared by the aspects in `planes`. -/
def PlaneSet.step? (planes : PlaneSet) (levels : PerAspect Level)
    (changes : PerAspect (Option Change)) : Option LayoutStep :=
  let dropsAll := planes.planes.all fun a => (levels.get a).yields (changes.get a)
  LayoutStep.between? planes (if dropsAll then .undefined else .shared (planes.restrict levels))
    (.shared (planes.restrict (levelsAfter levels changes)))

/-- The changes of layout that implement some changes of level. -/
def LayoutScheme.steps (scheme : LayoutScheme) (planes : PlaneSet) (levels : PerAspect Level)
    (changes : PerAspect (Option Change)) : List LayoutStep :=
  match scheme with
  | separate => Aspect.all.filterMap fun a => (changes.get a).bind fun c => c.step? a
  | shared => (planes.step? levels changes).toList

/-! ### Requests -/

/-- A change of level together with the dependency it needs. -/
structure Move where
  change : Change
  dependency : Dependency
deriving DecidableEq, Repr

/-- A range of subresources of an image. -/
structure SubresourceRange where
  baseMipLevel : UInt32
  levelCount : UInt32
  baseArrayLayer : UInt32
  layerCount : UInt32
deriving DecidableEq, Repr

/-- All mip levels and array layers.  The greatest count stands for all that remain. -/
def SubresourceRange.all : SubresourceRange := ⟨0, 0xffffffff, 0, 0xffffffff⟩

/-- A barrier that moves aspects of an image between layouts. -/
structure ImageBarrier where
  dependency : Dependency
  step : LayoutStep
  handle : UInt64
  range : SubresourceRange
deriving DecidableEq, Repr

/-- A change of layouts that has to be recorded before a command. -/
structure Request where
  image : ImageId
  handle : UInt64
  scheme : LayoutScheme
  planes : PlaneSet
  /-- The levels before the request. -/
  levels : PerAspect Level
  /-- The aspects whose levels change. -/
  moves : PerAspect (Option Move)
  /-- Hazards of aspects that a shared layout moves without a change of their level. -/
  carried : Dependency
  /-- Whether the open render pass has to end before the barriers are recorded. -/
  endsPass : Bool
deriving DecidableEq, Repr

namespace Request

/-- The changes of level. -/
def changes (r : Request) : PerAspect (Option Change) := r.moves.map (Option.map Move.change)

/-- The aspects whose levels change, depth first. -/
def moved (r : Request) : List Aspect := Aspect.all.filter fun a => (r.moves.get a).isSome

/-- The levels after the request. -/
def after (r : Request) : PerAspect Level := levelsAfter r.levels r.changes

/-- The dependency of one aspect's move. -/
def dependencyOf (r : Request) (a : Aspect) : Dependency :=
  (r.moves.get a).elim .empty Move.dependency

/-- The dependencies of everything the request moves. -/
def dependency (r : Request) : Dependency :=
  Aspect.all.foldl (fun d a => d ||| r.dependencyOf a) r.carried

/-- The changes of layout. -/
def steps (r : Request) : List LayoutStep := r.scheme.steps r.planes r.levels r.changes

/-- Whether the request changes no layout. -/
def isEmpty (r : Request) : Bool := r.steps.isEmpty

/-- The dependency of one step.  A step of its own waits for its aspect, and a step of the shared
layout for everything. -/
def stepDependency (r : Request) (step : LayoutStep) : Dependency :=
  match r.scheme with
  | .separate => step.planes.planes.foldl (fun d a => d ||| r.dependencyOf a) .empty
  | .shared => r.dependency

/-- The image barriers that implement the request. -/
def imageBarriers (r : Request) : List ImageBarrier :=
  r.steps.map fun step => ⟨r.stepDependency step, step, r.handle, .all⟩

end Request

end DepthStencil
