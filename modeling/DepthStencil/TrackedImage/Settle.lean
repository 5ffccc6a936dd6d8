import DepthStencil.Request
import DepthStencil.TrackedImage.Basic

/-! # Settling an image

Settling brings an image to levels that meet some needs, and says which request implements that.

What happens to the history of an aspect is one of three things (`HistoryEffect`): a change of
layout that leads to some access, an access in the present layout, or oblivion.  A defined aspect
that a shared layout moves takes part in the change of layout even if its own level stays, so that
the barrier waits for everything owed to it; and an aspect that is forgotten keeps its history as
long as the shared layout still holds its contents. -/

namespace DepthStencil

/-! ### Effects on a history -/

/-- What becomes of the history of an aspect. -/
inductive HistoryEffect where
  /-- A change of layout that leads to an access. -/
  | layout (next : Access)
  /-- An access in the present layout. -/
  | access (next : Access)
  /-- The history is dropped. -/
  | forget
deriving DecidableEq, Repr

namespace HistoryEffect

/-- The history afterwards. -/
def apply : HistoryEffect → History → History
  | layout next, _ => .afterLayout next
  | access next, h => h.record next
  | forget, _ => .empty

/-- The dependency that the effect needs of a barrier. -/
def dependency : HistoryEffect → History → Dependency
  | layout next, h => h.layoutBarrier next
  | access _, _ => .empty
  | forget, _ => .empty

end HistoryEffect

/-! ### Settling -/

namespace TrackedImage

variable (image : TrackedImage) (scheme : LayoutScheme) (needs : PerAspect Need)

/-- The changes of level that meet the needs. -/
def changes : PerAspect (Option Change) := changesFor needs image.levels

/-- The levels that meet the needs. -/
def settledLevels : PerAspect Level := levelsAfter image.levels (image.changes needs)

/-- The changes of layout that meet the needs. -/
def steps : List LayoutStep := scheme.steps image.planeSet image.levels (image.changes needs)

/-- Whether meeting the needs changes a layout. -/
def moves : Bool := !(image.steps scheme needs).isEmpty

/-- Whether the contents of an aspect stay in a layout that the other aspect keeps. -/
def sharesLayout (a : Aspect) : Bool :=
  scheme = .shared && image.has a.other && ((image.settledLevels needs).get a.other).isDefined

/-- Whether an aspect whose own level stays is moved by the shared layout. -/
def isCarried (a : Aspect) : Bool :=
  image.moves scheme needs && scheme = .shared && image.has a && (image.levels.get a).isDefined

/-- The access that an aspect moved by the shared layout has to be ready for. -/
def carriedAccess (a : Aspect) : Access :=
  if (needs.get a).access = .none then .ofLevel (image.levels.get a) else (needs.get a).access

/-- What becomes of the history of an aspect. -/
def effect (a : Aspect) : HistoryEffect :=
  match (image.changes needs).get a with
  | some c =>
    if c.target.isDefined then .layout (needs.get a).access
    else if image.sharesLayout scheme needs a then
      if image.moves scheme needs then .layout (.ofLevel .readOnly) else .access .none
    else .forget
  | none =>
    if image.isCarried scheme needs a then .layout (image.carriedAccess needs a)
    else .access (needs.get a).access

/-- The dependency owed to an aspect. -/
def dependency (a : Aspect) : Dependency :=
  (image.effect scheme needs a).dependency (image.histories.get a)

/-- The image once the needs are met. -/
def settle : TrackedImage :=
  { image with
    levels := image.settledLevels needs
    histories := .ofFn fun a => (image.effect scheme needs a).apply (image.histories.get a) }

/-- The changes of level with their dependencies. -/
def moveOf (a : Aspect) : Option Move :=
  ((image.changes needs).get a).map fun c => ⟨c, image.dependency scheme needs a⟩

/-- The dependencies of the aspects whose levels stay. -/
def carried : Dependency :=
  Aspect.all.foldl
    (fun d a =>
      if ((image.changes needs).get a).isSome then d else d ||| image.dependency scheme needs a)
    .empty

/-- The request that meets the needs, as if it were always made. -/
def request (id : ImageId) (endsPass : Bool) : Request :=
  { image := id
    handle := image.handle
    scheme
    planes := image.planeSet
    levels := image.levels
    moves := .ofFn fun a => image.moveOf scheme needs a
    carried := image.carried scheme needs
    endsPass }

/-- The request that meets the needs, or `none` if no layout has to change. -/
def request? (id : ImageId) (endsPass : Bool) : Option Request :=
  if image.moves scheme needs then some (image.request scheme needs id endsPass) else none

end TrackedImage

end DepthStencil
