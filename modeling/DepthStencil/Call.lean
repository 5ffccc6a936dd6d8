import DepthStencil.Tracker.Finish
import DepthStencil.Tracker.Resource

/-! # Calls and runs

Everything a caller can do to a tracker is a `Call`, and what it gets back is an `Answer`.  A run
takes calls one after another; a rejected call does not stop it. -/

namespace DepthStencil

/-- An operation on a tracker. -/
inductive Call where
  | register (info : Registration)
  | unregister (id : ImageId)
  | seed (id : ImageId) (levels : PerAspect Level)
  | record (id : ImageId) (command : Command)
  | closePass
  | finish
  | resourceBarrier (id : ImageId) (subresource : UInt32) (states : ResourceStates)
  | clearView (id : ImageId) (flags : ViewFlags) (rects : List Rect)
  | discardSubresources (id : ImageId) (first count : UInt32) (hasRects : Bool)
  | drawPipeline (id : ImageId) (pipeline : PipelineState) (view : ViewFlags)
deriving DecidableEq, Repr

/-- What a call gives back. -/
inductive Answer where
  | rejected (reason : Rejection)
  | registered (id : ImageId)
  | unregistered (image : TrackedImage)
  | seeded
  | recorded (request? : Option Request)
  | closed (pass? : Option Pass)
  | requests (requests : List Request)
deriving DecidableEq, Repr

/-- The answer that reports an outcome. -/
def Answer.ofExcept {α : Type} (report : α → Answer) : Except Rejection α → Answer
  | .ok x => report x
  | .error e => .rejected e

/-- The requests that an answer hands to the caller, in the order in which they are recorded. -/
def Answer.requestList : Answer → List Request
  | recorded request? => request?.toList
  | requests rs => rs
  | rejected _ | registered _ | unregistered _ | seeded | closed _ => []

namespace Tracker

/-- Reports the outcome of an operation. -/
def report {α : Type} (f : α → Answer) (o : Outcome α) : Answer × Tracker := (.ofExcept f o.1, o.2)

/-- Carries out a call. -/
def step (t : Tracker) : Call → Answer × Tracker
  | .register info => report .registered (t.register info)
  | .unregister id => report .unregistered (t.unregister id)
  | .seed id levels => report (fun _ => .seeded) (t.seed id levels)
  | .record id command => report .recorded (t.record id command)
  | .closePass => (.closed t.pass?, t.closePass)
  | .finish => (.requests t.finish.1, t.finish.2)
  | .resourceBarrier id subresource states =>
    report .recorded (t.resourceBarrier id subresource states)
  | .clearView id flags rects => report .requests (t.clearView id flags rects)
  | .discardSubresources id first count hasRects =>
    report .recorded (t.discardSubresources id first count hasRects)
  | .drawPipeline id pipeline view => report .recorded (t.drawPipeline id pipeline view)

/-- Carries out calls one after another.  Each answer comes with the tracker after its call. -/
def run (t : Tracker) : List Call → List (Answer × Tracker)
  | [] => []
  | call :: calls =>
    let result := t.step call
    result :: result.2.run calls

/-- The tracker after some calls. -/
def after (t : Tracker) (calls : List Call) : Tracker :=
  calls.foldl (fun t call => (t.step call).2) t

theorem after_cons (t : Tracker) (call : Call) (calls : List Call) :
    t.after (call :: calls) = (t.step call).2.after calls := rfl

end Tracker

end DepthStencil
