import DepthStencil.Tracker.Basic
import DepthStencil.TrackedImage.Accept
import DepthStencil.TrackedImage.Settle

/-! # Recording commands

`Tracker.record` records a command against an image and returns the request that has to come before
it.  Barriers never fall inside a render pass: a command that changes a layout ends the open pass
first, whatever image it is on, and so does every transition. -/

namespace DepthStencil

/-- The counters after the caller was handed a request, or nothing. -/
def Stats.countRequest (s : Stats) : Option Request → Stats
  | none => s
  | some r =>
    { s with
      transitions := s.transitions + 1
      imageBarriers := s.imageBarriers + r.imageBarriers.length }

/-- The counters after some changes of level that were asked for outright. -/
def Stats.countDecays (s : Stats) (changes : PerAspect (Option Change)) : Stats :=
  { s with decays := s.decays + changes.count fun c => c.any Change.relaxes }

/-- The counters after a draw or clear went to its place. -/
def Stats.countPlacement (s : Stats) : Placement → Stats
  | .fold => { s with folded := s.folded + 1 }
  | .begins => { s with passes := s.passes + 1 }
  | .split => { s with passes := s.passes + 1, splits := s.splits + 1 }

namespace Tracker

/-- Brings an image to levels that meet some needs, and returns the request for it. -/
def settle (t : Tracker) (id : ImageId) (image : TrackedImage) (needs : PerAspect Need)
    (endsPass : Bool) : Option Request × Tracker :=
  let request? := image.request? t.policy.scheme needs id endsPass
  (request?,
    { t with
      registry := t.registry.modify id fun image => image.settle t.policy.scheme needs
      stats := t.stats.countRequest request? })

/-- Counts the aspects that give up writing in changes of level that were asked for outright. -/
def countDecays (t : Tracker) (changes : PerAspect (Option Change)) : Tracker :=
  { t with stats := t.stats.countDecays changes }

/-- Puts a draw or clear into its pass. -/
def enterPass (t : Tracker) (id : ImageId) (placement : Placement) (levels : PerAspect Level)
    (writes : PerAspect Bool) : Tracker :=
  let pass? := if placement = .fold then t.pass? else some (.start id levels)
  { t with
    registry := t.registry.modify id fun image => image.markWritten writes
    pass? := pass?.map fun p => p.record writes
    stats := t.stats.countPlacement placement }

/-- Records a draw or clear in normal form. -/
def recordRendering (t : Tracker) (id : ImageId) (image : TrackedImage) (command : Command)
    (needs : PerAspect Need) : Option Request × Tracker :=
  let placement := Pass.place t.pass? id (image.moves t.policy.scheme needs)
  let endsPass := placement ≠ .fold && t.pass?.isSome
  let ready := if placement = .fold then t else t.closePass
  let settled := ready.settle id image needs endsPass
  (settled.1, settled.2.enterPass id placement (image.settledLevels needs) command.writes)

/-- Records a transition in normal form. -/
def recordTransition (t : Tracker) (id : ImageId) (image : TrackedImage)
    (needs : PerAspect Need) : Option Request × Tracker :=
  let settled := t.closePass.settle id image needs t.pass?.isSome
  (settled.1, settled.2.countDecays (image.changes needs))

/-- Records a discard in normal form. -/
def recordDiscard (t : Tracker) (id : ImageId) (image : TrackedImage)
    (needs : PerAspect Need) : Option Request × Tracker :=
  if image.moves t.policy.scheme needs then t.closePass.settle id image needs t.pass?.isSome
  else t.settle id image needs false

/-- Records a command in normal form. -/
def recordAccepted (t : Tracker) (id : ImageId) (image : TrackedImage) (accepted : Accepted) :
    Option Request × Tracker :=
  let command := accepted.command
  let needs := command.needs (accepted.coversImage && t.policy.discardOnFullClear)
  match command with
  | .draw _ | .clear _ _ => t.recordRendering id image command needs
  | .transition _ => t.recordTransition id image needs
  | .discard _ => t.recordDiscard id image needs

/-- Records a command against an image, and returns the request that has to come before it. -/
def record (t : Tracker) (id : ImageId) (command : Command) : Outcome (Option Request) :=
  match t.lookup id with
  | .error e => (.error e, t)
  | .ok image =>
    match image.accept id command with
    | .error e => (.error e, t)
    | .ok none => (.ok none, t)
    | .ok (some accepted) =>
      let recorded := t.recordAccepted id image accepted
      (.ok recorded.1, recorded.2)

end Tracker

end DepthStencil
