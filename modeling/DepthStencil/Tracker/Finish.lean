import DepthStencil.Tracker.Record

/-! # The end of a recording

`Tracker.finish` ends the open pass and brings every image to rest, in the order of the slots.  The
requests it returns go to the very end of the recording. -/

namespace DepthStencil

/-- The counters after an image was brought to rest.  Only writable aspects move then. -/
def Stats.countRest (s : Stats) (changes : PerAspect (Option Change)) : Stats :=
  { s with decays := s.decays + changes.count Option.isSome }

namespace Tracker

/-- Counts the aspects that moved when their image was brought to rest. -/
def countRest (t : Tracker) (changes : PerAspect (Option Change)) : Tracker :=
  { t with stats := t.stats.countRest changes }

/-- Brings one image to rest. -/
def relax (t : Tracker) (id : ImageId) : Option Request × Tracker :=
  match t.image? id with
  | none => (none, t)
  | some image =>
    match t.policy.restTargets? image.presentLevels with
    | none => (none, t)
    | some targets =>
      let needs := (Command.transition targets).needs false
      let settled := t.settle id image needs false
      (settled.1, settled.2.countRest (image.changes needs))

/-- Brings images to rest one after another. -/
def relaxAll : List ImageId → Tracker → List Request × Tracker
  | [], t => ([], t)
  | id :: ids, t =>
    let relaxed := t.relax id
    let rest := relaxAll ids relaxed.2
    (relaxed.1.toList ++ rest.1, rest.2)

/-- Ends the recording. -/
def finish (t : Tracker) : List Request × Tracker :=
  let t := t.closePass
  relaxAll t.registry.ids t

end Tracker

end DepthStencil
