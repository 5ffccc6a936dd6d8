import DepthStencil.Proofs.Identifiers
import DepthStencil.Proofs.VisibleParts
import Mathlib.Data.List.Forall2

/-! # Dropping contents changes nothing else

A clear of a whole image may drop the contents of the image if the policy says so.  Two trackers
whose policies differ in nothing else are given the same calls, apart from the rectangles of their
clears (`Tracker.Redraws`).

* A clear moves a layout exactly if some aspect that it clears cannot be written yet, whatever it
  may drop (`TrackedImage.WritesAlike.moves`).  So both trackers ask for layouts at the same time.
* What they ask for differs in the contents that are dropped and in nothing else
  (`Request.Resembles`).
* No history, no pass and no counter tells what was dropped, so after each call the trackers agree
  on all that they track (`Tracker.discards_transparent`). -/

namespace DepthStencil

/-! ### What may differ -/

/-- The need, met without dropping anything. -/
def Need.keeping (need : Need) : Need := { need with discards := false }

/-- The change without dropping anything. -/
def Change.keeping (c : Change) : Change := { c with discards := false }

/-- The request without dropping anything. -/
def Request.keeping (r : Request) : Request :=
  { r with moves := r.moves.map (Option.map fun m => { m with change := m.change.keeping }) }

/-- The step, dropping the contents of its aspects. -/
def LayoutStep.dropping (step : LayoutStep) : LayoutStep := { step with oldLayout := .undefined }

/-- The barrier, dropping the contents of its aspects. -/
def ImageBarrier.dropping (b : ImageBarrier) : ImageBarrier := { b with step := b.step.dropping }

/-- Whether steps are the same, but for one of them dropping what the other one keeps. -/
def LayoutStep.Resembles (step step' : LayoutStep) : Prop :=
  step' = step ∨ step' = step.dropping ∨ step = step'.dropping

/-- Whether barriers are the same, but for one of them dropping what the other one keeps. -/
def ImageBarrier.Resembles (b b' : ImageBarrier) : Prop :=
  b' = b ∨ b' = b.dropping ∨ b = b'.dropping

/-- Whether requests are the same, but for the contents that are dropped. -/
structure Request.Resembles (r r' : Request) : Prop where
  keeping : r'.keeping = r.keeping
  barriers : List.Forall₂ ImageBarrier.Resembles r.imageBarriers r'.imageBarriers

/-- Whether answers are the same, but for the contents that requests drop. -/
inductive Answer.Resembles : Answer → Answer → Prop where
  | same (answer : Answer) : Resembles answer answer
  | recorded {request? request?' : Option Request}
      (h : Option.Rel Request.Resembles request? request?') :
      Resembles (.recorded request?) (.recorded request?')
  | requests {rs rs' : List Request} (h : List.Forall₂ Request.Resembles rs rs') :
      Resembles (.requests rs) (.requests rs')

/-- Whether clears within two rectangles both reach some texel of an image, or neither does. -/
def Rect.TouchAlike (e : Extent) (rect rect' : Option Rect) : Prop :=
  touches e rect = touches e rect'

/-- The rectangles within which a view is cleared.  Without any it is cleared everywhere. -/
def Rect.orEverywhere (rects : List Rect) : List (Option Rect) :=
  if rects.isEmpty then [none] else rects.map some

/-! ### Requests that differ in what they drop -/

theorem forall₂_toList {α β : Type} {R : α → β → Prop} {x? : Option α} {y? : Option β}
    (h : Option.Rel R x? y?) : List.Forall₂ R x?.toList y?.toList := by
  cases h with
  | none => exact .nil
  | some h => exact .cons h .nil

theorem LayoutStep.Resembles.planes {step step' : LayoutStep} (h : step.Resembles step') :
    step'.planes = step.planes := by
  rcases h with rfl | rfl | rfl
  · rfl
  · rfl
  · rfl

/-- Whatever steps between the same layouts drop, they resemble each other as long as both of them
are needed or neither is. -/
theorem LayoutStep.rel_between? {planes : PlaneSet} {old new : ImageLayout} {drops drops' : Bool}
    (hnone : between? planes (if drops then .undefined else old) new = none ↔
      between? planes (if drops' then .undefined else old) new = none) :
    Option.Rel Resembles (between? planes (if drops then .undefined else old) new)
      (between? planes (if drops' then .undefined else old) new) := by
  cases hs : between? planes (if drops then .undefined else old) new with
  | none =>
      rw [hnone.mp hs]
      exact .none
  | some step =>
      cases hs' : between? planes (if drops' then .undefined else old) new with
      | none => exact absurd (hnone.mpr hs') (by rw [hs]; simp)
      | some step' =>
          obtain rfl := (between?_eq_some.mp hs).2.2
          obtain rfl := (between?_eq_some.mp hs').2.2
          refine .some ?_
          cases drops with
          | true => exact .inr (.inr rfl)
          | false =>
              cases drops' with
              | true => exact .inr (.inl rfl)
              | false => exact .inl rfl

/-- An aspect that moves to a defined level changes its layout, whether it drops its contents or
not. -/
theorem Change.step?_eq_none {c : Change} (hne : c.target ≠ c.source) (a : Aspect) :
    c.step? a = none ↔ c.target = .undefined := by
  rw [step?, LayoutStep.between?_eq_none, Level.layout_eq_undefined, or_iff_left_iff_imp]
  intro hsame
  split at hsame
  · exact Level.layout_eq_undefined.mp hsame.symm
  · exact absurd (Level.layout_injective hsame).symm hne

theorem Change.rel_step? {c c' : Change} (h : c'.keeping = c.keeping) (hne : c.target ≠ c.source)
    (a : Aspect) : Option.Rel LayoutStep.Resembles (c.step? a) (c'.step? a) := by
  have hsource : c'.source = c.source := (congrArg Change.source h :)
  have htarget : c'.target = c.target := (congrArg Change.target h :)
  have hne' : c'.target ≠ c'.source := by rwa [hsource, htarget]
  have hnone : c.step? a = none ↔ c'.step? a = none := by
    rw [step?_eq_none hne, step?_eq_none hne', htarget]
  rw [step?, step?, hsource, htarget] at hnone ⊢
  exact LayoutStep.rel_between? hnone

namespace Request

variable {r r' : Request}

theorem dependencyOf_keeping (r : Request) (a : Aspect) :
    r.keeping.dependencyOf a = r.dependencyOf a := by
  rw [dependencyOf, keeping, PerAspect.get_map]
  cases hm : r.moves.get a with
  | none => rw [dependencyOf, hm]; rfl
  | some m => rw [dependencyOf, hm]; rfl

/-- What a step waits for does not depend on the contents that are dropped. -/
theorem stepDependency_congr (h : r'.keeping = r.keeping) {step step' : LayoutStep}
    (hplanes : step'.planes = step.planes) : r'.stepDependency step' = r.stepDependency step := by
  have hdependencyOf : ∀ a, r'.dependencyOf a = r.dependencyOf a := fun a => by
    rw [← dependencyOf_keeping r', h, dependencyOf_keeping]
  have hscheme : r'.scheme = r.scheme := (congrArg Request.scheme h :)
  have hcarried : r'.carried = r.carried := (congrArg Request.carried h :)
  simp only [stepDependency, dependency, hscheme, hcarried, hplanes, hdependencyOf]

theorem resembles_of_steps (h : r'.keeping = r.keeping)
    (hsteps : List.Forall₂ LayoutStep.Resembles r.steps r'.steps) : r.Resembles r' := by
  refine ⟨h, List.rel_map (fun step step' hstep => ?_) hsteps⟩
  have hhandle : r'.handle = r.handle := (congrArg Request.handle h :)
  rw [stepDependency_congr h hstep.planes, hhandle]
  rcases hstep with rfl | rfl | rfl
  · exact .inl rfl
  · exact .inr (.inl rfl)
  · exact .inr (.inr rfl)

end Request

theorem Stats.countRequest_congr {request? request?' : Option Request}
    (h : Option.Rel Request.Resembles request? request?') (s : Stats) :
    s.countRequest request?' = s.countRequest request? := by
  cases h with
  | none => rfl
  | some h => rw [countRequest, countRequest, h.barriers.length_eq]

/-! ### Needs to write -/

theorem Need.change?_cases {need need' : Need} (h : need'.keeping = need.keeping) (level : Level) :
    (need.change? level = Option.none ∧ need'.change? level = Option.none) ∨
      ∃ c c', need.change? level = some c ∧ need'.change? level = some c' ∧
        c'.keeping = c.keeping ∧ c.target ≠ c.source := by
  have hdemand : need'.demand = need.demand := (congrArg Need.demand h :)
  cases hc : need.change? level with
  | none => exact .inl ⟨rfl, by rw [change?_eq_none] at hc ⊢; rwa [hdemand]⟩
  | some c =>
      obtain ⟨hsource, hne, htarget, -⟩ := change?_eq_some hc
      refine .inr ⟨c, _, rfl, by rw [change?, hdemand, htarget]; rfl, ?_, by rwa [hsource]⟩
      rw [Change.keeping, Change.keeping, hsource]

namespace TrackedImage

variable {image : TrackedImage} {scheme : LayoutScheme} {needs needs' : PerAspect Need}

theorem moves_shared_eq_false : image.moves .shared needs = false ↔
    image.planeSet.step? image.levels (image.changes needs) = none := by
  rw [TrackedImage.moves, steps, LayoutScheme.steps, Bool.not_eq_false', List.isEmpty_iff,
    Option.toList_eq_nil_iff]

/-- Whether needs to write aspects of an image differ in nothing but what they may drop. -/
structure WritesAlike (image : TrackedImage) (needs needs' : PerAspect Need) : Prop where
  keeping : ∀ a, (needs'.get a).keeping = (needs.get a).keeping
  writes : ∀ a, (needs.get a).demand = .any ∨ (needs.get a).demand = .atLeast .writable
  present : ∀ a, (needs.get a).demand ≠ .any → image.has a = true

theorem writesAlike_clear {aspects : PerAspect Bool}
    (ha : image.planeSet.firstOutside? aspects = none) (discards discards' : Bool) :
    image.WritesAlike ((Command.clear aspects none).needs discards)
      ((Command.clear aspects none).needs discards') := by
  constructor
  · intro a
    rw [Command.get_needs_clear, Command.get_needs_clear]
    split
    · rfl
    · rfl
  · intro a
    rw [Command.get_needs_clear]
    split
    · exact .inr rfl
    · exact .inl rfl
  · intro a hdemand
    rw [Command.get_needs_clear] at hdemand
    split at hdemand
    · rename_i hmarked
      exact PlaneSet.has_of_firstOutside? ha hmarked
    · exact absurd rfl hdemand

namespace WritesAlike

theorem demand (h : image.WritesAlike needs needs') (a : Aspect) :
    (needs'.get a).demand = (needs.get a).demand := (congrArg Need.demand (h.keeping a) :)

theorem access (h : image.WritesAlike needs needs') (a : Aspect) :
    (needs'.get a).access = (needs.get a).access := (congrArg Need.access (h.keeping a) :)

/-- Both needs are met by changes of the same levels. -/
theorem changes_cases (h : image.WritesAlike needs needs') (a : Aspect) :
    ((image.changes needs).get a = none ∧ (image.changes needs').get a = none) ∨
      ∃ c c', (image.changes needs).get a = some c ∧ (image.changes needs').get a = some c' ∧
        c'.keeping = c.keeping ∧ c.target ≠ c.source := by
  rw [get_changes, get_changes]
  exact Need.change?_cases (h.keeping a) _

theorem settledLevels (h : image.WritesAlike needs needs') :
    image.settledLevels needs' = image.settledLevels needs := by
  apply PerAspect.ext_get
  intro a
  rcases h.changes_cases a with ⟨hc, hc'⟩ | ⟨c, c', hc, hc', hkeeping, -⟩
  · rw [get_settledLevels_of_none hc, get_settledLevels_of_none hc']
  · rw [get_settledLevels_of_some hc, get_settledLevels_of_some hc']
    exact (congrArg Change.target hkeeping :)

theorem isSome_changes (h : image.WritesAlike needs needs') (a : Aspect) :
    ((image.changes needs').get a).isSome = ((image.changes needs).get a).isSome := by
  rcases h.changes_cases a with ⟨hc, hc'⟩ | ⟨c, c', hc, hc', -⟩
  · rw [hc, hc']
  · rw [hc, hc']
    rfl

theorem moves (h : image.WritesAlike needs needs') (scheme : LayoutScheme) :
    image.moves scheme needs' = image.moves scheme needs := by
  rw [Bool.eq_iff_iff, moves_iff_of_writes h.writes h.present, moves_iff_of_writes]
  · simp only [h.demand]
  · simpa only [h.demand] using h.writes
  · simpa only [h.demand] using h.present

theorem effect (h : image.WritesAlike needs needs') (scheme : LayoutScheme) (a : Aspect) :
    image.effect scheme needs' a = image.effect scheme needs a := by
  have hshares : image.sharesLayout scheme needs' a = image.sharesLayout scheme needs a := by
    rw [sharesLayout, sharesLayout, h.settledLevels]
  have hcarried : image.isCarried scheme needs' a = image.isCarried scheme needs a := by
    rw [isCarried, isCarried, h.moves]
  have haccess : image.carriedAccess needs' a = image.carriedAccess needs a := by
    rw [carriedAccess, carriedAccess, h.access]
  rw [TrackedImage.effect, TrackedImage.effect, hshares, hcarried, haccess, h.moves, h.access]
  rcases h.changes_cases a with ⟨hc, hc'⟩ | ⟨c, c', hc, hc', hkeeping, -⟩
  · rw [hc, hc']
  · have htarget : c'.target = c.target := (congrArg Change.target hkeeping :)
    simp only [hc, hc', htarget]

theorem settle (h : image.WritesAlike needs needs') (scheme : LayoutScheme) :
    image.settle scheme needs' = image.settle scheme needs := by
  simp only [TrackedImage.settle, h.settledLevels, h.effect]

theorem dependency (h : image.WritesAlike needs needs') (scheme : LayoutScheme) (a : Aspect) :
    image.dependency scheme needs' a = image.dependency scheme needs a := by
  rw [TrackedImage.dependency, TrackedImage.dependency, h.effect]

theorem keeping_request (h : image.WritesAlike needs needs') (id : ImageId) (endsPass : Bool) :
    (image.request scheme needs' id endsPass).keeping =
      (image.request scheme needs id endsPass).keeping := by
  have hcarried : image.carried scheme needs' = image.carried scheme needs := by
    simp only [carried, h.isSome_changes, h.dependency]
  have hmoves : ∀ a, (image.moveOf scheme needs' a).map
        (fun m => { m with change := m.change.keeping }) =
      (image.moveOf scheme needs a).map fun m => { m with change := m.change.keeping } := by
    intro a
    simp only [moveOf, h.dependency]
    rcases h.changes_cases a with ⟨hc, hc'⟩ | ⟨c, c', hc, hc', hkeeping, -⟩
    · rw [hc, hc']
    · simp only [hc, hc', Option.map_some, hkeeping]
  simp only [Request.keeping, request, hcarried, PerAspect.map, PerAspect.get_ofFn, hmoves]

theorem rel_step? (h : image.WritesAlike needs needs') : Option.Rel LayoutStep.Resembles
    (image.planeSet.step? image.levels (image.changes needs))
    (image.planeSet.step? image.levels (image.changes needs')) := by
  have hnone : image.planeSet.step? image.levels (image.changes needs) = none ↔
      image.planeSet.step? image.levels (image.changes needs') = none := by
    rw [← moves_shared_eq_false, ← moves_shared_eq_false, h.moves]
  have hlevels : levelsAfter image.levels (image.changes needs') =
      levelsAfter image.levels (image.changes needs) := h.settledLevels
  simp only [PlaneSet.step?, hlevels] at hnone ⊢
  exact LayoutStep.rel_between? hnone

theorem rel_steps (h : image.WritesAlike needs needs') (scheme : LayoutScheme) :
    List.Forall₂ LayoutStep.Resembles (image.steps scheme needs) (image.steps scheme needs') := by
  cases scheme with
  | separate =>
      have hall : List.Forall₂ Eq Aspect.all Aspect.all := List.forall₂_refl _
      refine List.rel_filterMap (fun a a' ha => ?_) hall
      obtain rfl : a = a' := ha
      rcases h.changes_cases a with ⟨hc, hc'⟩ | ⟨c, c', hc, hc', hkeeping, hne⟩
      · rw [hc, hc']
        exact .none
      · rw [hc, hc']
        exact Change.rel_step? hkeeping hne a
  | shared => exact forall₂_toList h.rel_step?

theorem resembles_request (h : image.WritesAlike needs needs') (scheme : LayoutScheme)
    (id : ImageId) (endsPass : Bool) :
    (image.request scheme needs id endsPass).Resembles
      (image.request scheme needs' id endsPass) := by
  refine Request.resembles_of_steps (h.keeping_request id endsPass) ?_
  rw [steps_request, steps_request]
  exact h.rel_steps scheme

theorem rel_request? (h : image.WritesAlike needs needs') (scheme : LayoutScheme) (id : ImageId)
    (endsPass : Bool) : Option.Rel Request.Resembles (image.request? scheme needs id endsPass)
      (image.request? scheme needs' id endsPass) := by
  rw [request?, request?, h.moves]
  split
  · exact .some (h.resembles_request scheme id endsPass)
  · exact .none

end WritesAlike

end TrackedImage

/-! ### Rectangles that reach some texel -/

theorem Rect.TouchAlike.coverage?_cases {e : Extent} {rect rect' : Option Rect}
    (h : TouchAlike e rect rect') :
    (coverage? e rect = none ∧ coverage? e rect' = none) ∨
      ∃ covers covers', coverage? e rect = some covers ∧ coverage? e rect' = some covers' := by
  rw [TouchAlike, touches, touches] at h
  cases hc : coverage? e rect with
  | none =>
      rw [hc, Option.isSome_none] at h
      exact .inl ⟨rfl, Option.isNone_iff_eq_none.mp (Option.isSome_eq_false_iff.mp h.symm)⟩
  | some covers =>
      rw [hc, Option.isSome_some] at h
      obtain ⟨covers', hc'⟩ := Option.isSome_iff_exists.mp h.symm
      exact .inr ⟨covers, covers', rfl, hc'⟩

/-! ### Operations that drop the same -/

/-- Whether a command is a clear. -/
def Command.isClear : Command → Bool
  | clear _ _ => true
  | draw _ | discard _ | transition _ => false

/-- Whether a call clears an image. -/
def Call.isClear : Call → Bool
  | record _ command => command.isClear
  | clearView _ _ _ => true
  | register _ | unregister _ | seed _ _ | closePass | finish | resourceBarrier _ _ _
  | discardSubresources _ _ _ _ | drawPipeline _ _ _ => false

theorem TrackedImage.coversImage_of_normalize {image : TrackedImage} {command : Command}
    {x : Accepted} (h : command.isClear = false) (hx : image.normalize command = some x) :
    x.coversImage = false := by
  cases command with
  | draw uses =>
      obtain rfl := Option.some_inj.mp hx
      rfl
  | clear aspects rect => exact absurd h (by simp [Command.isClear])
  | discard aspects =>
      rw [normalize] at hx
      split at hx
      · obtain rfl := Option.some_inj.mp hx
        rfl
      · exact absurd hx (by simp)
  | transition targets =>
      obtain rfl := Option.some_inj.mp hx
      rfl

namespace Tracker

/-- The tracker with another choice of whether a clear of the whole image may drop its contents. -/
def withDiscards (t : Tracker) (b : Bool) : Tracker :=
  { t with policy := { t.policy with discardOnFullClear := b } }

section withDiscards

variable (t : Tracker) (b : Bool)

theorem closePass_withDiscards : (t.withDiscards b).closePass = t.closePass.withDiscards b := by
  obtain ⟨policy, registry, pass?, stats⟩ := t
  cases pass? with
  | none => rfl
  | some p => rfl

theorem closePassOn_withDiscards (id : ImageId) :
    (t.withDiscards b).closePassOn id = (t.closePassOn id).withDiscards b := by
  have hpass : (t.withDiscards b).pass? = t.pass? := rfl
  rw [closePassOn, closePassOn, hpass, closePass_withDiscards]
  split
  · rfl
  · rfl

theorem register_withDiscards (info : Registration) : (t.withDiscards b).register info =
    ((t.register info).1, (t.register info).2.withDiscards b) := by
  rw [register, register]
  cases Format.ofCode? info.format with
  | none => rfl
  | some format => rfl

theorem unregister_withDiscards (id : ImageId) : (t.withDiscards b).unregister id =
    ((t.unregister id).1, (t.unregister id).2.withDiscards b) := by
  rw [unregister, unregister, closePassOn_withDiscards]
  have hlookup : ((t.closePassOn id).withDiscards b).lookup id = (t.closePassOn id).lookup id := rfl
  simp only [hlookup]
  cases (t.closePassOn id).lookup id with
  | error e => rfl
  | ok image => rfl

theorem seed_withDiscards (id : ImageId) (levels : PerAspect Level) :
    (t.withDiscards b).seed id levels =
      ((t.seed id levels).1, (t.seed id levels).2.withDiscards b) := by
  rw [seed, seed, closePassOn_withDiscards]
  have hlookup : ((t.closePassOn id).withDiscards b).lookup id = (t.closePassOn id).lookup id := rfl
  simp only [hlookup]
  cases (t.closePassOn id).lookup id with
  | error e => rfl
  | ok image => rfl

theorem relax_withDiscards (id : ImageId) : (t.withDiscards b).relax id =
    ((t.relax id).1, (t.relax id).2.withDiscards b) := by
  have himage : (t.withDiscards b).image? id = t.image? id := rfl
  rw [relax, relax, himage]
  cases t.image? id with
  | none => rfl
  | some image =>
      have htargets : (t.withDiscards b).policy.restTargets? image.presentLevels =
        t.policy.restTargets? image.presentLevels := rfl
      simp only [htargets]
      cases t.policy.restTargets? image.presentLevels with
      | none => rfl
      | some targets => rfl

theorem relaxAll_withDiscards (ids : List ImageId) : relaxAll ids (t.withDiscards b) =
    ((relaxAll ids t).1, (relaxAll ids t).2.withDiscards b) := by
  induction ids generalizing t with
  | nil => rfl
  | cons id ids ih => rw [relaxAll, relaxAll, relax_withDiscards, ih]

theorem finish_withDiscards : (t.withDiscards b).finish =
    (t.finish.1, t.finish.2.withDiscards b) := by
  rw [finish, finish, closePass_withDiscards]
  exact relaxAll_withDiscards _ b _

/-! ### Commands other than clears -/

theorem recordRendering_withDiscards (id : ImageId) (image : TrackedImage) (command : Command)
    (needs : PerAspect Need) : (t.withDiscards b).recordRendering id image command needs =
      ((t.recordRendering id image command needs).1,
        (t.recordRendering id image command needs).2.withDiscards b) := by
  have hpass : (t.withDiscards b).pass? = t.pass? := rfl
  have hscheme : (t.withDiscards b).policy.scheme = t.policy.scheme := rfl
  simp only [recordRendering, closePass_withDiscards, hpass, hscheme]
  split
  · rfl
  · rfl

theorem recordTransition_withDiscards (id : ImageId) (image : TrackedImage)
    (needs : PerAspect Need) : (t.withDiscards b).recordTransition id image needs =
      ((t.recordTransition id image needs).1,
        (t.recordTransition id image needs).2.withDiscards b) := by
  rw [recordTransition, recordTransition, closePass_withDiscards]
  rfl

theorem recordDiscard_withDiscards (id : ImageId) (image : TrackedImage)
    (needs : PerAspect Need) : (t.withDiscards b).recordDiscard id image needs =
      ((t.recordDiscard id image needs).1, (t.recordDiscard id image needs).2.withDiscards b) := by
  have hscheme : (t.withDiscards b).policy.scheme = t.policy.scheme := rfl
  rw [recordDiscard, recordDiscard, closePass_withDiscards, hscheme]
  split
  · rfl
  · rfl

theorem recordAccepted_withDiscards (id : ImageId) (image : TrackedImage) {x : Accepted}
    (hx : x.coversImage = false) : (t.withDiscards b).recordAccepted id image x =
      ((t.recordAccepted id image x).1, (t.recordAccepted id image x).2.withDiscards b) := by
  obtain ⟨command, coversImage⟩ := x
  obtain rfl : coversImage = false := hx
  cases command with
  | draw uses => exact t.recordRendering_withDiscards b id image _ _
  | clear aspects rect => exact t.recordRendering_withDiscards b id image _ _
  | discard aspects => exact t.recordDiscard_withDiscards b id image _
  | transition targets => exact t.recordTransition_withDiscards b id image _

theorem record_withDiscards (id : ImageId) {command : Command} (h : command.isClear = false) :
    (t.withDiscards b).record id command =
      ((t.record id command).1, (t.record id command).2.withDiscards b) := by
  have hlookup : (t.withDiscards b).lookup id = t.lookup id := rfl
  simp only [record, hlookup]
  cases t.lookup id with
  | error e => rfl
  | ok image =>
      simp only [TrackedImage.accept]
      cases image.missing? command with
      | some a => rfl
      | none =>
          cases hx : image.normalize command with
          | none => rfl
          | some x =>
              have hcovers := TrackedImage.coversImage_of_normalize h hx
              simp only [recordAccepted_withDiscards t b id image hcovers]

theorem step_withDiscards {call : Call} (h : call.isClear = false) :
    (t.withDiscards b).step call = ((t.step call).1, (t.step call).2.withDiscards b) := by
  cases call with
  | register info => rw [step, step, register_withDiscards]; rfl
  | unregister id => rw [step, step, unregister_withDiscards]; rfl
  | seed id levels => rw [step, step, seed_withDiscards]; rfl
  | record id command => rw [step, step, record_withDiscards t b id h]; rfl
  | closePass => rw [step, step, closePass_withDiscards]; rfl
  | finish => rw [step, step, finish_withDiscards]
  | resourceBarrier id subresource states =>
      have hresolved : (t.withDiscards b).subresourceAspects id subresource =
        t.subresourceAspects id subresource := rfl
      rw [step, step, resourceBarrier, resourceBarrier, hresolved]
      cases states.level? with
      | none => rfl
      | some level =>
          cases t.subresourceAspects id subresource with
          | error e => rfl
          | ok aspects =>
              simp only
              rw [record_withDiscards t b id rfl]
              rfl
  | clearView id flags rects => exact absurd h (by simp [Call.isClear])
  | discardSubresources id first count hasRects =>
      have hlookup : (t.withDiscards b).lookup id = t.lookup id := rfl
      rw [step, step, discardSubresources, discardSubresources, hlookup]
      cases t.lookup id with
      | error e => rfl
      | ok image =>
          simp only
          split
          · rfl
          · rw [record_withDiscards t b id rfl]
            rfl
  | drawPipeline id pipeline view =>
      rw [step, step, drawPipeline, drawPipeline, record_withDiscards t b id rfl]
      rfl

end withDiscards

/-! ### Clears -/

/-- Whether an operation turns out alike on two trackers and leaves the same behind, apart from the
policies. -/
inductive Mirrors {α : Type} (R : α → α → Prop) (b : Bool) : Outcome α → Outcome α → Prop where
  | error (e : Rejection) (t : Tracker) : Mirrors R b (.error e, t) (.error e, t.withDiscards b)
  | ok {x x' : α} (h : R x x') (t : Tracker) : Mirrors R b (.ok x, t) (.ok x', t.withDiscards b)

variable {t : Tracker} {id : ImageId} {image : TrackedImage} {aspects : PerAspect Bool}
  {needs needs' : PerAspect Need}

/-- Needs that differ in what they may drop settle an image alike. -/
theorem resembles_settle (h : image.WritesAlike needs needs')
    (hstored : ∀ stored, t.image? id = some stored → stored.WritesAlike needs needs')
    (endsPass b : Bool) :
    Option.Rel Request.Resembles (t.settle id image needs endsPass).1
        ((t.withDiscards b).settle id image needs' endsPass).1 ∧
      ((t.withDiscards b).settle id image needs' endsPass).2 =
        (t.settle id image needs endsPass).2.withDiscards b := by
  have hrel := h.rel_request? t.policy.scheme id endsPass
  have hregistry : t.registry.modify id (fun image => image.settle t.policy.scheme needs') =
      t.registry.modify id fun image => image.settle t.policy.scheme needs :=
    Registry.modify_congr fun stored hi => (hstored stored hi).settle t.policy.scheme
  refine ⟨hrel, ?_⟩
  simp only [settle, withDiscards, hregistry, Stats.countRequest_congr hrel]

theorem resembles_clear (hi : t.image? id = some image)
    (ha : image.planeSet.firstOutside? aspects = none) (covers covers' b : Bool) :
    Option.Rel Request.Resembles (t.clear id image aspects covers).1
        ((t.withDiscards b).clear id image aspects covers').1 ∧
      ((t.withDiscards b).clear id image aspects covers').2 =
        (t.clear id image aspects covers).2.withDiscards b := by
  have halike := TrackedImage.writesAlike_clear ha (covers && t.policy.discardOnFullClear)
    (covers' && b)
  -- the open pass may end first, which changes the image only in what is believed of it
  have hready : ∀ t' : Tracker, t'.holdings = t.holdings →
      ∀ stored, t'.image? id = some stored → stored.WritesAlike
        ((Command.clear aspects none).needs (covers && t.policy.discardOnFullClear))
        ((Command.clear aspects none).needs (covers' && b)) := by
    intro t' hholdings stored hs
    obtain ⟨image', hi', hblank⟩ := exists_image?_of_holdings hholdings hi
    obtain rfl := Option.some_inj.mp (hi'.symm.trans hs)
    have hplanes : image'.planeSet = image.planeSet := (congrArg TrackedImage.planeSet hblank :)
    exact TrackedImage.writesAlike_clear (hplanes ▸ ha) _ _
  have hpass : (t.withDiscards b).pass? = t.pass? := rfl
  have hscheme : (t.withDiscards b).policy.scheme = t.policy.scheme := rfl
  have hdiscards : (t.withDiscards b).policy.discardOnFullClear = b := rfl
  simp only [clear, recordAccepted, recordRendering, hpass, hscheme, hdiscards, halike.moves,
    halike.settledLevels, closePass_withDiscards]
  split
  · obtain ⟨hrel, htracker⟩ := resembles_settle halike (hready t rfl) _ b
    exact ⟨hrel, by rw [htracker]; rfl⟩
  · obtain ⟨hrel, htracker⟩ := resembles_settle halike (hready _ t.holdings_closePass) _ b
    exact ⟨hrel, by rw [htracker]; rfl⟩

/-- Clears within rectangles that reach some texel alike come to the same. -/
theorem record_clear_mirrors {rect rect' : Option Rect}
    (h : ∀ image, t.image? id = some image → Rect.TouchAlike image.extent rect rect')
    (aspects : PerAspect Bool) (b : Bool) :
    Mirrors (Option.Rel Request.Resembles) b (t.record id (.clear aspects rect))
      ((t.withDiscards b).record id (.clear aspects rect')) := by
  have himage : (t.withDiscards b).image? id = t.image? id := rfl
  cases hi : t.image? id with
  | none =>
      rw [record_of_image?_eq_none hi, record_of_image?_eq_none (himage.trans hi)]
      exact .error _ t
  | some image =>
      rw [record_clear hi, record_clear (himage.trans hi)]
      cases ha : image.planeSet.firstOutside? aspects with
      | some a => exact .error _ t
      | none =>
          cases aspects.any with
          | false => exact .ok .none t
          | true =>
              rcases (h image hi).coverage?_cases with ⟨hc, hc'⟩ | ⟨covers, covers', hc, hc'⟩
              · simp only [if_true, hc, hc']
                exact .ok .none t
              · obtain ⟨hrel, htracker⟩ := resembles_clear hi ha covers covers' b
                simp only [if_true, hc, hc', htracker]
                exact .ok hrel _

theorem clearEach_mirrors {e : Extent} {rects rects' : List (Option Rect)}
    (h : List.Forall₂ (Rect.TouchAlike e) rects rects') (hi : t.image? id = some image)
    (he : image.extent = e) (aspects : PerAspect Bool) (b : Bool) :
    Mirrors (List.Forall₂ Request.Resembles) b (clearEach id aspects rects t)
      (clearEach id aspects rects' (t.withDiscards b)) := by
  induction h generalizing t image with
  | nil => exact .ok .nil t
  | @cons rect rect' rects rects' hrect _ ih =>
      have htouch : ∀ image, t.image? id = some image →
          Rect.TouchAlike image.extent rect rect' := by
        intro image' hi'
        obtain rfl := Option.some_inj.mp (hi.symm.trans hi')
        rwa [he]
      have hfirst := record_clear_mirrors htouch aspects b
      have hholdings : (t.record id (.clear aspects rect)).2.holdings = t.holdings :=
        t.holdings_act (.record id (.clear aspects rect))
      obtain ⟨image', hi', hblank⟩ := exists_image?_of_holdings hholdings hi
      -- the image keeps its size, so the other rectangles reach it alike as before
      have he' : image'.extent = e := (congrArg TrackedImage.extent hblank :).trans he
      simp only [clearEach]
      generalize t.record id (.clear aspects rect) = o,
        (t.withDiscards b).record id (.clear aspects rect') = o' at hfirst hi' ⊢
      cases hfirst with
      | error e t₁ => exact .error e t₁
      | ok hrequest t₁ =>
          have hi₁ : t₁.image? id = some image' := hi'
          have hrest := ih hi₁ he'
          simp only
          generalize clearEach id aspects rects t₁ = o,
            clearEach id aspects rects' (t₁.withDiscards b) = o' at hrest ⊢
          cases hrest with
          | error e t₂ => exact .error e t₂
          | ok hrequests t₂ => exact .ok (List.rel_append (forall₂_toList hrequest) hrequests) t₂

theorem clearView_mirrors {rects rects' : List Rect}
    (h : ∀ image, t.image? id = some image → List.Forall₂ (Rect.TouchAlike image.extent)
      (Rect.orEverywhere rects) (Rect.orEverywhere rects')) (flags : ViewFlags) (b : Bool) :
    Mirrors (List.Forall₂ Request.Resembles) b (t.clearView id flags rects)
      ((t.withDiscards b).clearView id flags rects') := by
  have himage : (t.withDiscards b).image? id = t.image? id := rfl
  rw [clearView, clearView, lookup, lookup, himage]
  cases hi : t.image? id with
  | none => exact .error _ t
  | some image => exact clearEach_mirrors (h image hi) hi rfl _ b

/-! ### Runs -/

/-- Whether a call is the same as another one, but for the rectangles of clears.  A rectangle that
reaches some texel of the image may stand for any other that does. -/
inductive Retouches (t : Tracker) : Call → Call → Prop where
  | same (call : Call) : t.Retouches call call
  | record (id : ImageId) (aspects : PerAspect Bool) {rect rect' : Option Rect}
      (h : ∀ image, t.image? id = some image → Rect.TouchAlike image.extent rect rect') :
      t.Retouches (.record id (.clear aspects rect)) (.record id (.clear aspects rect'))
  | clearView (id : ImageId) (flags : ViewFlags) {rects rects' : List Rect}
      (h : ∀ image, t.image? id = some image → List.Forall₂ (Rect.TouchAlike image.extent)
        (Rect.orEverywhere rects) (Rect.orEverywhere rects')) :
      t.Retouches (.clearView id flags rects) (.clearView id flags rects')

/-- Whether calls are the same as other ones, one after another, but for the rectangles of
clears. -/
inductive Redraws : Tracker → List Call → List Call → Prop where
  | nil (t : Tracker) : Redraws t [] []
  | cons {t : Tracker} {call call' : Call} {calls calls' : List Call}
      (h : t.Retouches call call') (hrest : Redraws (t.step call).2 calls calls') :
      Redraws t (call :: calls) (call' :: calls')

theorem report_mirrors {α : Type} {R : α → α → Prop} {b : Bool} {o o' : Outcome α}
    (h : Mirrors R b o o') {f : α → Answer} (hf : ∀ x x', R x x' → (f x).Resembles (f x')) :
    (report f o).1.Resembles (report f o').1 ∧
      (report f o').2 = (report f o).2.withDiscards b := by
  cases h with
  | error e t => exact ⟨.same _, rfl⟩
  | ok h t => exact ⟨hf _ _ h, rfl⟩

/-- A call leaves the same behind on both trackers, and the answers differ in nothing but what is
dropped for a clear. -/
theorem step_mirrors {call call' : Call} (h : t.Retouches call call') (b : Bool) :
    (t.step call).1.Resembles ((t.withDiscards b).step call').1 ∧
      ((t.withDiscards b).step call').2 = (t.step call).2.withDiscards b := by
  cases h with
  | record id aspects h =>
      exact report_mirrors (record_clear_mirrors h aspects b) fun _ _ => .recorded
  | clearView id flags h =>
      exact report_mirrors (clearView_mirrors h flags b) fun _ _ => .requests
  | same =>
      cases hcall : call.isClear with
      | false =>
          rw [step_withDiscards t b hcall]
          exact ⟨.same _, rfl⟩
      | true =>
          cases call with
          | record id command =>
              cases command with
              | clear aspects rect =>
                  have hsame : ∀ image, t.image? id = some image →
                    Rect.TouchAlike image.extent rect rect := fun _ _ => rfl
                  exact report_mirrors (record_clear_mirrors hsame aspects b) fun _ _ => .recorded
              | draw _ | discard _ | transition _ =>
                  exact absurd hcall (by simp [Call.isClear, Command.isClear])
          | clearView id flags rects =>
              have hsame : ∀ image, t.image? id = some image →
                  List.Forall₂ (Rect.TouchAlike image.extent) (Rect.orEverywhere rects)
                    (Rect.orEverywhere rects) :=
                fun _ _ => List.forall₂_same.mpr fun _ _ => rfl
              exact report_mirrors (clearView_mirrors hsame flags b) fun _ _ => .requests
          | register _ | unregister _ | seed _ _ | closePass | finish | resourceBarrier _ _ _
          | discardSubresources _ _ _ _ | drawPipeline _ _ _ =>
              exact absurd hcall (by simp [Call.isClear])

theorem after_mirrors {calls calls' : List Call} (h : t.Redraws calls calls') (b : Bool) :
    (t.withDiscards b).after calls' = (t.after calls).withDiscards b := by
  induction h with
  | nil t => rfl
  | @cons t call call' calls calls' h _ ih =>
      rw [after_cons, after_cons, (step_mirrors h b).2]
      exact ih

/-- What clears may drop makes no difference to anything else.  Two trackers are the same but for
that choice and are given the same calls, but for rectangles of clears that reach some texel in
either run.  Then they stay the same, and so do their answers to the next call.

Only in the requests for a clear does it show which changes drop contents, and of two barriers that
differ, one drops what the other one keeps. -/
theorem discards_transparent {calls calls' : List Call} (h : t.Redraws calls calls') (b : Bool) :
    let t' := t.after calls
    let s' := (t.withDiscards b).after calls'
    s' = t'.withDiscards b ∧ ∀ call call', t'.Retouches call call' →
      (t'.step call).1.Resembles (s'.step call').1 ∧
        (call.isClear = false → (s'.step call').1 = (t'.step call).1) := by
  intro t' s'
  have hs : s' = t'.withDiscards b := after_mirrors h b
  refine ⟨hs, fun call call' hcall => ⟨?_, fun hclear => ?_⟩⟩
  · rw [hs]
    exact (step_mirrors hcall b).1
  · rw [hs]
    cases hcall with
    | same => rw [step_withDiscards t' b hclear]
    | record => exact absurd hclear (by simp [Call.isClear, Command.isClear])
    | clearView => exact absurd hclear (by simp [Call.isClear])

/-- An image of 64 by 64 texels with contents that were read. -/
def readImage : Tracker :=
  (empty {}).after
    [.register { handle := 7, format := 129, extent := ⟨64, 64⟩, initial := .both .readOnly }]

/-- A clear of both aspects of the image. -/
def clearRead (rect : Option Rect) : Call := .record ⟨0, 0⟩ (.clear (.both true) rect)

theorem retouches_readImage :
    readImage.Retouches (clearRead none) (clearRead (some ⟨⟨8, 8⟩, ⟨8, 8⟩⟩)) := by
  have hsize : (readImage.image? ⟨0, 0⟩).all fun image => image.extent = ⟨64, 64⟩ := by decide
  refine .record ⟨0, 0⟩ (.both true) fun image hi => ?_
  rw [hi, Option.all_some, decide_eq_true_eq] at hsize
  rw [hsize, Rect.TouchAlike]
  decide

theorem discards_transparent_readImage :
    let t' := readImage.after [clearRead none]
    let s' := (readImage.withDiscards false).after [clearRead (some ⟨⟨8, 8⟩, ⟨8, 8⟩⟩)]
    s' = t'.withDiscards false ∧ ∀ call call', t'.Retouches call call' →
      (t'.step call).1.Resembles (s'.step call').1 ∧
        (call.isClear = false → (s'.step call').1 = (t'.step call).1) :=
  discards_transparent (.cons retouches_readImage (.nil _)) false

/-- The answers to the two clears do differ. -/
example : (readImage.step (clearRead none)).1 ≠
    ((readImage.withDiscards false).step (clearRead none)).1 := by decide

end Tracker

end DepthStencil
