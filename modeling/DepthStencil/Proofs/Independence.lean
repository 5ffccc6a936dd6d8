import DepthStencil.Proofs.Rectangles
import DepthStencil.Proofs.SingleImage

/-! # Depth and stencil are independent

What a tracker does with one aspect of an image does not depend on the other aspect.  To say so, an
image with both aspects is compared with two images that have one aspect each and see only what the
commands say of it (`ImageCall.only`).

* What a call needs of an aspect follows from the level of the aspect and the size of the image
  (`ImageCall.get_needs`), so an aspect is needed for the same in both images.
* If an image and one with a single aspect agree on the aspect, they still do after a call
  (`TrackedImage.Agrees.settle`), and with separate layouts the barriers of the aspect are the same
  (`TrackedImage.Agrees.barriers`).
* By induction on the calls everything that is tracked of an aspect is the same in both trackers
  (`Tracker.aspects_independent`). -/

namespace DepthStencil

/-! ### Leaving out an aspect -/

/-- The command without what it says of the other aspect. -/
def Command.only (a : Aspect) : Command → Command
  | draw uses => .draw (.ofFn fun b => (uses.get b).mask (b = a))
  | clear aspects rect => .clear (.ofFn fun b => aspects.get b && b = a) rect
  | discard aspects => .discard (.ofFn fun b => aspects.get b && b = a)
  | transition targets => .transition (.ofFn fun b => if b = a then targets.get b else none)

/-- The call without what its command says of the other aspect. -/
def ImageCall.only (a : Aspect) : ImageCall → ImageCall
  | seed levels => .seed levels
  | record command => .record (command.only a)
  | finish => .finish

theorem Command.eq_of_named_only {command : Command} {a b : Aspect}
    (h : (command.only a).named.get b = true) : b = a := by
  by_contra hne
  cases command with
  | draw uses =>
      rw [only, named, PerAspect.get_map, PerAspect.get_ofFn] at h
      exact absurd h (by simp [hne, Use.mask, Use.reads])
  | clear aspects rect =>
      rw [only, named, PerAspect.get_ofFn] at h
      exact absurd h (by simp [hne])
  | discard aspects =>
      rw [only, named, PerAspect.get_ofFn] at h
      exact absurd h (by simp [hne])
  | transition targets =>
      rw [only, named, PerAspect.get_map, PerAspect.get_ofFn] at h
      exact absurd h (by simp [hne])

/-! ### Needs of one aspect -/

/-- What a command needs of an aspect, if an image of the given size has it. -/
def Command.needOf (policy : Policy) (e : Extent) (a : Aspect) : Command → Need
  | draw uses => (uses.get a).need
  | clear aspects rect =>
    if aspects.get a then
      (Rect.coverage? e rect).elim .none fun covers =>
        .toWrite (covers && policy.discardOnFullClear)
    else .none
  | discard aspects => if aspects.get a then .toWrite true else .none
  | transition targets => (targets.get a).elim .none .toBe

/-- What is needed of an aspect at a level to bring it to rest. -/
def Policy.restNeed (policy : Policy) (level : Level) : Need :=
  if policy.relaxOnFinish && policy.resting ≠ .writable && level = .writable then
    .toBe policy.resting
  else .none

/-- What a call needs of an aspect at a level, if an image of the given size has it. -/
def ImageCall.needOf (policy : Policy) (e : Extent) (level : Level) (a : Aspect) :
    ImageCall → Need
  | seed _ => .none
  | record command => command.needOf policy e a
  | finish => policy.restNeed level

theorem Command.needOf_only (policy : Policy) (e : Extent) (a : Aspect) (command : Command) :
    (command.only a).needOf policy e a = command.needOf policy e a := by
  cases command with
  | draw uses => simp [only, needOf, Use.mask]
  | clear aspects rect => simp [only, needOf]
  | discard aspects => simp [only, needOf]
  | transition targets => simp [only, needOf]

/-- An aspect is brought to rest exactly if it can be written, by a policy that relaxes at all. -/
theorem Policy.get_restTargets? (policy : Policy) (levels : PerAspect (Option Level))
    (a : Aspect) : (policy.restTargets? levels).bind (fun targets => targets.get a) =
      if policy.relaxOnFinish && policy.resting ≠ .writable && levels.get a = some .writable then
        some policy.resting
      else none := by
  have htarget : (levels.map policy.restTarget).get a =
      if levels.get a = some .writable then some policy.resting else none :=
    PerAspect.get_map _ levels a
  by_cases hl : levels.get a = some .writable
  · have hmarked : ((levels.map policy.restTarget).map Option.isSome).get a = true := by
      rw [PerAspect.get_map, htarget, if_pos hl]
      rfl
    have hany := PerAspect.any_of_get hmarked
    simp only [restTargets?, hany, hl, decide_true, Bool.and_true]
    split
    · rw [Option.bind_some, htarget, if_pos hl]
    · rfl
  · rw [if_neg hl] at htarget
    rw [if_neg (by simp [hl]), restTargets?]
    split
    · exact htarget
    · rfl

theorem ImageCall.needOf_only (policy : Policy) (e : Extent) (level : Level) (a : Aspect)
    (call : ImageCall) :
    (call.only a).needOf policy e level a = call.needOf policy e level a := by
  cases call with
  | seed levels => rfl
  | record command => exact command.needOf_only policy e a
  | finish => rfl

namespace TrackedImage

variable {image : TrackedImage} {policy : Policy} {id : ImageId} {command : Command}

theorem needs_record (hm : image.missing? command = none) :
    (Action.record id command).needs policy id image =
      (image.normalize command).elim (.both .none) fun x => x.needs policy := by
  rw [Action.needs, Action.accepted?, if_pos rfl, accept, hm]
  rfl

theorem get_needs_record (hm : image.missing? command = none) (a : Aspect) :
    ((Action.record id command).needs policy id image).get a =
      if image.has a then command.needOf policy image.extent a else .none := by
  rw [needs_record hm]
  cases command with
  | draw uses =>
      rw [normalize, Option.elim_some, Accepted.needs, Command.get_needs_draw, PerAspect.get_ofFn]
      cases image.has a <;> simp [Command.needOf, Use.mask, Use.need]
  | clear aspects rect =>
      cases hmarked : aspects.get a with
      | true =>
          have hhas : image.has a = true := PlaneSet.has_of_firstOutside? hm hmarked
          rw [normalize, if_pos (PerAspect.any_of_get hmarked), if_pos hhas, Command.needOf,
            if_pos hmarked]
          cases rect with
          | none =>
              rw [acceptClear, Option.elim_some, Accepted.needs, Command.get_needs_clear,
                if_pos hmarked]
              rfl
          | some r =>
              rw [acceptClear, Rect.coverage?]
              cases r.clip? image.extent with
              | none => exact PerAspect.get_both _ a
              | some clipped =>
                  rw [Option.map_some, Option.map_some, Option.elim_some, Option.elim_some,
                    Accepted.needs, Command.get_needs_clear, if_pos hmarked]
      | false =>
          have hnone : (Command.clear aspects rect).needOf policy image.extent a = .none := by
            simp [Command.needOf, hmarked]
          rw [hnone, ite_self]
          cases hn : image.normalize (.clear aspects rect) with
          | none => exact PerAspect.get_both _ a
          | some x =>
              obtain ⟨rect', hc⟩ := command_of_normalize_clear hn
              rw [Option.elim_some, Accepted.needs, hc, Command.get_needs_clear, hmarked,
                if_neg (by simp)]
  | discard aspects =>
      cases hmarked : aspects.get a with
      | true =>
          have hhas : image.has a = true := PlaneSet.has_of_firstOutside? hm hmarked
          rw [normalize, if_pos (PerAspect.any_of_get hmarked), if_pos hhas, Command.needOf,
            if_pos hmarked, Option.elim_some, Accepted.needs, Command.get_needs_discard,
            if_pos hmarked]
      | false =>
          have hnone : (Command.discard aspects).needOf policy image.extent a = .none := by
            simp [Command.needOf, hmarked]
          rw [hnone, ite_self, normalize]
          split
          · rw [Option.elim_some, Accepted.needs, Command.get_needs_discard, hmarked,
              if_neg (by simp)]
          · exact PerAspect.get_both _ a
  | transition targets =>
      rw [normalize, Option.elim_some, Accepted.needs, Command.get_needs_transition,
        Command.needOf]
      split
      · rfl
      · rename_i hhas
        cases htarget : targets.get a with
        | none => rfl
        | some level =>
            refine absurd (PlaneSet.has_of_firstOutside? hm ?_) hhas
            rw [Command.named, PerAspect.get_map, htarget]
            rfl

theorem get_needs_relax (image : TrackedImage) (policy : Policy) (id : ImageId) (a : Aspect) :
    ((Action.relax id).needs policy id image).get a =
      if image.has a then policy.restNeed (image.levels.get a) else .none := by
  have hneed : ((Action.relax id).needs policy id image).get a =
      ((policy.restTargets? image.presentLevels).bind fun targets => targets.get a).elim
        .none .toBe := by
    rw [Action.needs, Action.accepted?, if_pos rfl]
    cases policy.restTargets? image.presentLevels with
    | none => exact PerAspect.get_both _ a
    | some targets => exact Command.get_needs_transition false a targets
  rw [hneed, Policy.get_restTargets?, presentLevels, PlaneSet.restrict, PerAspect.get_ofFn,
    Policy.restNeed, has]
  cases image.planeSet.has a with
  | true =>
      simp only [if_true, Option.some_inj]
      split <;> rfl
  | false => simp

end TrackedImage

/-! ### Barriers of one aspect -/

theorem PlaneSet.flags_single {a a' : Aspect} : (single a').flags = a.flag ↔ a' = a := by
  cases a <;> cases a' <;> decide

theorem Aspect.filterMap_all {α : Type} {f : Aspect → Option α} {a : Aspect}
    (h : ∀ b, b ≠ a → f b = none) : Aspect.all.filterMap f = (f a).toList := by
  cases a with
  | depth => cases hf : f .depth <;> simp [Aspect.all, hf, h]
  | stencil => cases hf : f .stencil <;> simp [Aspect.all, hf, h]

namespace TrackedImage

/-- The barrier of one aspect that has a layout of its own. -/
def barrierOf? (image : TrackedImage) (needs : PerAspect Need) (a : Aspect) :
    Option ImageBarrier :=
  ((image.changes needs).get a).bind fun c => (c.step? a).map fun step =>
    ⟨image.dependency .separate needs a, step, image.handle, .all⟩

variable {image part : TrackedImage} {needs needs' : PerAspect Need} {a : Aspect}

theorem barriers_separate (image : TrackedImage) (needs : PerAspect Need) :
    image.barriers .separate needs = Aspect.all.filterMap (image.barrierOf? needs) := by
  rw [barriers, Request.imageBarriers, steps_request, steps, LayoutScheme.steps,
    List.map_filterMap]
  refine congrArg (Aspect.all.filterMap ·) (funext fun a => ?_)
  rw [barrierOf?]
  cases hc : (image.changes needs).get a with
  | none => rfl
  | some c =>
      rw [Option.bind_some, Option.bind_some]
      cases hstep : c.step? a with
      | none => rfl
      | some step =>
          rw [Option.map_some, Option.map_some, stepDependency_separate hc hstep]
          rfl

theorem planes_of_barrierOf? {b : ImageBarrier} (h : image.barrierOf? needs a = some b) :
    b.step.planes = .single a := by
  obtain ⟨c, -, hb⟩ := Option.bind_eq_some_iff.mp h
  obtain ⟨step, hstep, rfl⟩ := Option.map_eq_some_iff.mp hb
  rw [(LayoutStep.between?_eq_some.mp hstep).2.2]

/-- With separate layouts the barriers of one aspect stand in a request by themselves. -/
theorem filter_barriers_separate (image : TrackedImage) (needs : PerAspect Need) (a : Aspect) :
    (image.barriers .separate needs).filter (fun b => b.step.planes.flags = a.flag) =
      (image.barrierOf? needs a).toList := by
  have hkept : ∀ a', (image.barrierOf? needs a').filter
      (fun b => decide (b.step.planes.flags = a.flag)) =
        if a' = a then image.barrierOf? needs a else none := by
    intro a'
    by_cases ha : a' = a
    · rw [if_pos ha, ha]
      cases hb : image.barrierOf? needs a with
      | none => rfl
      | some b => simp [planes_of_barrierOf? hb, PlaneSet.flags_single]
    · rw [if_neg ha]
      cases hb : image.barrierOf? needs a' with
      | none => rfl
      | some b => simp [planes_of_barrierOf? hb, PlaneSet.flags_single, ha]
  rw [barriers_separate, List.filter_filterMap]
  simp only [hkept]
  rw [Aspect.filterMap_all fun b hb => if_neg hb, if_pos rfl]

/-! ### Agreement on one aspect -/

/-- Whether an image and one with a single aspect agree on that aspect. -/
structure Agrees (image part : TrackedImage) (scheme : LayoutScheme) (a : Aspect) : Prop where
  planes : image.planeSet = .depthStencil
  single : part.planeSet = .single a
  handle : part.handle = image.handle
  extent : part.extent = image.extent
  level : part.levels.get a = image.levels.get a
  history : scheme = .separate → part.histories.get a = image.histories.get a

variable {scheme : LayoutScheme}

theorem Agrees.has (h : image.Agrees part scheme a) (b : Aspect) : image.has b = true := by
  rw [TrackedImage.has, h.planes]
  rfl

theorem Agrees.has_part (h : image.Agrees part scheme a) (b : Aspect) :
    part.has b = decide (a = b) := by
  rw [TrackedImage.has, h.single, PlaneSet.has_single]

/-- What is needed of an image with a single aspect, if `needs` is needed of one with both. -/
structure NeedsOnly (a : Aspect) (needs needs' : PerAspect Need) : Prop where
  same : needs'.get a = needs.get a
  other : ∀ b, b ≠ a → needs'.get b = .none

theorem Agrees.seed (h : image.Agrees part scheme a) (levels : PerAspect Level) :
    (image.seed levels).Agrees (part.seed levels) scheme a := by
  have hlevel : (part.seed levels).levels.get a = (image.seed levels).levels.get a := by
    simp only [TrackedImage.seed, PerAspect.get_ofFn]
    rw [h.has a, h.has_part a, decide_eq_true rfl]
  refine ⟨h.planes, h.single, h.handle, h.extent, hlevel, fun _ => ?_⟩
  exact (PerAspect.get_map _ _ a).trans
    ((congrArg History.ofLevel hlevel).trans (PerAspect.get_map _ _ a).symm)

theorem effect_separate_congr (hneed : needs'.get a = needs.get a)
    (hlevel : part.levels.get a = image.levels.get a) :
    part.effect .separate needs' a = image.effect .separate needs a := by
  simp only [effect, get_changes, hneed, hlevel, sharesLayout, isCarried]
  simp

variable (hneeds : NeedsOnly a needs needs')

namespace NeedsOnly

include hneeds

theorem change (hlevel : part.levels.get a = image.levels.get a) :
    (part.changes needs').get a = (image.changes needs).get a := by
  rw [get_changes, get_changes, hneeds.same, hlevel]

theorem change_other (image : TrackedImage) {b : Aspect} (hb : b ≠ a) :
    (image.changes needs').get b = none := by
  rw [get_changes, hneeds.other b hb]
  rfl

theorem level (hlevel : part.levels.get a = image.levels.get a) :
    (part.settledLevels needs').get a = (image.settledLevels needs).get a := by
  rw [get_settledLevels, get_settledLevels, hneeds.change hlevel, hlevel]

theorem history (hlevel : part.levels.get a = image.levels.get a)
    (hhistory : part.histories.get a = image.histories.get a) :
    (part.settle .separate needs').histories.get a =
      (image.settle .separate needs).histories.get a := by
  rw [get_histories_settle, get_histories_settle, effect_separate_congr hneeds.same hlevel,
    hhistory]

/-- With separate layouts needs of one aspect ask for the barrier of that aspect alone. -/
theorem barriers (hlevel : part.levels.get a = image.levels.get a)
    (hhistory : part.histories.get a = image.histories.get a)
    (hhandle : part.handle = image.handle) :
    part.barriers .separate needs' = (image.barrierOf? needs a).toList := by
  have hsame : part.barrierOf? needs' a = image.barrierOf? needs a := by
    rw [barrierOf?, barrierOf?, hneeds.change hlevel, dependency, dependency,
      effect_separate_congr hneeds.same hlevel, hhistory, hhandle]
  have hother : ∀ b, b ≠ a → part.barrierOf? needs' b = none := by
    intro b hb
    rw [barrierOf?, hneeds.change_other part hb]
    rfl
  rw [barriers_separate, Aspect.filterMap_all hother, hsame]

theorem decays (hlevel : part.levels.get a = image.levels.get a) :
    part.decays needs' = if ((image.changes needs).get a).any Change.relaxes then 1 else 0 := by
  rw [TrackedImage.decays, PerAspect.count_eq, ← hneeds.change hlevel]
  cases a <;> simp [hneeds.change_other]

end NeedsOnly

include hneeds in
theorem Agrees.settle (h : image.Agrees part scheme a) :
    (image.settle scheme needs).Agrees (part.settle scheme needs') scheme a := by
  refine ⟨h.planes, h.single, h.handle, h.extent, hneeds.level h.level, fun hscheme => ?_⟩
  subst hscheme
  exact hneeds.history h.level (h.history rfl)

include hneeds in
theorem Agrees.barriers (h : image.Agrees part .separate a) :
    (image.barriers .separate needs).filter (fun b => b.step.planes.flags = a.flag) =
      part.barriers .separate needs' := by
  rw [filter_barriers_separate, hneeds.barriers h.level (h.history rfl) h.handle]

end TrackedImage

/-! ### Agreement through calls -/

namespace ImageCall

/-- A call needs of an aspect what it says of it, at the level the aspect is at. -/
theorem get_needs {image : TrackedImage} {call : ImageCall}
    (hm : ∀ command, call = .record command → image.missing? command = none) (policy : Policy)
    (a : Aspect) : (call.needs policy image).get a =
      if image.has a then call.needOf policy image.extent (image.levels.get a) a else .none := by
  cases call with
  | seed levels => exact (PerAspect.get_both _ a).trans (ite_self _).symm
  | record command => exact TrackedImage.get_needs_record (hm command rfl) a
  | finish => exact image.get_needs_relax policy .first a

variable {image part : TrackedImage} {scheme : LayoutScheme} {a : Aspect}

/-- If an image and one with a single aspect agree on the aspect, calls need the same of it. -/
theorem needsOnly (h : image.Agrees part scheme a) (policy : Policy) (call : ImageCall) :
    TrackedImage.NeedsOnly a (call.needs policy image) ((call.only a).needs policy part) := by
  have hwhole : ∀ command, call = .record command → image.missing? command = none :=
    fun command _ => TrackedImage.missing?_eq_none fun b _ => h.has b
  have hpart : ∀ command, call.only a = .record command → part.missing? command = none := by
    intro command hcommand
    cases call with
    | seed levels => exact absurd hcommand (by simp [only])
    | finish => exact absurd hcommand (by simp [only])
    | record command' =>
        obtain rfl : command'.only a = command := ImageCall.record.inj hcommand
        refine TrackedImage.missing?_eq_none fun b hb => ?_
        rw [h.has_part b, Command.eq_of_named_only hb, decide_eq_true rfl]
  constructor
  · rw [get_needs hpart, get_needs hwhole, h.has a, h.has_part a, decide_eq_true rfl, if_pos rfl,
      if_pos rfl, needOf_only, h.extent, h.level]
  · intro b hb
    rw [get_needs hpart, h.has_part b, decide_eq_false (Ne.symm hb), if_neg (by simp)]

theorem agrees_entered (h : image.Agrees part scheme a) (call : ImageCall) :
    (call.entered image).Agrees ((call.only a).entered part) scheme a := by
  cases call with
  | seed levels => exact h.seed levels
  | record command => exact h
  | finish => exact h

end ImageCall

/-! ### Runs -/

/-- Whether one image to track has both aspects, and two others are the same with one aspect
each. -/
structure Registration.Splits (whole : Registration) (part : Aspect → Registration) : Prop where
  both : ∃ format, Format.ofCode? whole.format = some format ∧ format.planeSet = .depthStencil
  single : ∀ a, ∃ format, Format.ofCode? (part a).format = some format ∧
    format.planeSet = .single a
  handle : ∀ a, (part a).handle = whole.handle
  extent : ∀ a, (part a).extent = whole.extent
  initial : ∀ a, (part a).initial = whole.initial

namespace Tracker

/-- The barriers that a run asks for, in the order in which they are recorded. -/
def barriers (t : Tracker) (calls : List Call) : List ImageBarrier :=
  (t.run calls).flatMap fun result => result.1.requestList.flatMap Request.imageBarriers

/-- The calls that track an image and go on with it. -/
def session (info : Registration) (calls : List ImageCall) : List Call :=
  .register info :: calls.map ImageCall.toCall

/-- Whether a tracker of an image with both aspects and two trackers of single aspects agree. -/
structure Splits (policy : Policy) (t : Tracker) (s : Aspect → Tracker) : Prop where
  images : ∃ image, t.Tracks policy image ∧
    ∀ a, ∃ part, (s a).Tracks policy part ∧ image.Agrees part policy.scheme a
  decays : t.stats.decays = (s .depth).stats.decays + (s .stencil).stats.decays

variable {policy : Policy} {t : Tracker} {s : Aspect → Tracker}

/-- A call leaves trackers in agreement, and asks for the same barriers of each aspect. -/
theorem Splits.step (h : Splits policy t s) (call : ImageCall) :
    Splits policy (t.step call.toCall).2 (fun a => ((s a).step (call.only a).toCall).2) ∧
      (policy.scheme = .separate → ∀ a,
        ((t.step call.toCall).1.requestList.flatMap Request.imageBarriers).filter
            (fun b => b.step.planes.flags = a.flag) =
          ((s a).step (call.only a).toCall).1.requestList.flatMap Request.imageBarriers) := by
  obtain ⟨image, htracks, hparts⟩ := h.images
  have hwhole := step_tracks htracks call
  have hpart : ∀ a, ∃ entered needs', (call.entered image).Agrees entered policy.scheme a ∧
      TrackedImage.NeedsOnly a (call.needs policy image) needs' ∧
        Turns policy (s a) entered needs' ((s a).step (call.only a).toCall).1.requestList
          ((s a).step (call.only a).toCall).2 := by
    intro a
    obtain ⟨part, htracks, hagrees⟩ := hparts a
    exact ⟨_, _, ImageCall.agrees_entered hagrees call, ImageCall.needsOnly hagrees policy call,
      step_tracks htracks (call.only a)⟩
  refine ⟨⟨⟨_, hwhole.tracks, fun a => ?_⟩, ?_⟩, fun hscheme a => ?_⟩
  · obtain ⟨entered, needs', hagrees, hneeds, hturns⟩ := hpart a
    exact ⟨_, hturns.tracks, hagrees.settle hneeds⟩
  · obtain ⟨_, _, hdepth, hneeds, hturns⟩ := hpart .depth
    obtain ⟨_, _, hstencil, hneeds', hturns'⟩ := hpart .stencil
    have hsum := h.decays
    rw [hwhole.decays, hturns.decays, hturns'.decays, hneeds.decays hdepth.level,
      hneeds'.decays hstencil.level, TrackedImage.decays, PerAspect.count_eq]
    omega
  · obtain ⟨entered, needs', hagrees, hneeds, hturns⟩ := hpart a
    rw [hwhole.barriers, hturns.barriers, hscheme]
    rw [hscheme] at hagrees
    exact hagrees.barriers hneeds

theorem barriers_cons (t : Tracker) (call : Call) (calls : List Call) :
    t.barriers (call :: calls) =
      (t.step call).1.requestList.flatMap Request.imageBarriers ++ (t.step call).2.barriers calls :=
  rfl

theorem Splits.run (h : Splits policy t s) (calls : List ImageCall) :
    Splits policy (t.after (calls.map ImageCall.toCall))
        (fun a => (s a).after ((calls.map (ImageCall.only a)).map ImageCall.toCall)) ∧
      (policy.scheme = .separate → ∀ a,
        (t.barriers (calls.map ImageCall.toCall)).filter
            (fun b => b.step.planes.flags = a.flag) =
          (s a).barriers ((calls.map (ImageCall.only a)).map ImageCall.toCall)) := by
  induction calls generalizing t s with
  | nil => exact ⟨h, fun _ _ => rfl⟩
  | cons call calls ih =>
      obtain ⟨hnext, hbarriers⟩ := h.step call
      obtain ⟨hafter, hrest⟩ := ih hnext
      refine ⟨hafter, fun hscheme a => ?_⟩
      simp only [List.map_cons]
      rw [barriers_cons, barriers_cons, List.filter_append, hbarriers hscheme, hrest hscheme]

theorem splits_register (policy : Policy) {whole : Registration} {part : Aspect → Registration}
    (h : whole.Splits part) :
    Splits policy ((empty policy).register whole).2
      (fun a => ((empty policy).register (part a)).2) := by
  obtain ⟨format, hformat, hboth⟩ := h.both
  refine ⟨⟨_, tracks_register policy hformat, fun a => ?_⟩, ?_⟩
  · obtain ⟨format', hformat', hsingle⟩ := h.single a
    refine ⟨_, tracks_register policy hformat', ?_⟩
    rw [TrackedImage.ofRegistration, TrackedImage.ofRegistration, h.initial a]
    refine TrackedImage.Agrees.seed ?_ whole.initial
    exact ⟨hboth, hsingle, h.handle a, h.extent a, rfl, fun _ => rfl⟩
  · have hstats : ∀ info, ((empty policy).register info).2.stats.decays = 0 := by
      intro info
      obtain ⟨registry, hregistry⟩ := (empty policy).exists_register_eq info
      rw [hregistry]
      rfl
    rw [hstats, hstats, hstats]

theorem barriers_session (policy : Policy) (info : Registration) (calls : List ImageCall) :
    (empty policy).barriers (session info calls) =
      ((empty policy).register info).2.barriers (calls.map ImageCall.toCall) := by
  rw [session, barriers_cons, requestList_step]
  rfl

/-- What is tracked of one aspect does not depend on the other one.  Two images with one aspect each
that see only what the calls say of their aspect come to the same levels, and together they give up
writing as often as the image with both aspects.  With separate layouts the histories and the
barriers of each aspect are the same as well. -/
theorem aspects_independent (policy : Policy) {whole : Registration}
    {part : Aspect → Registration} (h : whole.Splits part) (calls : List ImageCall) :
    let t := (empty policy).after (session whole calls)
    let s := fun a => (empty policy).after (session (part a) (calls.map (ImageCall.only a)))
    (∀ a, ∃ image image', t.image? .first = some image ∧ (s a).image? .first = some image' ∧
        image'.levels.get a = image.levels.get a ∧
        (policy.scheme = .separate → image'.histories.get a = image.histories.get a)) ∧
      t.stats.decays = (s .depth).stats.decays + (s .stencil).stats.decays ∧
      (policy.scheme = .separate → ∀ a,
        ((empty policy).barriers (session whole calls)).filter
            (fun b => b.step.planes.flags = a.flag) =
          (empty policy).barriers (session (part a) (calls.map (ImageCall.only a)))) := by
  intro t s
  obtain ⟨hsplits, hbarriers⟩ := (splits_register policy h).run calls
  obtain ⟨image, htracks, hparts⟩ := hsplits.images
  refine ⟨fun a => ?_, hsplits.decays, fun hscheme a => ?_⟩
  · obtain ⟨part, htracks', hagrees⟩ := hparts a
    obtain ⟨image, hi, rfl⟩ := exists_image?_of_beliefs htracks.beliefs_first
    obtain ⟨image', hi', rfl⟩ := exists_image?_of_beliefs htracks'.beliefs_first
    exact ⟨image, image', hi, hi', hagrees.level, hagrees.history⟩
  · rw [barriers_session, barriers_session]
    exact hbarriers hscheme a

/-- An image of a format with both aspects. -/
def packed : Registration := { handle := 7, format := 129, extent := ⟨64, 64⟩ }

/-- The same image with one aspect alone. -/
def plane : Aspect → Registration
  | .depth => { handle := 7, format := 125, extent := ⟨64, 64⟩ }
  | .stencil => { handle := 7, format := 127, extent := ⟨64, 64⟩ }

theorem splits_packed : packed.Splits plane where
  both := ⟨.d24s8, rfl, rfl⟩
  single a := by
    cases a with
    | depth => exact ⟨.x8d24, rfl, rfl⟩
    | stencil => exact ⟨.s8, rfl, rfl⟩
  handle a := by cases a <;> rfl
  extent a := by cases a <;> rfl
  initial a := by cases a <;> rfl

/-- A draw that writes depth and tests stencil, and the end of the recording. -/
def drawnDepth : List ImageCall := [.record (.draw ⟨⟨true, true⟩, ⟨true, false⟩⟩), .finish]

theorem aspects_independent_packed :
    packed.Splits plane ∧
      let t := (empty { scheme := .separate }).after (session packed drawnDepth)
      let s := fun a =>
        (empty { scheme := .separate }).after
          (session (plane a) (drawnDepth.map (ImageCall.only a)))
      (∀ a, ∃ image image', t.image? .first = some image ∧ (s a).image? .first = some image' ∧
          image'.levels.get a = image.levels.get a ∧
          (LayoutScheme.separate = .separate →
            image'.histories.get a = image.histories.get a)) ∧
        t.stats.decays = (s .depth).stats.decays + (s .stencil).stats.decays ∧
        (LayoutScheme.separate = .separate → ∀ a,
          ((empty { scheme := .separate }).barriers (session packed drawnDepth)).filter
              (fun b => b.step.planes.flags = a.flag) =
            (empty { scheme := .separate }).barriers
              (session (plane a) (drawnDepth.map (ImageCall.only a)))) :=
  ⟨splits_packed, aspects_independent { scheme := .separate } splits_packed drawnDepth⟩

example : ((empty { scheme := .separate }).barriers (session packed drawnDepth)).map
    (fun b => b.step.planes) = [.depthOnly, .stencilOnly, .depthOnly] := by decide

end Tracker

end DepthStencil
