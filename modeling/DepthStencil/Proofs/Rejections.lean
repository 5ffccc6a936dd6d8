import DepthStencil.Proofs.PassLog

/-! # Rejected calls

`Tracker.rejection?` lists the reasons for which calls are rejected.  They depend on what a caller
can know: which images are tracked, which aspects they have and how many subresources.  A call is
rejected exactly for the reason listed, and then changes nothing (`Tracker.step_rejects`).

Two operations end the pass on an image before they look the image up, so that they change nothing
only because passes are open on tracked images alone.  A clear of a view comes to several commands,
none of which can be rejected once the image is found. -/

namespace DepthStencil

/-! ### Images that are named -/

/-- The image that a call names. -/
def Call.image? : Call → Option ImageId
  | unregister id | seed id _ | record id _ | resourceBarrier id _ _ | clearView id _ _
  | discardSubresources id _ _ _ | drawPipeline id _ _ => some id
  | register _ | closePass | finish => none

/-- The image that an action works on. -/
def Action.image? : Action → Option ImageId
  | unregister id | seed id _ | record id _ | relax id => some id
  | register _ | closePass => none

theorem Action.image?_of_settled? {α : Action} {id : ImageId} (h : α.settled? = some id) :
    α.image? = some id := by
  cases α with
  | record id' command => exact h
  | relax id' => exact h
  | register info => exact absurd h (by simp [settled?])
  | unregister id' => exact absurd h (by simp [settled?])
  | seed id' levels => exact absurd h (by simp [settled?])
  | closePass => exact absurd h (by simp [settled?])

/-- The actions of a call work on its image, unless it finishes the recording. -/
theorem Tracker.image?_of_mem_actions {t : Tracker} {call : Call} {α : Action}
    (hcall : call ≠ .finish) (hα : α ∈ t.actions call) : α.image? = call.image? := by
  cases call with
  | register info => rw [List.mem_singleton.mp hα]; rfl
  | unregister id => rw [List.mem_singleton.mp hα]; rfl
  | seed id levels => rw [List.mem_singleton.mp hα]; rfl
  | record id command => rw [List.mem_singleton.mp hα]; rfl
  | closePass => rw [List.mem_singleton.mp hα]; rfl
  | drawPipeline id pipeline view => rw [List.mem_singleton.mp hα]; rfl
  | finish => exact absurd rfl hcall
  | resourceBarrier id subresource states =>
      rw [actions] at hα
      split at hα
      · rw [List.mem_singleton.mp hα]; rfl
      · exact absurd hα List.not_mem_nil
  | clearView id flags rects =>
      rw [actions] at hα
      split at hα
      · exact absurd hα List.not_mem_nil
      · obtain ⟨rect, -, rfl⟩ := List.mem_map.mp hα
        rfl
  | discardSubresources id first count hasRects =>
      rw [actions] at hα
      split at hα
      · exact absurd hα List.not_mem_nil
      · split at hα
        · exact absurd hα List.not_mem_nil
        · rw [List.mem_singleton.mp hα]; rfl

/-! ### Reasons -/

/-- The reason for which an answer rejects its call, if it does. -/
def Answer.rejection? : Answer → Option Rejection
  | rejected reason => some reason
  | registered _ | unregistered _ | seeded | recorded _ | closed _ | requests _ => none

/-- Whether the resource states that a call names, if it names any, have a level. -/
def Call.statesHaveLevel : Call → Bool
  | resourceBarrier _ _ states => states.level?.isSome
  | register _ | unregister _ | seed _ _ | record _ _ | closePass | finish | clearView _ _ _
  | discardSubresources _ _ _ _ | drawPipeline _ _ _ => true

/-- Whether an aspect is the first one that a command names although the image lacks it.  Draws may
name any aspect. -/
def Command.NamesMissing (image : TrackedImage) (a : Aspect) : Command → Prop
  | draw _ => False
  | clear aspects _ | discard aspects => aspects.get a = true ∧ image.has a = false ∧
      (a = .stencil → aspects.get .depth = true → image.has .depth = true)
  | transition targets => (targets.get a).isSome = true ∧ image.has a = false ∧
      (a = .stencil → (targets.get .depth).isSome = true → image.has .depth = true)

namespace Tracker

/-- The rejection of an identifier that names no tracked image. -/
def untracked? (t : Tracker) (id : ImageId) : Option Rejection :=
  if (t.image? id).isSome then none else some (.untracked id)

/-- The reason for which a call is rejected, if it is. -/
def rejection? (t : Tracker) : Call → Option Rejection
  | .register info =>
    if (Format.ofCode? info.format).isSome then none else some (.notDepthStencil info.format)
  | .unregister id | .seed id _ | .clearView id _ _ | .discardSubresources id _ _ _
  | .drawPipeline id _ _ => t.untracked? id
  | .record id command =>
    match t.image? id with
    | none => some (.untracked id)
    | some image => (image.missing? command).map (.missingAspect id)
  | .resourceBarrier id subresource states =>
    match states.level?, t.image? id with
    | none, _ => some (.unsupportedStates states)
    | some _, none => some (.untracked id)
    | some _, some image =>
      if subresource = Subresource.all ∨ (image.subresourceAspect? subresource).isSome then none
      else some (.subresourceOutOfRange id subresource)
  | .closePass | .finish => none

/-- Whether an operation is rejected exactly if there is a reason, and then changes nothing,
provided that passes are open on tracked images alone. -/
structure Rejects {α : Type} (t : Tracker) (o : Outcome α) (reason? : Option Rejection) : Prop where
  reason : ∀ f : α → Answer, (∀ x, (f x).rejection? = none) → (report f o).1.rejection? = reason?
  unchanged : reason?.isSome = true →
    (∀ p, t.pass? = some p → (t.image? p.image).isSome = true) → o.2 = t

variable {α : Type} {t : Tracker} {id : ImageId} {image : TrackedImage}

theorem rejects_error (t : Tracker) (e : Rejection) :
    Rejects t ((.error e, t) : Outcome α) (some e) := ⟨fun _ _ => rfl, fun _ _ => rfl⟩

theorem rejects_ok (t t' : Tracker) (x : α) : Rejects t ((.ok x, t') : Outcome α) none :=
  ⟨fun _ hf => hf x, fun h => absurd h (by simp)⟩

theorem untracked?_of_some (h : t.image? id = some image) : t.untracked? id = none := by
  rw [untracked?, h]
  rfl

theorem untracked?_of_none (h : t.image? id = none) : t.untracked? id = some (.untracked id) := by
  rw [untracked?, h]
  rfl

/-! ### Registration -/

theorem rejects_register (t : Tracker) (info : Registration) :
    Rejects t (t.register info) (t.rejection? (.register info)) := by
  rw [rejection?, register]
  cases Format.ofCode? info.format with
  | none => exact rejects_error t _
  | some format => exact rejects_ok t _ _

theorem isSome_image?_closePassOn (t : Tracker) (id id' : ImageId) :
    ((t.closePassOn id).image? id').isSome = (t.image? id').isSome := by
  unfold closePassOn
  split
  · rw [image?_closePass]
    split
    · exact Option.isSome_map
    · rfl
  · rfl

theorem closePassOn_of_image?_eq_none
    (hopen : ∀ p, t.pass? = some p → (t.image? p.image).isSome = true) (h : t.image? id = none) :
    t.closePassOn id = t := by
  refine if_neg fun hid => ?_
  obtain ⟨p, hp, rfl⟩ := Pass.isOpenOn_iff.mp hid
  have hsome := hopen p hp
  rw [h] at hsome
  exact absurd hsome (by simp)

/-- An operation that ends the pass on its image and is rejected only if there is no such image. -/
theorem rejects_of_closePassOn {o : Outcome α}
    (herror : ∀ e, (t.closePassOn id).lookup id = .error e → o = (.error e, t.closePassOn id))
    (hok : ∀ image, (t.closePassOn id).lookup id = .ok image → ∃ x t', o = (.ok x, t')) :
    Rejects t o (t.untracked? id) := by
  have hsome := isSome_image?_closePassOn t id id
  cases hl : (t.closePassOn id).lookup id with
  | error e =>
      obtain ⟨hnone, rfl⟩ := lookup_eq_error.mp hl
      rw [hnone, Option.isSome_none, eq_comm, Option.isSome_eq_false_iff,
        Option.isNone_iff_eq_none] at hsome
      rw [herror _ hl, untracked?_of_none hsome]
      exact ⟨fun _ _ => rfl, fun _ hopen => closePassOn_of_image?_eq_none hopen hsome⟩
  | ok image =>
      obtain ⟨x, t', ho⟩ := hok image hl
      rw [lookup_eq_ok.mp hl, Option.isSome_some, eq_comm] at hsome
      rw [ho, untracked?, if_pos hsome]
      exact rejects_ok t t' x

theorem rejects_unregister (t : Tracker) (id : ImageId) :
    Rejects t (t.unregister id) (t.untracked? id) :=
  rejects_of_closePassOn (fun _ hl => unregister_of_error hl)
    fun _ hl => ⟨_, _, unregister_of_ok hl⟩

theorem rejects_seed (t : Tracker) (id : ImageId) (levels : PerAspect Level) :
    Rejects t (t.seed id levels) (t.untracked? id) :=
  rejects_of_closePassOn (fun _ hl => seed_of_error hl levels)
    fun _ hl => ⟨_, _, seed_of_ok hl levels⟩

/-! ### Commands -/

theorem rejects_record (t : Tracker) (id : ImageId) (command : Command) :
    Rejects t (t.record id command) (t.rejection? (.record id command)) := by
  rw [rejection?, record]
  cases hi : t.image? id with
  | none =>
      rw [lookup_eq_error.mpr ⟨hi, rfl⟩]
      exact rejects_error t _
  | some image =>
      rw [lookup_eq_ok.mpr hi]
      simp only [TrackedImage.accept]
      cases image.missing? command with
      | some a => exact rejects_error t _
      | none =>
          cases image.normalize command with
          | none => exact rejects_ok t _ _
          | some x => exact rejects_ok t _ _

/-- A command that names only aspects of its image is rejected only if there is no such image. -/
theorem rejects_record_of_present {command : Command} (h : t.image? id = some image)
    (hnamed : ∀ a, command.named.get a = true → image.has a = true) :
    Rejects t (t.record id command) none := by
  have hrecord := rejects_record t id command
  rw [rejection?, h] at hrecord
  simp only [TrackedImage.missing?_eq_none hnamed] at hrecord
  exact hrecord

theorem rejects_drawPipeline (t : Tracker) (id : ImageId) (pipeline : PipelineState)
    (view : ViewFlags) : Rejects t (t.drawPipeline id pipeline view) (t.untracked? id) := by
  have hrecord := rejects_record t id (.draw (pipeline.uses view))
  rw [rejection?] at hrecord
  rw [untracked?]
  cases hi : t.image? id with
  | none =>
      rw [hi] at hrecord
      exact hrecord
  | some image =>
      rw [hi] at hrecord
      exact hrecord

theorem has_of_subresourceAspect? {subresource : UInt32} {a : Aspect}
    (h : image.subresourceAspect? subresource = some a) : image.has a = true := by
  rw [TrackedImage.subresourceAspect?, Subresource.aspect?] at h
  split at h
  · exact absurd h (by simp)
  · exact (PlaneSet.mem_planes _ a).mp (List.mem_of_getElem? h)

/-- A subresource number of a tracked image speaks of aspects that are there, or it is out of
range. -/
theorem subresourceAspects_cases (hi : t.image? id = some image) (subresource : UInt32) :
    ((subresource = Subresource.all ∨ (image.subresourceAspect? subresource).isSome = true) ∧
      ∃ aspects, t.subresourceAspects id subresource = .ok aspects ∧
        ∀ a, aspects.get a = true → image.has a = true) ∨
    (¬(subresource = Subresource.all ∨ (image.subresourceAspect? subresource).isSome = true) ∧
      t.subresourceAspects id subresource = .error (.subresourceOutOfRange id subresource)) := by
  rw [subresourceAspects, lookup_eq_ok.mpr hi]
  simp only
  by_cases hall : subresource = Subresource.all
  · refine .inl ⟨.inl hall, _, if_pos hall, fun a ha => ?_⟩
    rw [PlaneSet.presence, PerAspect.get_ofFn] at ha
    exact ha
  · rw [if_neg hall]
    cases haspect : image.subresourceAspect? subresource with
    | none => exact .inr ⟨by simp [hall], rfl⟩
    | some a' =>
        refine .inl ⟨.inr rfl, _, rfl, fun a ha => ?_⟩
        rw [PerAspect.get_ofFn, decide_eq_true_eq] at ha
        rw [ha]
        exact has_of_subresourceAspect? haspect

theorem rejects_resourceBarrier (t : Tracker) (id : ImageId) (subresource : UInt32)
    (states : ResourceStates) :
    Rejects t (t.resourceBarrier id subresource states)
      (t.rejection? (.resourceBarrier id subresource states)) := by
  rw [rejection?, resourceBarrier]
  cases hl : states.level? with
  | none => exact rejects_error t _
  | some level =>
      cases hi : t.image? id with
      | none =>
          simp only [subresourceAspects, lookup_eq_error.mpr ⟨hi, rfl⟩]
          exact rejects_error t _
      | some image =>
          rcases subresourceAspects_cases hi subresource with
            ⟨hfound, aspects, haspects, hhas⟩ | ⟨hnone, haspects⟩
          · simp only [haspects, if_pos hfound]
            refine rejects_record_of_present hi fun a ha => hhas a ?_
            rw [Command.named, PerAspect.get_map, PerAspect.get_map, Option.isSome_ite] at ha
            exact ha
          · simp only [haspects, if_neg hnone]
            exact rejects_error t _

/-- A clear of a view is not rejected once its image is found, whatever the rectangles. -/
theorem rejects_clearView (t : Tracker) (id : ImageId) (flags : ViewFlags) (rects : List Rect) :
    Rejects t (t.clearView id flags rects) (t.untracked? id) := by
  rw [clearView]
  cases hi : t.image? id with
  | none =>
      rw [lookup_eq_error.mpr ⟨hi, rfl⟩, untracked?_of_none hi]
      exact rejects_error t _
  | some image =>
      rw [lookup_eq_ok.mpr hi, untracked?_of_some hi]
      have heach := clearEach_eq_acts (if rects.isEmpty then [none] else rects.map some)
        (beliefs_of_image? hi) (presence_inside image.planeSet (.ofFn flags.names))
      have hhas : ∀ a, image.has a = image.planeSet.has a := fun _ => rfl
      simp only [PerAspect.get_ofFn] at heach
      simp only [hhas, heach]
      exact rejects_ok t _ _

theorem rejects_discardSubresources (t : Tracker) (id : ImageId) (first count : UInt32)
    (hasRects : Bool) :
    Rejects t (t.discardSubresources id first count hasRects) (t.untracked? id) := by
  rw [discardSubresources]
  cases hi : t.image? id with
  | none =>
      rw [lookup_eq_error.mpr ⟨hi, rfl⟩, untracked?_of_none hi]
      exact rejects_error t _
  | some image =>
      rw [lookup_eq_ok.mpr hi, untracked?_of_some hi]
      simp only
      split
      · exact rejects_ok t _ _
      · refine rejects_record_of_present hi fun a ha => ?_
        rw [Command.named, TrackedImage.wholePlanes, Subresource.wholePlanes, PerAspect.get_ofFn,
          Bool.and_eq_true] at ha
        exact ha.1

/-! ### Calls -/

/-- A call is rejected exactly for the reason there is, and then changes nothing. -/
theorem step_rejects (t : Tracker) (call : Call) :
    (t.step call).1.rejection? = t.rejection? call ∧
      ((t.rejection? call).isSome = true →
        (∀ p, t.pass? = some p → (t.image? p.image).isSome = true) → (t.step call).2 = t) := by
  have hreport : ∀ {α : Type} {o : Outcome α} {reason? : Option Rejection} {f : α → Answer},
      (∀ x, (f x).rejection? = none) → Rejects t o reason? →
        (report f o).1.rejection? = reason? ∧ (reason?.isSome = true →
          (∀ p, t.pass? = some p → (t.image? p.image).isSome = true) → (report f o).2 = t) :=
    fun hf h => ⟨h.reason _ hf, h.unchanged⟩
  cases call with
  | register info => exact hreport (fun _ => rfl) (rejects_register t info)
  | unregister id => exact hreport (fun _ => rfl) (rejects_unregister t id)
  | seed id levels => exact hreport (fun _ => rfl) (rejects_seed t id levels)
  | record id command => exact hreport (fun _ => rfl) (rejects_record t id command)
  | closePass => exact ⟨rfl, fun h => absurd h (by simp [rejection?])⟩
  | finish => exact ⟨rfl, fun h => absurd h (by simp [rejection?])⟩
  | resourceBarrier id subresource states =>
      exact hreport (fun _ => rfl) (rejects_resourceBarrier t id subresource states)
  | clearView id flags rects => exact hreport (fun _ => rfl) (rejects_clearView t id flags rects)
  | discardSubresources id first count hasRects =>
      exact hreport (fun _ => rfl) (rejects_discardSubresources t id first count hasRects)
  | drawPipeline id pipeline view =>
      exact hreport (fun _ => rfl) (rejects_drawPipeline t id pipeline view)

end Tracker

/-! ### Exactness -/

theorem Answer.rejection?_eq_some {answer : Answer} {e : Rejection} :
    answer.rejection? = some e ↔ answer = .rejected e := by
  cases answer with
  | rejected reason => simp [rejection?]
  | registered id => simp [rejection?]
  | unregistered image => simp [rejection?]
  | seeded => simp [rejection?]
  | recorded request? => simp [rejection?]
  | closed pass? => simp [rejection?]
  | requests requests => simp [rejection?]

theorem PlaneSet.firstOutside?_eq_some {planes : PlaneSet} {marked : PerAspect Bool} {a : Aspect} :
    planes.firstOutside? marked = some a ↔ marked.get a = true ∧ planes.has a = false ∧
      (a = .stencil → marked.get .depth = true → planes.has .depth = true) := by
  unfold firstOutside? Aspect.all
  cases hd : marked.get .depth <;> cases hd' : planes.has .depth <;>
    cases hs : marked.get .stencil <;> cases hs' : planes.has .stencil <;>
      cases a <;> simp [hd, hd', hs, hs']

theorem TrackedImage.missing?_eq_some {image : TrackedImage} {command : Command} {a : Aspect} :
    image.missing? command = some a ↔ command.NamesMissing image a := by
  cases command with
  | draw uses => exact ⟨fun h => absurd h (by simp [missing?]), False.elim⟩
  | clear aspects rect => exact PlaneSet.firstOutside?_eq_some
  | discard aspects => exact PlaneSet.firstOutside?_eq_some
  | transition targets =>
      rw [Command.NamesMissing]
      have hfirst : image.planeSet.firstOutside? (targets.map Option.isSome) = some a ↔ _ :=
        PlaneSet.firstOutside?_eq_some
      rw [PerAspect.get_map, PerAspect.get_map] at hfirst
      exact hfirst

namespace Tracker

variable {t : Tracker}

theorem untracked?_eq_some {id id' : ImageId} :
    t.untracked? id = some (.untracked id') ↔ id = id' ∧ t.image? id' = none := by
  rw [untracked?]
  cases hi : t.image? id with
  | none =>
      simp only [Option.isSome_none, Bool.false_eq_true, if_false, Option.some_inj,
        Rejection.untracked.injEq]
      exact ⟨fun h => ⟨h, h ▸ hi⟩, fun h => h.1⟩
  | some image =>
      refine ⟨fun h => absurd h (by simp), fun ⟨hid, hnone⟩ => ?_⟩
      rw [hid, hnone] at hi
      exact absurd hi (by simp)

theorem untracked?_ne_missingAspect (id id' : ImageId) (a : Aspect) :
    t.untracked? id ≠ some (.missingAspect id' a) := by
  rw [untracked?]
  split <;> simp

/-- A call on an image is rejected for its identifier exactly if nothing is tracked there, except
that resource states are looked at first. -/
theorem rejection?_eq_untracked {call : Call} {id : ImageId} :
    t.rejection? call = some (.untracked id) ↔
      call.image? = some id ∧ t.image? id = none ∧ call.statesHaveLevel = true := by
  cases call with
  | register info =>
      rw [rejection?, Call.image?]
      split <;> simp
  | unregister id' => simp [rejection?, Call.image?, Call.statesHaveLevel, untracked?_eq_some]
  | seed id' levels => simp [rejection?, Call.image?, Call.statesHaveLevel, untracked?_eq_some]
  | record id' command =>
      rw [rejection?, Call.image?]
      cases hi : t.image? id' with
      | none =>
          simp only [Option.some_inj, Rejection.untracked.injEq, Call.statesHaveLevel, and_true]
          exact ⟨fun h => ⟨h, h ▸ hi⟩, fun h => h.1⟩
      | some image =>
          refine ⟨fun h => ?_, fun ⟨hid, hnone, _⟩ => ?_⟩
          · obtain ⟨a, -, ha⟩ := Option.map_eq_some_iff.mp h
            exact absurd ha (by simp)
          · rw [Option.some_inj.mp hid, hnone] at hi
            exact absurd hi (by simp)
  | closePass => simp [rejection?, Call.image?]
  | finish => simp [rejection?, Call.image?]
  | resourceBarrier id' subresource states =>
      rw [rejection?, Call.image?, Call.statesHaveLevel]
      cases states.level? with
      | none => simp
      | some level =>
          cases hi : t.image? id' with
          | none =>
              simp only [Option.some_inj, Rejection.untracked.injEq, Option.isSome_some, and_true]
              exact ⟨fun h => ⟨h, h ▸ hi⟩, fun h => h.1⟩
          | some image =>
              refine ⟨fun h => ?_, fun ⟨hid, hnone, _⟩ => ?_⟩
              · simp only at h
                split at h <;> exact absurd h (by simp)
              · rw [Option.some_inj.mp hid, hnone] at hi
                exact absurd hi (by simp)
  | clearView id' flags rects =>
      simp [rejection?, Call.image?, Call.statesHaveLevel, untracked?_eq_some]
  | discardSubresources id' first count hasRects =>
      simp [rejection?, Call.image?, Call.statesHaveLevel, untracked?_eq_some]
  | drawPipeline id' pipeline view =>
      simp [rejection?, Call.image?, Call.statesHaveLevel, untracked?_eq_some]

theorem rejection?_eq_missingAspect {call : Call} {id : ImageId} {a : Aspect} :
    t.rejection? call = some (.missingAspect id a) ↔ ∃ command image,
      call = .record id command ∧ t.image? id = some image ∧ command.NamesMissing image a := by
  cases call with
  | record id' command =>
      rw [rejection?]
      cases hi : t.image? id' with
      | none =>
          refine ⟨fun h => absurd h (by simp), ?_⟩
          rintro ⟨command', image, hcall, hsome, -⟩
          rw [← (Call.record.inj hcall).1, hi] at hsome
          exact absurd hsome (by simp)
      | some image =>
          refine ⟨fun h => ?_, ?_⟩
          · obtain ⟨a', ha', he⟩ := Option.map_eq_some_iff.mp h
            obtain ⟨rfl, rfl⟩ := Rejection.missingAspect.inj he
            exact ⟨command, image, rfl, hi, TrackedImage.missing?_eq_some.mp ha'⟩
          · rintro ⟨command', image', hcall, hsome, hmissing⟩
            obtain ⟨rfl, rfl⟩ := Call.record.inj hcall
            obtain rfl := Option.some_inj.mp (hi.symm.trans hsome)
            exact Option.map_eq_some_iff.mpr ⟨a, TrackedImage.missing?_eq_some.mpr hmissing, rfl⟩
  | register info =>
      rw [rejection?]
      split <;> simp
  | unregister id' => simp [rejection?, untracked?_ne_missingAspect]
  | seed id' levels => simp [rejection?, untracked?_ne_missingAspect]
  | closePass => simp [rejection?]
  | finish => simp [rejection?]
  | resourceBarrier id' subresource states =>
      rw [rejection?]
      cases states.level? with
      | none => simp
      | some level =>
          cases t.image? id' with
          | none => simp
          | some image =>
              simp only
              split <;> simp
  | clearView id' flags rects => simp [rejection?, untracked?_ne_missingAspect]
  | discardSubresources id' first count hasRects => simp [rejection?, untracked?_ne_missingAspect]
  | drawPipeline id' pipeline view => simp [rejection?, untracked?_ne_missingAspect]

/-- Rejected calls change nothing, and the reasons are exact.

An identifier is rejected exactly by the calls that name it while nothing is tracked there, unless
resource states are at fault first.  An aspect is rejected exactly by the recording of a command
that names it although the image lacks it, so never by an operation in the terms of Direct3D.  A
clear of a view that finds its image takes all of its rectangles. -/
theorem rejections_exact (policy : Policy) (calls : List Call) (call : Call) :
    let t := (empty policy).after calls
    let result := t.step call
    (∀ reason, result.1 = .rejected reason → result.2 = t) ∧
    (∀ id, result.1 = .rejected (.untracked id) ↔
      call.image? = some id ∧ t.image? id = none ∧ call.statesHaveLevel = true) ∧
    (∀ id a, result.1 = .rejected (.missingAspect id a) ↔ ∃ command image,
      call = .record id command ∧ t.image? id = some image ∧ command.NamesMissing image a) ∧
    ∀ id flags rects, call = .clearView id flags rects → (t.image? id).isSome = true →
      ∃ requests, result.1 = .requests requests := by
  intro t result
  have hopen : ∀ p, t.pass? = some p → (t.image? p.image).isSome = true := by
    intro p hp
    obtain ⟨image, hi, -⟩ := (consistent_after policy calls).holds p hp
    rw [hi]
    rfl
  obtain ⟨hreason, hunchanged⟩ := t.step_rejects call
  have hrejected : ∀ e, result.1 = .rejected e ↔ t.rejection? call = some e := by
    intro e
    rw [← hreason]
    exact Answer.rejection?_eq_some.symm
  refine ⟨fun e he => hunchanged ?_ hopen, fun id => ?_, fun id a => ?_, ?_⟩
  · rw [(hrejected e).mp he]
    rfl
  · rw [hrejected, rejection?_eq_untracked]
  · rw [hrejected, rejection?_eq_missingAspect]
  · rintro id flags rects rfl htracked
    cases ho : (t.clearView id flags rects).1 with
    | ok requests => exact ⟨requests, congrArg (Answer.ofExcept .requests) ho⟩
    | error e =>
        have herror : result.1 = .rejected e := congrArg (Answer.ofExcept .requests) ho
        rw [hrejected, rejection?, untracked?, if_pos htracked] at herror
        exact absurd herror (by simp)

end Tracker

end DepthStencil
