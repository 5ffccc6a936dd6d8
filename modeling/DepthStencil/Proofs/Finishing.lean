import DepthStencil.Proofs.Origins
import DepthStencil.Proofs.Passes
import Mathlib.Data.List.Basic

/-! # Finishing by hand

A recording can be finished without `Tracker.finish`: the pass is closed, and then every image with
a writable aspect is moved to the resting level by a transition that names its writable aspects
(`Tracker.restCalls`).  Both ways lead to the same tracker and hand out the same requests
(`Tracker.finish_eq_transitions`), because bringing one image to rest between passes is recording
that transition (`Tracker.step_restCall`) and leaves the transitions of the other images as they
were. -/

namespace DepthStencil

/-! ### One image -/

namespace TrackedImage

/-- Whether an aspect of the image is writable. -/
def isWritable (image : TrackedImage) (a : Aspect) : Bool :=
  image.has a && (image.levels.get a).isWritable

/-- The call that moves the writable aspects of an image to a level, if there are any. -/
def restCall? (image : TrackedImage) (id : ImageId) (level : Level) : Option Call :=
  if Aspect.all.any image.isWritable then
    some (.record id (.transition (.ofFn fun a => if image.isWritable a then some level else none)))
  else none

variable {image : TrackedImage} {policy : Policy}

theorem isWritable_iff {a : Aspect} :
    image.isWritable a = true ↔ image.presentLevels.get a = some .writable := by
  rw [isWritable, presentLevels, PlaneSet.restrict, PerAspect.get_ofFn, has]
  cases image.planeSet.has a <;> cases image.levels.get a <;> simp [Level.isWritable]

/-- A policy that brings images to rest does so by these calls. -/
theorem restCall?_eq (hrest : policy.relaxOnFinish = true ∧ policy.resting ≠ .writable)
    (id : ImageId) : image.restCall? id policy.resting =
      (policy.restTargets? image.presentLevels).map fun targets =>
        .record id (.transition targets) := by
  have hany : Aspect.all.any image.isWritable = true ↔
      ∃ a, image.presentLevels.get a = some .writable := by
    simp [Aspect.mem_all, isWritable_iff]
  have htargets :
      (PerAspect.ofFn fun a => if image.isWritable a then some policy.resting else none) =
        image.presentLevels.map policy.restTarget := by
    apply PerAspect.ext_get
    intro a
    rw [PerAspect.get_ofFn, PerAspect.get_map, Policy.restTarget]
    simp only [isWritable_iff]
  unfold restCall?
  split
  · rename_i h
    rw [htargets, Policy.restTargets?_eq_some.mpr ⟨hrest, hany.mp h, rfl⟩]
    rfl
  · rename_i h
    cases ht : policy.restTargets? image.presentLevels with
    | none => rfl
    | some targets => exact absurd (hany.mpr (Policy.restTargets?_eq_some.mp ht).2.1) h

end TrackedImage

/-! ### All images -/

namespace Tracker

variable {t : Tracker} {id : ImageId}

/-- The call that moves the writable aspects of an image to the resting level, if there are any. -/
def restCall? (t : Tracker) (id : ImageId) : Option Call :=
  (t.image? id).bind fun image => image.restCall? id t.policy.resting

/-- The calls that move all writable aspects to the resting level, in the order of the slots. -/
def restCalls (t : Tracker) : List Call := t.registry.ids.filterMap t.restCall?

theorem closePass_of_none (h : t.pass? = none) : t.closePass = t := by
  rw [closePass, h]

/-- Between passes, an image is brought to rest by the transition to its resting targets. -/
theorem record_restTargets {image : TrackedImage} {targets : PerAspect (Option Level)}
    (hpass : t.pass? = none) (hi : t.image? id = some image)
    (ht : t.policy.restTargets? image.presentLevels = some targets) :
    t.record id (.transition targets) = (.ok (t.relax id).1, (t.relax id).2) := by
  have hmissing : image.missing? (.transition targets) = none :=
    TrackedImage.missing?_eq_none fun a ha => TrackedImage.has_of_restTargets? ht fun hnone => by
      rw [Command.named, PerAspect.get_map, hnone] at ha
      exact absurd ha (by simp)
  rw [record_transition hi hmissing]
  simp only [relax_eq, hi, ht, recordTransition, closePass_of_none hpass, hpass]
  rfl

theorem relax_of_restCall?_eq_none
    (hrest : t.policy.relaxOnFinish = true ∧ t.policy.resting ≠ .writable)
    (h : t.restCall? id = none) : t.relax id = (none, t) := by
  rcases t.relax_cases id with ⟨hrelax, -⟩ | ⟨image, targets, hi, ht, -⟩
  · exact hrelax
  · rw [restCall?, hi, Option.bind_some, TrackedImage.restCall?_eq hrest, ht] at h
    exact absurd h (by simp)

theorem step_restCall {call : Call} (hpass : t.pass? = none)
    (hrest : t.policy.relaxOnFinish = true ∧ t.policy.resting ≠ .writable)
    (h : t.restCall? id = some call) :
    t.step call = (.recorded (t.relax id).1, (t.relax id).2) := by
  obtain ⟨image, hi, hcall⟩ := Option.bind_eq_some_iff.mp h
  rw [TrackedImage.restCall?_eq hrest] at hcall
  obtain ⟨targets, ht, rfl⟩ := Option.map_eq_some_iff.mp hcall
  rw [step, record_restTargets hpass hi ht]
  rfl

/-- Bringing an image to rest leaves the calls for the other images as they were. -/
theorem restCall?_relax {id' : ImageId} (h : id' ≠ id) :
    (t.relax id).2.restCall? id' = t.restCall? id' := by
  have hbeliefs : ∀ t : Tracker, t.restCall? id' =
      (t.beliefs id').bind fun image => image.restCall? id' t.policy.resting := by
    intro t
    rw [restCall?, beliefs]
    cases t.image? id' <;> rfl
  obtain ⟨hpolicy, hturn⟩ := relax_turn t id
  rw [hbeliefs, hbeliefs, hpolicy, hturn.of_ne_settled? rfl h]

/-- Bringing images to rest one after another is carrying out their calls. -/
theorem relaxAll_eq_restCalls {ids : List ImageId} (hnodup : ids.Nodup) {t : Tracker}
    (hpass : t.pass? = none)
    (hrest : t.policy.relaxOnFinish = true ∧ t.policy.resting ≠ .writable) :
    relaxAll ids t =
        (t.requests (ids.filterMap t.restCall?), t.after (ids.filterMap t.restCall?)) ∧
      ∀ result ∈ t.run (ids.filterMap t.restCall?), ∃ request?, result.1 = .recorded request? := by
  induction ids generalizing t with
  | nil => exact ⟨rfl, fun result h => absurd h List.not_mem_nil⟩
  | cons id ids ih =>
      rw [List.nodup_cons] at hnodup
      have hcalls : ids.filterMap (t.relax id).2.restCall? = ids.filterMap t.restCall? :=
        List.filterMap_congr fun id' hid' => restCall?_relax fun he => hnodup.1 (he ▸ hid')
      have hpolicy : (t.relax id).2.policy = t.policy := (relax_turn t id).1
      obtain ⟨hrelax, hrecorded⟩ := ih hnodup.2 ((pass?_relax t id).trans hpass)
        (by rw [hpolicy]; exact hrest)
      rw [hcalls] at hrelax hrecorded
      cases hcall : t.restCall? id with
      | none =>
          rw [relax_of_restCall?_eq_none hrest hcall] at hrelax hrecorded
          rw [List.filterMap_cons_none hcall, relaxAll, relax_of_restCall?_eq_none hrest hcall]
          exact ⟨hrelax, hrecorded⟩
      | some call =>
          have hstep := step_restCall hpass hrest hcall
          have hafter : t.after (call :: ids.filterMap t.restCall?) =
              (t.step call).2.after (ids.filterMap t.restCall?) := rfl
          rw [List.filterMap_cons_some hcall, relaxAll, hrelax, requests_cons, hafter, run, hstep]
          exact ⟨rfl, List.forall_mem_cons.mpr ⟨⟨_, rfl⟩, hrecorded⟩⟩

theorem relaxAll_of_not_rest {ids : List ImageId} {t : Tracker}
    (hrest : ¬ (t.policy.relaxOnFinish = true ∧ t.policy.resting ≠ .writable)) :
    relaxAll ids t = ([], t) := by
  induction ids with
  | nil => rfl
  | cons id ids ih =>
      rcases t.relax_cases id with ⟨hrelax, -⟩ | ⟨image, targets, -, ht, -⟩
      · rw [relaxAll, hrelax, ih]
        rfl
      · exact absurd (Policy.restTargets?_eq_some.mp ht).1 hrest

/-- Finishing is closing the pass and moving all writable aspects to the resting level by hand.
None of these calls is rejected.  Without a resting level to move to, it is closing the pass. -/
theorem finish_eq_transitions (t : Tracker) :
    (t.policy.relaxOnFinish = true ∧ t.policy.resting ≠ .writable →
      t.finish = (t.requests (.closePass :: t.closePass.restCalls),
          t.after (.closePass :: t.closePass.restCalls)) ∧
        ∀ result ∈ t.closePass.run t.closePass.restCalls,
          ∃ request?, result.1 = .recorded request?) ∧
      (¬ (t.policy.relaxOnFinish = true ∧ t.policy.resting ≠ .writable) →
        t.finish = ([], t.closePass)) := by
  rw [← policy_closePass]
  constructor
  · intro hrest
    exact relaxAll_eq_restCalls (Registry.ids_nodup _) (pass?_closePass t) hrest
  · intro hrest
    exact relaxAll_of_not_rest hrest

/-- A recording with an image that may be written in its depth aspect only, and one on which a pass
is open. -/
def unfinished : Tracker :=
  (empty { resting := .undefined }).after
    [.register
        { handle := 0, format := 129, extent := ⟨64, 64⟩, initial := ⟨.writable, .readOnly⟩ },
      .register { handle := 1, format := 126, extent := ⟨64, 64⟩ },
      .record ⟨1, 0⟩ (.draw ⟨⟨true, true⟩, .none⟩)]

theorem finish_eq_transitions_unfinished :
    (unfinished.policy.relaxOnFinish = true ∧ unfinished.policy.resting ≠ .writable) ∧
      unfinished.closePass.restCalls =
        [.record ⟨0, 0⟩ (.transition ⟨some .undefined, none⟩),
          .record ⟨1, 0⟩ (.transition ⟨some .undefined, none⟩)] ∧
      unfinished.finish = (unfinished.requests (.closePass :: unfinished.closePass.restCalls),
        unfinished.after (.closePass :: unfinished.closePass.restCalls)) := by
  have hrest : unfinished.policy.relaxOnFinish = true ∧ unfinished.policy.resting ≠ .writable := by
    decide
  exact ⟨hrest, by decide, ((finish_eq_transitions unfinished).1 hrest).1⟩

end Tracker

end DepthStencil
