import DepthStencil.Proofs.Origins
import DepthStencil.Proofs.Rectangles
import DepthStencil.Proofs.RepeatedClears

/-! # Contents are kept

A barrier out of the undefined layout drops the contents of the aspects it takes in.  That happens
to an aspect with contents only if the caller gave them up (`Call.Drops`): in a discard of the
aspect, or in a clear of it that reaches every texel, if the policy lets such clears discard.  Of a
clear of several rectangles the first visible one must reach every texel, because it alone decides
what the clear asks for (`Tracker.exists_record_of_mem_clearView`).

A shared layout drops both aspects or none, so the aspect that is not given up keeps the contents of
the other one alive.  In particular finishing a recording and explicit transitions drop nothing. -/

namespace DepthStencil

/-! ### Giving up contents -/

/-- Whether a command gives up the contents of an aspect of an image of the given size. -/
def Command.Drops (policy : Policy) (e : Extent) (a : Aspect) : Command → Prop
  | discard aspects => aspects.get a = true
  | clear aspects rect => aspects.get a = true ∧ policy.discardOnFullClear = true ∧
      ∀ r ∈ rect, r.Fills e
  | draw _ | transition _ => False

/-- Whether a call gives up the contents of an aspect of an image. -/
def Call.Drops (policy : Policy) (id : ImageId) (image : TrackedImage) (a : Aspect) : Call → Prop
  | record id' command => id' = id ∧ command.Drops policy image.extent a
  | clearView id' flags rects => id' = id ∧ flags.names a = true ∧
      policy.discardOnFullClear = true ∧ (rects = [] ∨
        ∃ r, rects.find? (fun r => (r.clip? image.extent).isSome) = some r ∧ r.Fills image.extent)
  | discardSubresources id' first count hasRects => id' = id ∧ hasRects = false ∧
      (image.wholePlanes first count).get a = true
  | register _ | unregister _ | seed _ _ | closePass | finish | resourceBarrier _ _ _
  | drawPipeline _ _ _ => False

namespace TrackedImage

variable {image : TrackedImage} {scheme : LayoutScheme} {needs : PerAspect Need} {a : Aspect}

theorem undefined_or_discards_of_change {c : Change} (h : (image.changes needs).get a = some c)
    (hd : c.discards = true) : image.levels.get a = .undefined ∨ (needs.get a).discards = true := by
  rw [get_changes] at h
  rw [(Need.change?_eq_some h).2.2.2, Bool.or_eq_true, Bool.not_eq_true',
    Level.isDefined_eq_false] at hd
  exact hd.symm

/-- A barrier out of the undefined layout takes in no aspect whose contents are needed. -/
theorem undefined_or_discards {id : ImageId} {endsPass : Bool} {b : ImageBarrier}
    (h : b ∈ (image.request scheme needs id endsPass).imageBarriers)
    (hold : b.step.oldLayout = .undefined) (ha : b.step.planes.has a = true) :
    image.levels.get a = .undefined ∨ (needs.get a).discards = true := by
  cases scheme with
  | separate =>
      obtain ⟨a', c, hc, hstep, -⟩ := barrier_separate h
      rw [(LayoutStep.between?_eq_some.mp hstep).2.2] at hold ha
      rw [PlaneSet.has_single, decide_eq_true_eq] at ha
      subst ha
      simp only at hold
      split at hold
      · rename_i hd
        exact undefined_or_discards_of_change hc hd
      · rw [Level.layout_eq_undefined] at hold
        rw [get_changes] at hc
        rw [(Need.change?_eq_some hc).1] at hold
        exact .inl hold
  | shared =>
      obtain ⟨hstep, hplanes, -⟩ := barrier_shared h
      rw [hplanes] at ha
      rw [(LayoutStep.between?_eq_some.mp hstep).2.2] at hold
      simp only at hold
      split at hold
      · rename_i hdrops
        have hyields := List.all_eq_true.mp hdrops a ((PlaneSet.mem_planes _ a).mpr ha)
        cases hc : (image.changes needs).get a with
        | some c =>
            rw [hc, Level.yields] at hyields
            exact undefined_or_discards_of_change hc hyields
        | none =>
            rw [hc, Level.yields, Bool.not_eq_true', Level.isDefined_eq_false] at hyields
            exact .inl hyields
      · exact .inl (ImageLayout.shared_restrict_eq_undefined.mp hold a ha)

theorem fills_of_normalize {aspects : PerAspect Bool} {rect : Option Rect} {x : Accepted}
    (h : image.normalize (.clear aspects rect) = some x) (hx : x.coversImage = true) :
    ∀ r ∈ rect, r.Fills image.extent := by
  intro r hr
  rw [Option.mem_def] at hr
  subst hr
  simp only [normalize] at h
  split at h
  · obtain ⟨clipped, hclip, rfl⟩ := Option.map_eq_some_iff.mp h
    exact (Rect.fills_of_covers hx).of_clip? hclip
  · exact absurd h (by simp)

end TrackedImage

/-! ### Commands and calls -/

theorem Use.discards_need (u : Use) : u.need.discards = false := by
  unfold Use.need
  split
  · rfl
  · split <;> rfl

theorem Command.discards_needs_transition {targets : PerAspect (Option Level)} {covers : Bool}
    {a : Aspect} : (((transition targets).needs covers).get a).discards = false := by
  rw [get_needs_transition]
  cases targets.get a <;> rfl

theorem Command.drops_of_normalize {image : TrackedImage} {command : Command} {x : Accepted}
    {policy : Policy} {a : Aspect} (hx : image.normalize command = some x)
    (hd : ((x.needs policy).get a).discards = true) : command.Drops policy image.extent a := by
  cases command with
  | draw uses =>
      obtain rfl := Option.some_inj.mp hx
      rw [Accepted.needs, get_needs_draw, Use.discards_need] at hd
      exact absurd hd (by simp)
  | clear aspects rect =>
      obtain ⟨rect', hc⟩ := TrackedImage.command_of_normalize_clear hx
      rw [Accepted.needs, hc, get_needs_clear] at hd
      cases hm : aspects.get a with
      | false =>
          rw [hm] at hd
          exact absurd hd (by simp [Need.none])
      | true =>
          rw [hm, if_pos rfl, Need.toWrite, Bool.and_eq_true] at hd
          exact ⟨hm, hd.2, TrackedImage.fills_of_normalize hx hd.1⟩
  | discard aspects =>
      simp only [TrackedImage.normalize] at hx
      split at hx
      · obtain rfl := Option.some_inj.mp hx
        rw [Accepted.needs, get_needs_discard] at hd
        cases hm : aspects.get a with
        | false =>
            rw [hm] at hd
            exact absurd hd (by simp [Need.none])
        | true => exact hm
      · exact absurd hx (by simp)
  | transition targets =>
      obtain rfl := Option.some_inj.mp hx
      rw [Accepted.needs, discards_needs_transition] at hd
      exact absurd hd (by simp)

theorem Action.drops_of_accepted? {policy : Policy} {id : ImageId} {image : TrackedImage}
    {α : Action} {x : Accepted} {a : Aspect} (hx : α.accepted? policy id image = some x)
    (hd : ((x.needs policy).get a).discards = true) :
    ∃ command, α = .record id command ∧ command.Drops policy image.extent a := by
  rcases cases_of_accepted? hx with ⟨command, rfl, -, hnormal⟩ | ⟨-, targets, -, rfl⟩
  · exact ⟨command, rfl, Command.drops_of_normalize hnormal hd⟩
  · rw [Accepted.needs, Command.discards_needs_transition] at hd
    exact absurd hd (by simp)

namespace Tracker

/-- A request in the answer to a clear of a view is one that the clear within the first visible
rectangle asks for. -/
theorem exists_record_of_mem_clearView {t : Tracker} {id : ImageId} {flags : ViewFlags}
    {rects : List Rect} {r : Request}
    (h : r ∈ (t.step (.clearView id flags rects)).1.requestList) :
    ∃ image rect, t.image? id = some image ∧
      r ∈ (t.step (.record id
        (.clear (.ofFn fun a => flags.names a && image.has a) rect))).1.requestList ∧
      (rects = [] ∧ rect = none ∨
        rects.find? (fun r => (r.clip? image.extent).isSome) = rect ∧ rect.isSome = true) := by
  have hview : ∀ {requests t'}, t.clearView id flags rects = (.ok requests, t') →
      r ∈ requests := by
    intro requests t' hview
    rw [step, hview] at h
    exact h
  have hrecord : ∀ {command request? t'}, t.record id command = (.ok request?, t') →
      r ∈ request?.toList → r ∈ (t.step (.record id command)).1.requestList := by
    intro command request? t' hrecord hr
    rw [step, hrecord]
    exact hr
  cases hi : t.image? id with
  | none =>
      have hnone : t.clearView id flags rects = (.error (.untracked id), t) := by
        simp only [clearView, lookup, hi]
      rw [step, hnone] at h
      exact absurd h List.not_mem_nil
  | some image =>
      cases hany : (PerAspect.ofFn fun a => flags.names a && image.has a).any with
      | false =>
          exact absurd (hview (clearView_of_untouched hi (.inr hany))) List.not_mem_nil
      | true =>
          by_cases hne : rects = []
          · subst hne
            obtain ⟨request?, t', hrecorded, hviewed⟩ := clearView_nil hi flags
            exact ⟨image, none, rfl, hrecord hrecorded (hview hviewed), .inl ⟨rfl, rfl⟩⟩
          · cases hvisible : rects.filter fun r => (r.clip? image.extent).isSome with
            | nil =>
                exact absurd (hview (clearView_of_untouched hi (.inl ⟨hne, hvisible⟩)))
                  List.not_mem_nil
            | cons rect rest =>
                obtain ⟨request?, t', hrecorded, -, hviewed⟩ :=
                  clearView_of_visible hi hany hvisible
                refine ⟨image, some rect, rfl, hrecord hrecorded (hview hviewed), .inr ⟨?_, rfl⟩⟩
                rw [← List.head?_filter, hvisible]
                rfl

/-- What an action gives up, the call it is part of gives up.  Clears of views apart, a call has one
action that can do so at most. -/
theorem drops_of_mem_actions {t : Tracker} {call : Call} {id : ImageId} {image : TrackedImage}
    {command : Command} {a : Aspect} (hcall : ∀ id flags rects, call ≠ .clearView id flags rects)
    (hi : t.image? id = some image) (hα : .record id command ∈ t.actions call)
    (hd : command.Drops t.policy image.extent a) : call.Drops t.policy id image a := by
  cases call with
  | record id' command' =>
      obtain ⟨rfl, rfl⟩ := Action.record.inj (List.mem_singleton.mp hα)
      exact ⟨rfl, hd⟩
  | clearView id' flags rects => exact absurd rfl (hcall id' flags rects)
  | discardSubresources id' first count hasRects =>
      rw [actions] at hα
      split at hα
      · exact absurd hα List.not_mem_nil
      · rename_i image' hi'
        split at hα
        · exact absurd hα List.not_mem_nil
        · rename_i hwhole
          obtain ⟨rfl, rfl⟩ := Action.record.inj (List.mem_singleton.mp hα)
          rw [hi, Option.some_inj] at hi'
          subst hi'
          rw [Bool.or_eq_true, not_or, Bool.not_eq_true] at hwhole
          exact ⟨rfl, hwhole.1, hd⟩
  | resourceBarrier id' subresource states =>
      rw [actions] at hα
      split at hα
      · obtain ⟨rfl, rfl⟩ := Action.record.inj (List.mem_singleton.mp hα)
        exact False.elim hd
      · exact absurd hα List.not_mem_nil
  | drawPipeline id' pipeline view =>
      obtain ⟨rfl, rfl⟩ := Action.record.inj (List.mem_singleton.mp hα)
      exact False.elim hd
  | finish =>
      rw [actions, List.mem_cons, List.mem_map] at hα
      rcases hα with hα | ⟨id', -, hα⟩
      · exact absurd hα (by simp)
      · exact absurd hα (by simp)
  | register info => exact absurd (List.mem_singleton.mp hα) (by simp)
  | unregister id' => exact absurd (List.mem_singleton.mp hα) (by simp)
  | seed id' levels => exact absurd (List.mem_singleton.mp hα) (by simp)
  | closePass => exact absurd (List.mem_singleton.mp hα) (by simp)

theorem drops_of_mem_step {t : Tracker} {call : Call} {r : Request}
    (hcall : ∀ id flags rects, call ≠ .clearView id flags rects)
    (h : r ∈ (t.step call).1.requestList) :
    ∃ image, t.image? r.image = some image ∧
      ∀ b ∈ r.imageBarriers, b.step.oldLayout = .undefined → ∀ a, b.step.planes.has a = true →
        image.levels.get a = .undefined ∨ call.Drops t.policy r.image image a := by
  obtain ⟨α, hα, image, x, hi, hx, hr⟩ := exists_image?_of_mem_step h
  refine ⟨image, hi, fun b hb hold a ha => ?_⟩
  rw [hr] at hb
  rcases TrackedImage.undefined_or_discards hb hold ha with hl | hd
  · exact .inl hl
  · obtain ⟨command, rfl, hdrops⟩ := Action.drops_of_accepted? hx hd
    exact .inr (drops_of_mem_actions hcall hi hα hdrops)

/-- A barrier out of the undefined layout only takes in aspects that had no contents or whose
contents the call gives up. -/
theorem dropped_of_barrier {t : Tracker} {call : Call} {r : Request}
    (h : r ∈ (t.step call).1.requestList) :
    ∃ image, t.image? r.image = some image ∧
      ∀ b ∈ r.imageBarriers, b.step.oldLayout = .undefined → ∀ a, b.step.planes.has a = true →
        image.levels.get a = .undefined ∨ call.Drops t.policy r.image image a := by
  cases call with
  | clearView id flags rects =>
      -- a single clear asks for the barrier, so its rectangle is the one that must reach every texel
      obtain ⟨image', rect, hi', hr, hrect⟩ := exists_record_of_mem_clearView h
      obtain ⟨image, hi, hdropped⟩ := drops_of_mem_step (by simp) hr
      refine ⟨image, hi, fun b hb hold a ha => (hdropped b hb hold a ha).imp_right ?_⟩
      rintro ⟨rfl, hmarked, hpolicy, hfills⟩
      obtain rfl := Option.some_inj.mp (hi.symm.trans hi')
      rw [PerAspect.get_ofFn, Bool.and_eq_true] at hmarked
      refine ⟨rfl, hmarked.1, hpolicy, hrect.imp And.left ?_⟩
      rintro ⟨hfirst, hsome⟩
      obtain ⟨first, rfl⟩ := Option.isSome_iff_exists.mp hsome
      exact ⟨first, hfirst, hfills first rfl⟩
  | register _ | unregister _ | seed _ _ | record _ _ | closePass | finish
  | resourceBarrier _ _ _ | discardSubresources _ _ _ _ | drawPipeline _ _ _ =>
      exact drops_of_mem_step (by simp) h

/-- A depth-stencil image whose aspects are both sampled. -/
def sampledImage : Tracker :=
  (empty {}).after
    [.register { handle := 0, format := 129, extent := ⟨64, 64⟩, initial := .both .readOnly }]

theorem dropped_of_barrier_sampledImage :
    ∃ r ∈ (sampledImage.step (.record ⟨0, 0⟩ (.clear (.both true) none))).1.requestList,
      (∃ b ∈ r.imageBarriers, b.step.oldLayout = .undefined ∧ b.step.planes.has .depth = true) ∧
        ∃ image, sampledImage.image? r.image = some image ∧
          ∀ b ∈ r.imageBarriers, b.step.oldLayout = .undefined →
            ∀ a, b.step.planes.has a = true → image.levels.get a = .undefined ∨
              (Call.record ⟨0, 0⟩ (.clear (.both true) none)).Drops sampledImage.policy r.image
                image a := by
  obtain ⟨r, hr, hb⟩ :
      ∃ r ∈ (sampledImage.step (.record ⟨0, 0⟩ (.clear (.both true) none))).1.requestList,
        ∃ b ∈ r.imageBarriers, b.step.oldLayout = .undefined ∧ b.step.planes.has .depth = true := by
    decide
  exact ⟨r, hr, hb, dropped_of_barrier hr⟩

end Tracker

end DepthStencil
