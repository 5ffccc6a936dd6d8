import DepthStencil.Proofs.Passes
import DepthStencil.Proofs.Origins

/-! # Requests and barriers are counted

The counters of a tracker say how many requests its answers handed out and how many image barriers
those held (`Stats.Counts`).  Every operation on a pass or an image counts its own request, and what
else it counts is counted elsewhere, so sequences of actions count all of theirs
(`Tracker.counts_acts`). -/

namespace DepthStencil

namespace Stats

/-- Whether counters have gone up by some requests and the image barriers in them. -/
structure Counts (s : Stats) (rs : List Request) (s' : Stats) : Prop where
  transitions : s'.transitions = s.transitions + rs.length
  imageBarriers : s'.imageBarriers = s.imageBarriers + (rs.flatMap Request.imageBarriers).length

variable {s s' s'' : Stats} {rs rs' : List Request}

theorem counts_nil (s : Stats) : Counts s [] s := ⟨rfl, rfl⟩

theorem counts_countRequest (s : Stats) (request? : Option Request) :
    Counts s request?.toList (s.countRequest request?) := by
  cases request? with
  | none => exact counts_nil s
  | some r => exact ⟨rfl, by rw [Option.toList_some, List.flatMap_singleton]; rfl⟩

theorem Counts.append (h : Counts s rs s') (h' : Counts s' rs' s'') : Counts s (rs ++ rs') s'' := by
  constructor
  · rw [h'.transitions, h.transitions, List.length_append, Nat.add_assoc]
  · rw [h'.imageBarriers, h.imageBarriers, List.flatMap_append, List.length_append, Nat.add_assoc]

theorem Counts.countDecays (h : Counts s rs s') (changes : PerAspect (Option Change)) :
    Counts s rs (s'.countDecays changes) := ⟨h.transitions, h.imageBarriers⟩

theorem Counts.countPlacement (h : Counts s rs s') (placement : Placement) :
    Counts s rs (s'.countPlacement placement) := by
  cases placement <;> exact ⟨h.transitions, h.imageBarriers⟩

end Stats

namespace Tracker

open Stats

variable {t t' : Tracker} {id : ImageId} {image : TrackedImage} {x : Accepted}
  {request? : Option Request}

theorem counts_settle (t : Tracker) (id : ImageId) (image : TrackedImage) (needs : PerAspect Need)
    (endsPass : Bool) :
    Counts t.stats (image.request? t.policy.scheme needs id endsPass).toList
      (t.settle id image needs endsPass).2.stats := counts_countRequest _ _

theorem counts_closePass_settle (t : Tracker) (id : ImageId) (image : TrackedImage)
    (needs : PerAspect Need) (endsPass : Bool) :
    Counts t.stats (image.request? t.policy.scheme needs id endsPass).toList
      (t.closePass.settle id image needs endsPass).2.stats := by
  have h := t.closePass.counts_settle id image needs endsPass
  rw [stats_closePass, policy_closePass] at h
  exact h

theorem Records.counts (h : Records t id image x request? t') :
    Counts t.stats request?.toList t'.stats := by
  have hquiet : image.moves t.policy.scheme (x.needs t.policy) = false →
      Counts t.stats [] (t.settle id image (x.needs t.policy) false).2.stats := by
    intro hmoves
    have hcounts := t.counts_settle id image (x.needs t.policy) false
    rw [TrackedImage.request?, hmoves] at hcounts
    exact hcounts
  cases h with
  | folds _ _ hmoves => exact (hquiet hmoves).countPlacement .fold
  | begins => exact (t.counts_closePass_settle id image _ _).countPlacement _
  | ends => exact (t.counts_closePass_settle id image _ _).countDecays _
  | drops _ hmoves =>
      rw [← TrackedImage.request?_eq_some.mpr ⟨hmoves, rfl⟩]
      exact t.counts_closePass_settle id image _ _
  | stays _ hmoves => exact hquiet hmoves

theorem counts_relax (t : Tracker) (id : ImageId) :
    Counts t.stats (t.relax id).1.toList (t.relax id).2.stats := by
  rcases t.relax_cases id with ⟨h, -⟩ | ⟨image, targets, -, -, h⟩
  · rw [h]
    exact counts_nil _
  · rw [h]
    exact (t.counts_settle id image _ false).countDecays _

theorem counts_act (t : Tracker) (α : Action) :
    Counts t.stats (t.act α).1 (t.act α).2.stats := by
  cases α with
  | register info =>
      obtain ⟨registry, hregistry⟩ := t.exists_register_eq info
      rw [act, hregistry]
      exact counts_nil _
  | unregister id =>
      rw [act, (t.overwrites_unregister id).stats]
      exact counts_nil _
  | seed id levels =>
      rw [act, (t.overwrites_seed id levels).stats]
      exact counts_nil _
  | record id command =>
      rw [act]
      rcases t.record_cases id command with
        ⟨e, -, he⟩ | ⟨image, -, -, he⟩ | ⟨image, x, request?, t', -, -, hrecords, he⟩
      · rw [he]
        exact counts_nil _
      · rw [he]
        exact counts_nil _
      · rw [he]
        exact hrecords.counts
  | closePass =>
      rw [act, stats_closePass]
      exact counts_nil _
  | relax id => exact t.counts_relax id

theorem counts_acts (t : Tracker) (αs : List Action) :
    Counts t.stats (t.acts αs).1 (t.acts αs).2.stats := by
  induction αs generalizing t with
  | nil => exact counts_nil _
  | cons α αs ih => exact (t.counts_act α).append (ih _)

/-- A call counts the requests that its answer hands out. -/
theorem counts_step (t : Tracker) (call : Call) :
    Counts t.stats (t.step call).1.requestList (t.step call).2.stats := by
  rw [requestList_step, step_snd]
  exact t.counts_acts (t.actions call)

end Tracker

end DepthStencil
