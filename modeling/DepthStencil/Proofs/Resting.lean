import DepthStencil.Proofs.Actions
import DepthStencil.Proofs.Settling

/-! # Bringing images to rest

At the end of a recording the writable aspects of an image move to the resting level of the policy,
and no other aspect moves (`Policy.restTargets?_eq_some`).  Every change that is made then gives up
writing (`TrackedImage.relaxes_of_restTargets?`), so counting the changes is counting the aspects
that gave up writing, as for a transition (`Tracker.relax_eq`, `Tracker.relax_cases`). -/

namespace DepthStencil

theorem PerAspect.any_eq_true {p : PerAspect Bool} : p.any = true ↔ ∃ a, p.get a = true := by
  constructor
  · intro h
    rcases Bool.or_eq_true_iff.mp h with h | h
    · exact ⟨.depth, h⟩
    · exact ⟨.stencil, h⟩
  · rintro ⟨a, h⟩
    exact any_of_get h

namespace Policy

variable {policy : Policy}

theorem isSome_restTarget {level : Option Level} :
    (policy.restTarget level).isSome = true ↔ level = some .writable := by
  unfold restTarget
  split
  · rename_i h
    exact iff_of_true rfl h
  · rename_i h
    exact iff_of_false (by simp) h

/-- Something is brought to rest if the policy asks for it and some aspect is writable. -/
theorem restTargets?_eq_some {levels targets : PerAspect (Option Level)} :
    policy.restTargets? levels = some targets ↔
      (policy.relaxOnFinish = true ∧ policy.resting ≠ .writable) ∧
        (∃ a, levels.get a = some .writable) ∧ targets = levels.map policy.restTarget := by
  have hany : ((levels.map policy.restTarget).map Option.isSome).any = true ↔
      ∃ a, levels.get a = some .writable := by
    simp only [PerAspect.any_eq_true, PerAspect.get_map, isSome_restTarget]
  unfold restTargets?
  simp only
  split
  · rename_i h
    rw [Bool.and_eq_true, Bool.and_eq_true, decide_eq_true_eq, hany] at h
    rw [Option.some_inj]
    exact ⟨fun htargets => ⟨h.1, h.2, htargets.symm⟩, fun htargets => htargets.2.2.symm⟩
  · rename_i h
    rw [Bool.and_eq_true, Bool.and_eq_true, decide_eq_true_eq, hany] at h
    exact iff_of_false (by simp) fun htargets => h ⟨htargets.1, htargets.2.1⟩

end Policy

namespace TrackedImage

variable {image : TrackedImage} {policy : Policy} {targets : PerAspect (Option Level)}

theorem relaxes_of_restTargets? (h : policy.restTargets? image.presentLevels = some targets)
    {a : Aspect} {c : Change}
    (hc : (image.changes ((Command.transition targets).needs false)).get a = some c) :
    c.relaxes = true := by
  obtain ⟨⟨-, hresting⟩, -, rfl⟩ := Policy.restTargets?_eq_some.mp h
  rw [get_changes, Command.get_needs_transition, PerAspect.get_map] at hc
  unfold Policy.restTarget at hc
  split at hc
  · rename_i hwritable
    have hlevel : image.levels.get a = .writable := by
      rw [presentLevels, PlaneSet.restrict, PerAspect.get_ofFn] at hwritable
      split at hwritable
      · exact Option.some_inj.mp hwritable
      · exact absurd hwritable (by simp)
    obtain ⟨hsource, -, hresolve, -⟩ := Need.change?_eq_some hc
    have htarget : policy.resting = c.target := Demand.meets_of_resolve hresolve |>.symm
    rw [Change.relaxes, hsource, hlevel, ← htarget]
    cases hlevel' : policy.resting with
    | undefined => rfl
    | readOnly => rfl
    | writable => exact absurd hlevel' hresting
  · exact absurd hc (by simp [Need.change?, Need.none, Demand.resolve])

theorem count_relaxes_of_restTargets? (h : policy.restTargets? image.presentLevels = some targets) :
    ((image.changes ((Command.transition targets).needs false)).count fun c =>
        c.any Change.relaxes) =
      (image.changes ((Command.transition targets).needs false)).count Option.isSome := by
  unfold PerAspect.count
  refine List.countP_congr fun a _ => ?_
  cases hc : (image.changes ((Command.transition targets).needs false)).get a with
  | none => simp
  | some c => simp [relaxes_of_restTargets? h hc]

end TrackedImage

/-- Bringing an image to rest counts the aspects that give up writing. -/
theorem Tracker.relax_eq (t : Tracker) (id : ImageId) : t.relax id =
    match t.image? id with
    | none => (none, t)
    | some image =>
      match t.policy.restTargets? image.presentLevels with
      | none => (none, t)
      | some targets =>
        ((t.settle id image ((Command.transition targets).needs false) false).1,
          (t.settle id image ((Command.transition targets).needs false) false).2.countDecays
            (image.changes ((Command.transition targets).needs false))) := by
  unfold relax
  cases t.image? id with
  | none => rfl
  | some image =>
      simp only
      cases ht : t.policy.restTargets? image.presentLevels with
      | none => rfl
      | some targets =>
          simp only [countRest, Stats.countRest, countDecays, Stats.countDecays,
            TrackedImage.count_relaxes_of_restTargets? ht]

/-- Bringing an image to rest does nothing or settles it for a transition to its resting targets. -/
theorem Tracker.relax_cases (t : Tracker) (id : ImageId) :
    (t.relax id = (none, t) ∧
        ∀ image, t.image? id = some image → t.policy.restTargets? image.presentLevels = none) ∨
      ∃ image targets, t.image? id = some image ∧
        t.policy.restTargets? image.presentLevels = some targets ∧
        t.relax id = ((t.settle id image ((Command.transition targets).needs false) false).1,
          (t.settle id image ((Command.transition targets).needs false) false).2.countDecays
            (image.changes ((Command.transition targets).needs false))) := by
  rw [relax_eq]
  cases hi : t.image? id with
  | none => exact .inl ⟨rfl, by simp⟩
  | some image =>
      cases ht : t.policy.restTargets? image.presentLevels with
      | none => exact .inl ⟨by simp only [ht], by simpa using ht⟩
      | some targets => exact .inr ⟨image, targets, rfl, ht, by simp only [ht]⟩

end DepthStencil
